/-!
Cutting a text at separators: at every occurrence of a character, and at the
first or the last occurrence of a text.
-/

namespace AccessPolicy
namespace Text

/-- What stands between the separators. There is one piece more than there are
separators. -/
def pieces (separator : Char) : List Char → List (List Char)
  | [] => [[]]
  | c :: text =>
    if c = separator then [] :: pieces separator text
    else
      match pieces separator text with
      | piece :: rest => (c :: piece) :: rest
      | [] => [[c]]

/-- The rest of a text that starts with `front`. -/
def strip? : List Char → List Char → Option (List Char)
  | [], text => some text
  | _ :: _, [] => none
  | f :: front, c :: text => if f = c then strip? front text else none

/-- The text before and after the first occurrence of a non-empty separator. -/
def breakFirst? (separator : List Char) : List Char → Option (List Char × List Char)
  | [] => none
  | c :: text =>
    match strip? separator (c :: text) with
    | some after => some ([], after)
    | none => (breakFirst? separator text).map fun (before, after) => (c :: before, after)

/-- The text before and after the last occurrence of a non-empty separator. -/
def breakLast? (separator : List Char) : List Char → Option (List Char × List Char)
  | [] => none
  | c :: text =>
    match breakLast? separator text with
    | some (before, after) => some (c :: before, after)
    | none => (strip? separator (c :: text)).map ([], ·)

/-- The texts with a separator between neighbours. -/
def joinWith (separator : String) : List String → String
  | [] => ""
  | [t] => t
  | t :: ts => t ++ separator ++ joinWith separator ts

end Text
end AccessPolicy
