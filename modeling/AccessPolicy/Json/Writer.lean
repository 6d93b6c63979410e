import AccessPolicy.Json

/-!
The text of JSON data, without blanks. In a string, quotes, backslashes and the
characters before the space are escaped.
-/

namespace AccessPolicy
namespace Json

def hexDigits (n : Nat) : List Char :=
  List.leftpad 4 '0' (Nat.toDigits 16 n)

def escapeChar (c : Char) : List Char :=
  if c = '"' ∨ c = '\\' then ['\\', c]
  else if c < ' ' then '\\' :: 'u' :: hexDigits c.toNat
  else [c]

def stringText (s : String) : String :=
  String.ofList ('"' :: s.toList.flatMap escapeChar ++ ['"'])

mutual

def text : Json → String
  | .null => "null"
  | .bool b => if b then "true" else "false"
  | .int n => n.repr
  | .real negative mantissa exponent =>
    (if negative then "-" else "") ++ mantissa.repr ++ "e" ++ exponent.repr
  | .string s => stringText s
  | .array items => "[" ++ itemsText items ++ "]"
  | .object fields => "\x7b" ++ fieldsText fields ++ "\x7d"

def itemsText : List Json → String
  | [] => ""
  | [j] => text j
  | j :: js => text j ++ "," ++ itemsText js

def fieldsText : List (String × Json) → String
  | [] => ""
  | [f] => stringText f.1 ++ ":" ++ text f.2
  | f :: fs => stringText f.1 ++ ":" ++ text f.2 ++ "," ++ fieldsText fs

end

end Json
end AccessPolicy
