import AccessPolicy.Json
import AccessPolicy.Text.Numeral
import AccessPolicy.Text.Pieces

/-!
Reading JSON from text. Nesting is limited only by the length of the text. Of
two members of an object with one name, the later one counts.
-/

namespace AccessPolicy
namespace Json
namespace Reader

def isBlank (c : Char) : Bool :=
  c = ' ' ∨ c = '\t' ∨ c = '\n' ∨ c = '\r'

def skipBlanks (text : List Char) : List Char :=
  text.dropWhile isBlank

/-- Four hexadecimal digits. -/
def unit16? : List Char → Option (Nat × List Char)
  | a :: b :: c :: d :: text => do
    let n := ((← Text.hexDigit? a) * 16 + (← Text.hexDigit? b)) * 16 + (← Text.hexDigit? c)
    some (n * 16 + (← Text.hexDigit? d), text)
  | _ => none

/-- The character after `\u`: one unit, or a high and a low surrogate. -/
def escapedUnit? (text : List Char) : Option (Char × List Char) := do
  let (high, text) ← unit16? text
  if high < 0xd800 ∨ 0xe000 ≤ high then some (Char.ofNat high, text)
  else if 0xdc00 ≤ high then none
  else
    match text with
    | '\\' :: 'u' :: text =>
      let (low, text) ← unit16? text
      if 0xdc00 ≤ low ∧ low < 0xe000 then
        some (Char.ofNat (0x10000 + (high - 0xd800) * 0x400 + (low - 0xdc00)), text)
      else
        none
    | _ => none

/-- The character that a letter after a backslash stands for. -/
def shortEscape? : Char → Option Char
  | '"' => some '"'
  | '\\' => some '\\'
  | '/' => some '/'
  | 'b' => some '\x08'
  | 'f' => some '\x0c'
  | 'n' => some '\n'
  | 'r' => some '\r'
  | 't' => some '\t'
  | _ => none

/-- One character of a string; `none` in its place at the closing quote. -/
def stringChar? : List Char → Option (Option Char × List Char)
  | [] => none
  | '"' :: text => some (none, text)
  | '\\' :: 'u' :: text => (escapedUnit? text).map fun (c, text) => (some c, text)
  | '\\' :: c :: text => (shortEscape? c).map fun c => (some c, text)
  | c :: text => if c < ' ' ∨ c = '\\' then none else some (some c, text)

/-- The rest of a string, of which the last characters come first in `read`. -/
def stringRest? : Nat → List Char → List Char → Option (String × List Char)
  | 0, _, _ => none
  | fuel + 1, read, text => do
    match ← stringChar? text with
    | (none, text) => some (String.ofList read.reverse, text)
    | (some c, text) => stringRest? fuel (c :: read) text

/-- A run of digits that is not empty. -/
def digits? (text : List Char) : Option (List Char × List Char) :=
  match text.span Char.isDigit with
  | ([], _) => none
  | run => some run

/-- The digits before the point: a zero alone, or digits that do not start with
one. -/
def whole? : List Char → Option (List Char × List Char)
  | '0' :: text => some (['0'], text)
  | text => digits? text

/-- The digits after the point, if there is one. -/
def fraction? : List Char → Option (Option (List Char) × List Char)
  | '.' :: text => (digits? text).map fun (ds, text) => (some ds, text)
  | text => some (none, text)

/-- A sign and digits. -/
def signed? : List Char → Option (Int × List Char)
  | '-' :: text => (digits? text).map fun (ds, text) => (-(Text.natOfDigits ds : Int), text)
  | '+' :: text => (digits? text).map fun (ds, text) => (Text.natOfDigits ds, text)
  | text => (digits? text).map fun (ds, text) => (Text.natOfDigits ds, text)

/-- The exponent, if there is one. -/
def exponent? : List Char → Option (Option Int × List Char)
  | 'e' :: text | 'E' :: text => (signed? text).map fun (n, text) => (some n, text)
  | text => some (none, text)

/-- A number of which the sign has been read. -/
def magnitude? (negative : Bool) (text : List Char) : Option (Json × List Char) := do
  let (whole, text) ← whole? text
  let (fraction, text) ← fraction? text
  let (exponent, text) ← exponent? text
  match fraction, exponent with
  | none, none =>
    let n := Text.natOfDigits whole
    if negative ∧ n = 0 then some (.real true 0 0, text)
    else some (.int (if negative then -(n : Int) else n), text)
  | _, _ =>
    let digits := fraction.getD []
    some (.real negative (Text.natOfDigits (whole ++ digits)) (exponent.getD 0 - digits.length), text)

def number? : List Char → Option (Json × List Char)
  | '-' :: text => magnitude? true text
  | text => magnitude? false text

/-- Sets a member, replacing an earlier one of the same name. -/
def setField (name : String) (j : Json) (fields : List (String × Json)) :
    List (String × Json) :=
  fields.filter (·.1 ≠ name) ++ [(name, j)]

mutual

/-- A value at the front of a text. Every call takes at least every other time
a character away, so the fuel need not exceed twice the length. -/
def value? : Nat → List Char → Option (Json × List Char)
  | 0, _ => none
  | fuel + 1, text =>
    match skipBlanks text with
    | '"' :: text => (stringRest? fuel [] text).map fun (s, text) => (.string s, text)
    | '[' :: text =>
      match skipBlanks text with
      | ']' :: text => some (.array [], text)
      | text => items? fuel [] text
    | '\x7b' :: text =>
      match skipBlanks text with
      | '\x7d' :: text => some (.object [], text)
      | text => members? fuel [] text
    | 't' :: text => (Text.strip? ['r', 'u', 'e'] text).map (.bool true, ·)
    | 'f' :: text => (Text.strip? ['a', 'l', 's', 'e'] text).map (.bool false, ·)
    | 'n' :: text => (Text.strip? ['u', 'l', 'l'] text).map (.null, ·)
    | text => number? text

/-- The items of an array after those in `read`, the last of which is first. -/
def items? : Nat → List Json → List Char → Option (Json × List Char)
  | 0, _, _ => none
  | fuel + 1, read, text => do
    let (j, text) ← value? fuel text
    match skipBlanks text with
    | ',' :: text => items? fuel (j :: read) text
    | ']' :: text => some (.array (j :: read).reverse, text)
    | _ => none

/-- The members of an object after those in `read`. -/
def members? : Nat → List (String × Json) → List Char → Option (Json × List Char)
  | 0, _, _ => none
  | fuel + 1, read, text =>
    match skipBlanks text with
    | '"' :: text => do
      let (name, text) ← stringRest? fuel [] text
      match skipBlanks text with
      | ':' :: text =>
        let (j, text) ← value? fuel text
        match skipBlanks text with
        | ',' :: text => members? fuel (setField name j read) text
        | '\x7d' :: text => some (.object (setField name j read), text)
        | _ => none
      | _ => none
    | _ => none

end

end Reader

/-- The value that a whole text denotes. -/
def ofText? (text : String) : Option Json :=
  match Reader.value? (2 * text.length + 2) text.toList with
  | some (j, rest) => if Reader.skipBlanks rest = [] then some j else none
  | none => none

end Json
end AccessPolicy
