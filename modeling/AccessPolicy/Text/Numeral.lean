/-!
Numerals over lists of characters: reading runs of ASCII digits and single
hexadecimal digits, and writing a number with at least a given count of digits.
-/

namespace AccessPolicy
namespace Text

/-- The number a run of decimal digits denotes. The empty run denotes zero. -/
def natOfDigits (digits : List Char) : Nat :=
  Nat.ofDigitChars 10 digits 0

/-- Reads exactly `count` digits from the front of the text. -/
def digits? (count : Nat) (text : List Char) : Option (Nat × List Char) :=
  let run := text.take count
  if run.length = count ∧ run.all Char.isDigit then
    some (natOfDigits run, text.drop count)
  else
    none

/-- The value of a hexadecimal digit of either case. -/
def hexDigit? (c : Char) : Option Nat :=
  if c.isDigit then some (c.toNat - '0'.toNat)
  else if 'a' ≤ c ∧ c ≤ 'f' then some (c.toNat - 'a'.toNat + 10)
  else if 'A' ≤ c ∧ c ≤ 'F' then some (c.toNat - 'A'.toNat + 10)
  else none

/-- Drops the given character from the front of the text. -/
def expect? (c : Char) : List Char → Option (List Char)
  | d :: rest => if d = c then some rest else none
  | [] => none

/-- The decimal digits of `n`, with zeros in front up to `width` digits. -/
def paddedDigits (width n : Nat) : List Char :=
  List.leftpad width '0' (Nat.toDigits 10 n)

/-- The decimal numeral of `n`, with zeros in front up to `width` digits. -/
def padded (width n : Nat) : String :=
  String.ofList (paddedDigits width n)

theorem natOfDigits_toDigits (n : Nat) : natOfDigits (Nat.toDigits 10 n) = n :=
  Nat.ofDigitChars_ten_toDigits

end Text
end AccessPolicy
