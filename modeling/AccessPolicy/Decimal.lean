import AccessPolicy.Long
import AccessPolicy.Text.Numeral

/-!
Decimal numbers with four places after the point, held as a word that counts
ten-thousandths. A literal has at least one digit before the point and one to
four after it.
-/

namespace AccessPolicy

/-- A number of ten-thousandths. -/
structure Decimal where
  raw : Long
deriving DecidableEq, Repr

namespace Decimal

/-- Why a text denotes no decimal. -/
inductive Fault where
  | malformed
  | outOfRange
deriving DecidableEq, Repr

def Fault.message (text : String) : Fault → String
  | .malformed => "`" ++ text ++ "` is not a decimal literal (expected e.g. \"1.2345\")"
  | .outOfRange => "`" ++ text ++ "` is out of range for a decimal"

/-- The ten-thousandths denoted by digits before and after the point. -/
def scaled (whole fraction : List Char) : Nat :=
  Text.natOfDigits whole * 10000 + Text.natOfDigits (List.rightpad 4 '0' fraction)

/-- The magnitude of an unsigned literal, in ten-thousandths. -/
def magnitude? (text : List Char) : Option Nat :=
  match text.span Char.isDigit with
  | (whole, '.' :: fraction) =>
    if whole ≠ [] ∧ fraction ≠ [] ∧ fraction.length ≤ 4 ∧ fraction.all Char.isDigit then
      some (scaled whole fraction)
    else
      none
  | _ => none

/-- The exact number of ten-thousandths that a literal denotes. -/
def tenThousandths? : List Char → Option Int
  | '-' :: text => (magnitude? text).map fun m => -(m : Int)
  | text => (magnitude? text).map Int.ofNat

def ofText (text : String) : Except Fault Decimal :=
  match tenThousandths? text.toList with
  | none => .error .malformed
  | some n =>
    match Long.ofInt? n with
    | some raw => .ok ⟨raw⟩
    | none => .error .outOfRange

/-- All four places are written. -/
def text (d : Decimal) : String :=
  let magnitude := d.raw.toInt.natAbs
  (if d.raw.toInt < 0 then "-" else "") ++ (magnitude / 10000).repr ++ "." ++
    Text.padded 4 (magnitude % 10000)

end Decimal
end AccessPolicy
