import AccessPolicy.Long
import AccessPolicy.Text.Numeral

/-!
Signed spans of time in milliseconds. A literal names amounts of days, hours,
minutes, seconds and milliseconds, in this order, each at most once.
-/

namespace AccessPolicy

/-- The units of a duration literal. -/
inductive TimeUnit where
  | day | hour | minute | second | millisecond
deriving DecidableEq, Repr

namespace TimeUnit

def millis : TimeUnit → Nat
  | .day => 86400000
  | .hour => 3600000
  | .minute => 60000
  | .second => 1000
  | .millisecond => 1

def symbol : TimeUnit → List Char
  | .day => ['d']
  | .hour => ['h']
  | .minute => ['m']
  | .second => ['s']
  | .millisecond => ['m', 's']

/-- The order in which a literal names them. -/
def descending : List TimeUnit := [.day, .hour, .minute, .second, .millisecond]

/-- Drops the unit's symbol from the front of the text. The `m` of `ms` is not
the symbol of a minute. -/
def dropSymbol? : TimeUnit → List Char → Option (List Char)
  | .day, 'd' :: rest => some rest
  | .hour, 'h' :: rest => some rest
  | .minute, 'm' :: 's' :: _ => none
  | .minute, 'm' :: rest => some rest
  | .second, 's' :: rest => some rest
  | .millisecond, 'm' :: 's' :: rest => some rest
  | _, _ => none

/-- Reads an amount of the unit from the front of the text. -/
def amount? (unit : TimeUnit) (text : List Char) : Option (Nat × List Char) :=
  let (digits, rest) := text.span Char.isDigit
  if digits = [] then none
  else (unit.dropSymbol? rest).map fun rest => (Text.natOfDigits digits, rest)

end TimeUnit

/-- A number of milliseconds. -/
structure Duration where
  millis : Long
deriving DecidableEq, Repr

namespace Duration

/-- Why a text denotes no duration. -/
inductive Fault where
  | malformed
  | noUnits
  | outOfRange
deriving DecidableEq, Repr

def Fault.message (text : String) : Fault → String
  | .malformed => "`" ++ text ++ "` is not a valid duration literal"
  | .noUnits => "`" ++ text ++ "` has no duration units"
  | .outOfRange => "`" ++ text ++ "` is out of range for a duration"

/-- Reads the amounts of the given units, each of which may be left out, and
nothing after them. -/
def amounts? : List TimeUnit → List Char → Option (List (TimeUnit × Nat))
  | [], [] => some []
  | [], _ :: _ => none
  | unit :: units, text =>
    match unit.amount? text with
    | some (amount, rest) => (amounts? units rest).map ((unit, amount) :: ·)
    | none => amounts? units text

/-- The milliseconds in a list of amounts. -/
def total (amounts : List (TimeUnit × Nat)) : Nat :=
  amounts.foldr (fun (unit, amount) rest => amount * unit.millis + rest) 0

/-- The sign and the amounts of a literal. -/
def parts? : List Char → Option (Bool × List (TimeUnit × Nat))
  | '-' :: text => (amounts? TimeUnit.descending text).map (true, ·)
  | text => (amounts? TimeUnit.descending text).map (false, ·)

/-- The total without its sign has to be a word, whichever the sign. -/
def ofText (text : String) : Except Fault Duration :=
  match parts? text.toList with
  | none => .error .malformed
  | some (_, []) => .error .noUnits
  | some (negative, amounts) =>
    let magnitude := total amounts
    if Long.InRange magnitude then
      .ok ⟨Int64.ofInt (if negative then -(magnitude : Int) else magnitude)⟩
    else
      .error .outOfRange

/-- The amounts of the given units in `millis`, greedily and without zeros. -/
def unitsText : List TimeUnit → Nat → String
  | [], _ => ""
  | unit :: units, millis =>
    let amount := millis / unit.millis
    (if amount = 0 then "" else amount.repr ++ String.ofList unit.symbol) ++
      unitsText units (millis % unit.millis)

def text (d : Duration) : String :=
  if d.millis = 0 then "0ms"
  else
    (if d.millis.toInt < 0 then "-" else "") ++
      unitsText TimeUnit.descending d.millis.toInt.natAbs

/-- The whole units in a duration; a remainder is dropped toward zero. -/
def inUnits (unit : TimeUnit) (d : Duration) : Long :=
  Int64.ofInt (d.millis.toInt.tdiv unit.millis)

end Duration
end AccessPolicy
