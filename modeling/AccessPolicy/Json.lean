/-!
JSON data, and the shapes in which records and alternatives are encoded in it.
A structure is an object with a member per field, or an array of the fields in
their order. An alternative is an object with one member, named for it; fields
of its own are in an object, never in an array. One without content may also be
its name alone.
-/

namespace AccessPolicy

/-- A number is an integer if it is written without a fraction, an exponent or
a negative zero; any other is a mantissa and a decimal exponent. -/
inductive Json where
  | null
  | bool (b : Bool)
  | int (n : Int)
  | real (negative : Bool) (mantissa : Nat) (exponent : Int)
  | string (s : String)
  | array (items : List Json)
  | object (fields : List (String × Json))

namespace Json

instance : Inhabited Json := ⟨.null⟩

def bool? : Json → Option Bool
  | .bool b => some b
  | _ => none

def string? : Json → Option String
  | .string s => some s
  | _ => none

def array? : Json → Option (List Json)
  | .array items => some items
  | _ => none

def object? : Json → Option (List (String × Json))
  | .object fields => some fields
  | _ => none

/-- An integer from zero up to a bound that is left out. -/
def natBelow? (bound : Nat) : Json → Option Nat
  | .int n => if 0 ≤ n ∧ n < bound then some n.toNat else none
  | _ => none

/-- The binary64 number nearest to `mantissa` times a power of ten, unless that
is beyond their range. A number below all of them is zero. -/
def nearestFloat? (mantissa : Nat) (exponent : Int) : Option Float :=
  let magnitude := exponent + (Nat.toDigits 10 mantissa).length
  if mantissa = 0 ∨ magnitude < -400 then some 0
  else if 400 < magnitude then none
  else
    let f := Float.ofScientific mantissa (exponent < 0) exponent.natAbs
    if f.isInf then none else some f

def float? : Json → Option Float
  | .int n => (nearestFloat? n.natAbs 0).map fun f => if n < 0 then -f else f
  | .real negative mantissa exponent =>
    (nearestFloat? mantissa exponent).map fun f => if negative then -f else f
  | _ => none

/-- The items of an array, each read in the same way. -/
def list? {α : Type} (read : Json → Option α) (j : Json) : Option (List α) := do
  (← j.array?).mapM read

/-- Nothing for null. -/
def option? {α : Type} (read : Json → Option α) : Json → Option (Option α)
  | .null => some none
  | j => (read j).map some

/-- The members of a structure with the given field names. -/
def structure? (names : List String) : Json → Option (List (String × Json))
  | .object fields => some fields
  | .array items => if items.length = names.length then some (names.zip items) else none
  | _ => none

/-- The members of a structure of which trailing fields may be left out of an
array. -/
def openStructure? (names : List String) : Json → Option (List (String × Json))
  | .object fields => some fields
  | .array items => if items.length ≤ names.length then some (names.zip items) else none
  | _ => none

/-- Reads a member that has to be there. -/
def field? {α : Type} (fields : List (String × Json)) (name : String)
    (read : Json → Option α) : Option α := do
  read (← fields.lookup name)

/-- Reads a member that may be missing or null. -/
def optional? {α : Type} (fields : List (String × Json)) (name : String)
    (read : Json → Option α) : Option (Option α) :=
  match fields.lookup name with
  | none => some none
  | some j => option? read j

/-- Reads a member that may be missing. -/
def fieldOr? {α : Type} (fields : List (String × Json)) (name : String) (missing : α)
    (read : Json → Option α) : Option α :=
  match fields.lookup name with
  | none => some missing
  | some j => read j

/-- The name and the content of an alternative. -/
def variant? : Json → Option (String × Json)
  | .object [(name, content)] => some (name, content)
  | _ => none

/-- The name of an alternative without content. -/
def unit? : Json → Option String
  | .string name => some name
  | .object [(name, .null)] => some name
  | _ => none

/-- An alternative with its content. -/
def variant (name : String) (content : Json) : Json :=
  .object [(name, content)]

def ofNat (n : Nat) : Json := .int n

def ofOption {α : Type} (write : α → Json) : Option α → Json
  | some a => write a
  | none => .null

def ofList {α : Type} (write : α → Json) (as : List α) : Json :=
  .array (as.map write)

end Json
end AccessPolicy
