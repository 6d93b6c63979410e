import AccessPolicy.Datetime
import AccessPolicy.Decimal
import AccessPolicy.EntityUid
import AccessPolicy.IpRange

/-!
The values of the policy language. The members of a set are kept in the order
of their first occurrence, and the fields of a record in the order of their
names; equality of values ignores the first and relies on the second. The
functions that build sets and records keep members unequal and names strictly
increasing.
-/

namespace AccessPolicy

/-- The types of values. -/
inductive ValueType where
  | bool | long | string | set | record | entity | ipaddr | decimal | datetime | duration
deriving DecidableEq, Repr

namespace ValueType

def all : List ValueType :=
  [.bool, .long, .string, .set, .record, .entity, .ipaddr, .decimal, .datetime, .duration]

def name : ValueType → String
  | .bool => "bool"
  | .long => "long"
  | .string => "string"
  | .set => "set"
  | .record => "record"
  | .entity => "entity"
  | .ipaddr => "ipaddr"
  | .decimal => "decimal"
  | .datetime => "datetime"
  | .duration => "duration"

def ofName? (name : String) : Option ValueType :=
  all.find? (·.name == name)

end ValueType

inductive Value where
  | bool (b : Bool)
  | long (n : Long)
  | string (s : String)
  | set (members : List Value)
  | record (fields : List (String × Value))
  | entity (uid : EntityUid)
  | ip (range : IpRange)
  | decimal (d : Decimal)
  | datetime (t : Datetime)
  | duration (d : Duration)

/-- Named values in increasing order of their names. -/
abbrev Record := List (String × Value)

namespace Value

instance : Inhabited Value := ⟨.bool false⟩

def type : Value → ValueType
  | .bool _ => .bool
  | .long _ => .long
  | .string _ => .string
  | .set _ => .set
  | .record _ => .record
  | .entity _ => .entity
  | .ip _ => .ipaddr
  | .decimal _ => .decimal
  | .datetime _ => .datetime
  | .duration _ => .duration

mutual

/-- Values of different types are unequal. Sets are equal when they have the
same number of members and the members of one are in the other. -/
protected def beq : Value → Value → Bool
  | .bool a, .bool b => a == b
  | .long a, .long b => a == b
  | .string a, .string b => a == b
  | .set xs, .set ys => xs.length == ys.length && allIn xs ys
  | .record fs, .record gs => beqFields fs gs
  | .entity a, .entity b => a == b
  | .ip a, .ip b => a == b
  | .decimal a, .decimal b => a == b
  | .datetime a, .datetime b => a == b
  | .duration a, .duration b => a == b
  | _, _ => false

/-- Every value of the first list equals some value of the second. -/
def allIn : List Value → List Value → Bool
  | [], _ => true
  | x :: xs, ys => ys.any (fun y => Value.beq x y) && allIn xs ys

/-- Equal names and equal values, in order. -/
def beqFields : List (String × Value) → List (String × Value) → Bool
  | [], [] => true
  | (k, v) :: fs, (l, w) :: gs => k == l && Value.beq v w && beqFields fs gs
  | _, _ => false

end

instance : BEq Value := ⟨Value.beq⟩

/-- Some member equals the value. -/
def contains (members : List Value) (v : Value) : Bool :=
  members.any (v == ·)

/-- Some member of the first list is in the second. -/
def meets (xs ys : List Value) : Bool :=
  xs.any (contains ys)

/-- The values of a list without those that equal an earlier one. -/
def distinct (values : List Value) : List Value :=
  values.foldl (fun kept v => if contains kept v then kept else kept ++ [v]) []

/-- The set of the given values. -/
def setOf (values : List Value) : Value :=
  .set (distinct values)

end Value

namespace Record

/-- Sets the value of a name, replacing an earlier one. -/
def insert (name : String) (value : Value) : Record → Record
  | [] => [(name, value)]
  | (k, v) :: fields =>
    if name < k then (name, value) :: (k, v) :: fields
    else if name = k then (name, value) :: fields
    else (k, v) :: insert name value fields

/-- The last value given for a name counts. -/
def ofList (fields : List (String × Value)) : Record :=
  fields.foldl (fun r f => Record.insert f.1 f.2 r) []

def find? (r : Record) (name : String) : Option Value :=
  List.lookup name r

end Record
end AccessPolicy
