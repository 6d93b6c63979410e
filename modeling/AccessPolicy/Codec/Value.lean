import AccessPolicy.Json
import AccessPolicy.Value

/-!
The JSON encoding of values. A set is read with its later duplicates left out,
and a record with its members in the order of their names, so that every value
that is read is well formed.
-/

namespace AccessPolicy

namespace Long

def toJson (n : Long) : Json := .int n.toInt

def ofJson? : Json → Option Long
  | .int n => ofInt? n
  | _ => none

end Long

namespace EntityType

def toJson (t : EntityType) : Json := .string t.name

def ofJson? (j : Json) : Option EntityType :=
  j.string?.map EntityType.mk

end EntityType

namespace EntityUid

def toJson (u : EntityUid) : Json :=
  .object [("type", u.type.toJson), ("id", .string u.id)]

def ofJson? (j : Json) : Option EntityUid := do
  let fields ← j.structure? ["type", "id"]
  let type ← Json.field? fields "type" EntityType.ofJson?
  let id ← Json.field? fields "id" Json.string?
  some { type, id }

end EntityUid

namespace IpRange

def toJson (r : IpRange) : Json :=
  .object [("addr", .string r.address.text), ("prefix", .ofNat r.prefixLength.toNat)]

def ofJson? (j : Json) : Option IpRange := do
  let fields ← j.structure? ["addr", "prefix"]
  let address ← Address.ofText? (← Json.field? fields "addr" Json.string?)
  let length ← Json.field? fields "prefix" (Json.natBelow? 256)
  some ⟨address, UInt8.ofNat length⟩

end IpRange

namespace Value

mutual

def toJson : Value → Json
  | .bool b => .variant "Bool" (.bool b)
  | .long n => .variant "Long" n.toJson
  | .string s => .variant "String" (.string s)
  | .set members => .variant "Set" (.array (toJsons members))
  | .record fields => .variant "Record" (.object (fieldsToJson fields))
  | .entity uid => .variant "Entity" uid.toJson
  | .ip range => .variant "IpAddr" range.toJson
  | .decimal d => .variant "Decimal" d.raw.toJson
  | .datetime t => .variant "Datetime" t.millis.toJson
  | .duration d => .variant "Duration" d.millis.toJson

def toJsons : List Value → List Json
  | [] => []
  | v :: vs => toJson v :: toJsons vs

def fieldsToJson : List (String × Value) → List (String × Json)
  | [] => []
  | f :: fs => (f.1, toJson f.2) :: fieldsToJson fs

end

/-- A value that is neither a set nor a record. -/
def scalarOfJson? (name : String) (content : Json) : Option Value :=
  match name with
  | "Bool" => content.bool?.map .bool
  | "Long" => (Long.ofJson? content).map .long
  | "String" => content.string?.map .string
  | "Entity" => (EntityUid.ofJson? content).map .entity
  | "IpAddr" => (IpRange.ofJson? content).map .ip
  | "Decimal" => (Long.ofJson? content).map fun n => .decimal ⟨n⟩
  | "Datetime" => (Long.ofJson? content).map fun n => .datetime ⟨n⟩
  | "Duration" => (Long.ofJson? content).map fun n => .duration ⟨n⟩
  | _ => none

mutual

def ofJson? : Json → Option Value
  | .object [(name, .array items)] =>
    if name = "Set" then (ofJsons? items).map setOf
    else scalarOfJson? name (.array items)
  | .object [(name, .object fields)] =>
    if name = "Record" then (fieldsOfJson? fields).map fun fs => .record (Record.ofList fs)
    else scalarOfJson? name (.object fields)
  | .object [(name, content)] => scalarOfJson? name content
  | _ => none

def ofJsons? : List Json → Option (List Value)
  | [] => some []
  | j :: js => do some ((← ofJson? j) :: (← ofJsons? js))

def fieldsOfJson? : List (String × Json) → Option (List (String × Value))
  | [] => some []
  | f :: fs => do some ((f.1, ← ofJson? f.2) :: (← fieldsOfJson? fs))

end

end Value

namespace Record

def toJson (r : Record) : Json := .object (Value.fieldsToJson r)

def ofJson? : Json → Option Record
  | .object fields => (Value.fieldsOfJson? fields).map ofList
  | _ => none

end Record
end AccessPolicy
