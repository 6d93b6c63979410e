import AccessPolicy.Codec.Value
import AccessPolicy.Entity
import AccessPolicy.Evaluate

/-!
The JSON encoding of what an evaluation is given: requests, entities, limits.
-/

namespace AccessPolicy

namespace Request

/-- All four members are written; an unknown slot is null. -/
def toJson (r : Request) : Json :=
  .object [("principal", .ofOption EntityUid.toJson r.principal),
    ("action", .ofOption EntityUid.toJson r.action),
    ("resource", .ofOption EntityUid.toJson r.resource),
    ("context", .ofOption Record.toJson r.context)]

def ofJson? (j : Json) : Option Request := do
  let fields ← j.structure? ["principal", "action", "resource", "context"]
  let principal ← Json.optional? fields "principal" EntityUid.ofJson?
  let action ← Json.optional? fields "action" EntityUid.ofJson?
  let resource ← Json.optional? fields "resource" EntityUid.ofJson?
  let context ← Json.optional? fields "context" Record.ofJson?
  some { principal, action, resource, context }

end Request

namespace Entity

/-- Attributes and parents may be left out. -/
def ofJson? (j : Json) : Option Entity := do
  let fields ← j.openStructure? ["uid", "attrs", "parents"]
  let uid ← Json.field? fields "uid" EntityUid.ofJson?
  let attrs ← Json.fieldOr? fields "attrs" [] Record.ofJson?
  let parents ← Json.fieldOr? fields "parents" [] (Json.list? EntityUid.ofJson?)
  some { uid, attrs, parents := .ofList parents }

end Entity

namespace Limits

/-- Depths below two to the power of 64. -/
def maxDepthOfJson? : Json → Option Nat := Json.natBelow? 18446744073709551616

def toJson (l : Limits) : Json :=
  .object [("max_depth", .ofNat l.maxDepth)]

def ofJson? (j : Json) : Option Limits := do
  let fields ← j.openStructure? ["max_depth"]
  let maxDepth ← Json.fieldOr? fields "max_depth" 256 maxDepthOfJson?
  some { maxDepth }

end Limits
end AccessPolicy
