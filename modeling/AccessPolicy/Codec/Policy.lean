import AccessPolicy.Codec.Expr
import AccessPolicy.Policy

/-!
The JSON encoding of policies and their parts.
-/

namespace AccessPolicy

namespace PolicyId

def toJson (id : PolicyId) : Json := .string id.name

def ofJson? (j : Json) : Option PolicyId :=
  j.string?.map PolicyId.mk

end PolicyId

namespace Effect

def toJson (e : Effect) : Json := .string e.name

def ofJson? (j : Json) : Option Effect := do
  ofName? (← j.unit?)

end Effect

namespace Constraint

/-- The kind of a constraint is its member `op`. Unlike other alternatives it
may also be an array, of the kind and the fields. -/
def toJson : Constraint → Json
  | .any => .object [("op", .string "All")]
  | .eq uid => .object [("op", .string "=="), ("entity", uid.toJson)]
  | .isIn uid => .object [("op", .string "in"), ("entity", uid.toJson)]
  | .inSet uids => .object [("op", .string "in_set"), ("entities", .ofList EntityUid.toJson uids)]
  | .is type => .object [("op", .string "is"), ("entity_type", type.toJson)]
  | .isTypeIn type uid =>
    .object [("op", .string "is_in"), ("entity_type", type.toJson), ("entity", uid.toJson)]

/-- The fields of each kind, in their order. -/
def kindFields : String → List String
  | "==" | "in" => ["entity"]
  | "in_set" => ["entities"]
  | "is" => ["entity_type"]
  | "is_in" => ["entity_type", "entity"]
  | _ => []

/-- The constraint of a kind with the given members. -/
def ofMembers? (kind : String) (fields : List (String × Json)) : Option Constraint :=
  match kind with
  | "All" => some .any
  | "==" => (Json.field? fields "entity" EntityUid.ofJson?).map .eq
  | "in" => (Json.field? fields "entity" EntityUid.ofJson?).map .isIn
  | "in_set" => (Json.field? fields "entities" (Json.list? EntityUid.ofJson?)).map .inSet
  | "is" => (Json.field? fields "entity_type" EntityType.ofJson?).map .is
  | "is_in" => do
    some (.isTypeIn (← Json.field? fields "entity_type" EntityType.ofJson?)
      (← Json.field? fields "entity" EntityUid.ofJson?))
  | _ => none

def ofJson? : Json → Option Constraint
  | .object fields => do
    let kind ← Json.field? fields "op" Json.string?
    ofMembers? kind fields
  | .array (.string kind :: items) =>
    if items.length = (kindFields kind).length then
      ofMembers? kind ((kindFields kind).zip items)
    else none
  | _ => none

end Constraint

namespace Scope

def toJson (s : Scope) : Json :=
  .object [("principal", s.principal.toJson), ("action", s.action.toJson),
    ("resource", s.resource.toJson)]

def ofJson? (j : Json) : Option Scope := do
  let fields ← j.structure? ["principal", "action", "resource"]
  let principal ← Json.field? fields "principal" Constraint.ofJson?
  let action ← Json.field? fields "action" Constraint.ofJson?
  let resource ← Json.field? fields "resource" Constraint.ofJson?
  some { principal, action, resource }

end Scope

namespace ConditionKind

def toJson (k : ConditionKind) : Json := .string k.name

def ofJson? (j : Json) : Option ConditionKind := do
  ofName? (← j.unit?)

end ConditionKind

namespace Condition

def toJson (c : Condition) : Json :=
  .object [("kind", c.kind.toJson), ("body", c.body.toJson)]

def ofJson? (j : Json) : Option Condition := do
  let fields ← j.structure? ["kind", "body"]
  let kind ← Json.field? fields "kind" ConditionKind.ofJson?
  let body ← Json.field? fields "body" Expr.ofJson?
  some { kind, body }

end Condition

namespace Policy

def toJson (p : Policy) : Json :=
  .object [("id", p.id.toJson), ("effect", p.effect.toJson), ("scope", p.scope.toJson),
    ("conditions", .ofList Condition.toJson p.conditions)]

def ofJson? (j : Json) : Option Policy := do
  let fields ← j.structure? ["id", "effect", "scope", "conditions"]
  let id ← Json.field? fields "id" PolicyId.ofJson?
  let effect ← Json.field? fields "effect" Effect.ofJson?
  let scope ← Json.field? fields "scope" Scope.ofJson?
  let conditions ← Json.field? fields "conditions" (Json.list? Condition.ofJson?)
  some { id, effect, scope, conditions }

end Policy
end AccessPolicy
