import AccessPolicy.Authorization
import AccessPolicy.Codec.Policy
import AccessPolicy.Codec.Request
import AccessPolicy.Listing

/-!
The JSON encoding of what is answered: errors, responses and listings.
-/

namespace AccessPolicy

namespace ValueType

def toJson (t : ValueType) : Json := .string t.name

def ofJson? (j : Json) : Option ValueType := do
  ofName? (← j.unit?)

end ValueType

namespace EvalError

/-- The name of each kind of failure. -/
def kind : EvalError → String
  | .typeMismatch _ _ => "TypeMismatch"
  | .attributeAccess _ _ => "AttributeAccess"
  | .entityNotFound _ => "EntityNotFound"
  | .integerOverflow _ => "IntegerOverflow"
  | .extensionError _ _ => "ExtensionError"
  | .unboundVariable _ => "UnboundVariable"
  | .recursionLimit _ => "RecursionLimit"

/-- What is said about the failure. -/
def content : EvalError → Json
  | .typeMismatch expected actual =>
    .object [("expected", .ofList ValueType.toJson expected), ("actual", actual.toJson)]
  | .attributeAccess attr detail =>
    .object [("attr", .string attr), ("detail", .string detail)]
  | .entityNotFound uid => uid.toJson
  | .integerOverflow operation => .object [("operation", .string operation)]
  | .extensionError function message =>
    .object [("function", .string function), ("message", .string message)]
  | .unboundVariable var => var.toJson
  | .recursionLimit max => .object [("max", .ofNat max)]

def toJson (x : EvalError) : Json := .variant x.kind x.content

def ofContent? (kind : String) (content : Json) : Option EvalError :=
  match kind with
  | "TypeMismatch" => do
    let fields ← content.object?
    some (.typeMismatch (← Json.field? fields "expected" (Json.list? ValueType.ofJson?))
      (← Json.field? fields "actual" ValueType.ofJson?))
  | "AttributeAccess" => do
    let fields ← content.object?
    some (.attributeAccess (← Json.field? fields "attr" Json.string?)
      (← Json.field? fields "detail" Json.string?))
  | "EntityNotFound" => (EntityUid.ofJson? content).map .entityNotFound
  | "IntegerOverflow" => do
    let fields ← content.object?
    some (.integerOverflow (← Json.field? fields "operation" Json.string?))
  | "ExtensionError" => do
    let fields ← content.object?
    some (.extensionError (← Json.field? fields "function" Json.string?)
      (← Json.field? fields "message" Json.string?))
  | "UnboundVariable" => (Var.ofJson? content).map .unboundVariable
  | "RecursionLimit" => do
    let fields ← content.object?
    some (.recursionLimit (← Json.field? fields "max" Limits.maxDepthOfJson?))
  | _ => none

def ofJson? (j : Json) : Option EvalError := do
  let (kind, content) ← j.variant?
  ofContent? kind content

end EvalError

namespace PolicyError

/-- The name of each kind of failure. -/
def kind : PolicyError → String
  | .lock _ => "LockError"
  | .poisonedLock _ => "PoisonedLockError"
  | .duplicatePolicyId _ => "DuplicatePolicyId"
  | .entity _ => "EntityError"
  | .invalidFormat _ => "InvalidFormat"

/-- What is said about the failure. -/
def content : PolicyError → String
  | .lock detail | .poisonedLock detail | .entity detail | .invalidFormat detail => detail
  | .duplicatePolicyId id => id.name

def toJson (x : PolicyError) : Json := .variant x.kind (.string x.content)

def ofContent? (kind content : String) : Option PolicyError :=
  match kind with
  | "LockError" => some (.lock content)
  | "PoisonedLockError" => some (.poisonedLock content)
  | "DuplicatePolicyId" => some (.duplicatePolicyId ⟨content⟩)
  | "EntityError" => some (.entity content)
  | "InvalidFormat" => some (.invalidFormat content)
  | _ => none

def ofJson? (j : Json) : Option PolicyError := do
  let (kind, content) ← j.variant?
  ofContent? kind (← content.string?)

end PolicyError

namespace Decision

def toJson (d : Decision) : Json := .string d.name

def ofJson? (j : Json) : Option Decision := do
  ofName? (← j.unit?)

end Decision

namespace PolicyFailure

def toJson (f : PolicyFailure) : Json :=
  .object [("policy_id", f.policyId.toJson), ("error", f.error.toJson)]

def ofJson? (j : Json) : Option PolicyFailure := do
  let fields ← j.structure? ["policy_id", "error"]
  let policyId ← Json.field? fields "policy_id" PolicyId.ofJson?
  let error ← Json.field? fields "error" EvalError.ofJson?
  some { policyId, error }

end PolicyFailure

namespace Response

def toJson (r : Response) : Json :=
  .object [("decision", r.decision.toJson),
    ("determining_permits", .ofList PolicyId.toJson r.permits),
    ("determining_forbids", .ofList PolicyId.toJson r.forbids),
    ("errors", .ofList PolicyFailure.toJson r.errors)]

def ofJson? (j : Json) : Option Response := do
  let fields ← j.structure? ["decision", "determining_permits", "determining_forbids", "errors"]
  let decision ← Json.field? fields "decision" Decision.ofJson?
  let permits ← Json.field? fields "determining_permits" (Json.list? PolicyId.ofJson?)
  let forbids ← Json.field? fields "determining_forbids" (Json.list? PolicyId.ofJson?)
  let errors ← Json.field? fields "errors" (Json.list? PolicyFailure.ofJson?)
  some { decision, permits, forbids, errors }

end Response

namespace ResidualPolicy

def toJson (r : ResidualPolicy) : Json :=
  .object [("policy_id", r.policyId.toJson), ("effect", r.effect.toJson),
    ("condition", r.condition.toJson)]

def ofJson? (j : Json) : Option ResidualPolicy := do
  let fields ← j.structure? ["policy_id", "effect", "condition"]
  let policyId ← Json.field? fields "policy_id" PolicyId.ofJson?
  let effect ← Json.field? fields "effect" Effect.ofJson?
  let condition ← Json.field? fields "condition" Expr.ofJson?
  some { policyId, effect, condition }

end ResidualPolicy

namespace PartialResponse

def toJson (r : PartialResponse) : Json :=
  .object [("decision", .ofOption Decision.toJson r.decision),
    ("satisfied_permits", .ofList PolicyId.toJson r.permits),
    ("satisfied_forbids", .ofList PolicyId.toJson r.forbids),
    ("residuals", .ofList ResidualPolicy.toJson r.residuals),
    ("errors", .ofList PolicyFailure.toJson r.errors)]

def ofJson? (j : Json) : Option PartialResponse := do
  let fields ← j.structure?
    ["decision", "satisfied_permits", "satisfied_forbids", "residuals", "errors"]
  let decision ← Json.optional? fields "decision" Decision.ofJson?
  let permits ← Json.field? fields "satisfied_permits" (Json.list? PolicyId.ofJson?)
  let forbids ← Json.field? fields "satisfied_forbids" (Json.list? PolicyId.ofJson?)
  let residuals ← Json.field? fields "residuals" (Json.list? ResidualPolicy.ofJson?)
  let errors ← Json.field? fields "errors" (Json.list? PolicyFailure.ofJson?)
  some { decision, permits, forbids, residuals, errors }

end PartialResponse

namespace PartialValue

def toJson : PartialValue → Json
  | .known v => .variant "Value" v.toJson
  | .residual e => .variant "Residual" e.toJson

def ofJson? (j : Json) : Option PartialValue := do
  let (name, content) ← j.variant?
  if name = "Value" then (Value.ofJson? content).map .known
  else if name = "Residual" then (Expr.ofJson? content).map .residual
  else none

end PartialValue

namespace MatchReason

def toJson (r : MatchReason) : Json := .string r.name

def ofJson? (j : Json) : Option MatchReason := do
  ofName? (← j.unit?)

end MatchReason

namespace EffectFilter

def toJson (f : EffectFilter) : Json := .string f.name

def ofJson? (j : Json) : Option EffectFilter := do
  ofName? (← j.unit?)

end EffectFilter

namespace PolicyMatch

def toJson (m : PolicyMatch) : Json :=
  .object [("policy", m.policy.toJson), ("reason", m.reason.toJson)]

def ofJson? (j : Json) : Option PolicyMatch := do
  let fields ← j.structure? ["policy", "reason"]
  let policy ← Json.field? fields "policy" Policy.ofJson?
  let reason ← Json.field? fields "reason" MatchReason.ofJson?
  some { policy, reason }

end PolicyMatch

namespace Listing

def toJson (l : Listing) : Json :=
  .object [("principal", l.principal.toJson),
    ("matches", .ofList PolicyMatch.toJson l.entries)]

def ofJson? (j : Json) : Option Listing := do
  let fields ← j.structure? ["principal", "matches"]
  let principal ← Json.field? fields "principal" EntityUid.ofJson?
  let entries ← Json.field? fields "matches" (Json.list? PolicyMatch.ofJson?)
  some { principal, entries }

end Listing
end AccessPolicy
