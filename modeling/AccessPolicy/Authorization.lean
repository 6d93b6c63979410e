import AccessPolicy.Outcome
import AccessPolicy.PolicySet

/-!
Authorization: the outcomes of all policies of a set, combined. A satisfied
forbid overrides every permit, and what nothing permits is denied. Every policy
is looked at, so that the answer lists all that are satisfied and all that
fail, in the order of the set.
-/

namespace AccessPolicy

inductive Decision where
  | allow | deny
deriving DecidableEq, Repr

namespace Decision

def name : Decision → String
  | .allow => "Allow"
  | .deny => "Deny"

def ofName? (name : String) : Option Decision :=
  [allow, deny].find? (·.name == name)

end Decision

/-- A policy with a condition that failed. -/
structure PolicyFailure where
  policyId : PolicyId
  error : EvalError
deriving DecidableEq, Repr

namespace PolicyFailure

def text (f : PolicyFailure) : String :=
  f.policyId.name ++ ": " ++ f.error.message

end PolicyFailure

/-- The answer to a request. -/
structure Response where
  decision : Decision
  permits : List PolicyId
  forbids : List PolicyId
  errors : List PolicyFailure
deriving DecidableEq, Repr

namespace Response

def isAllowed (r : Response) : Bool := r.decision = .allow

/-- The policies that settled the decision. -/
def reason (r : Response) : List PolicyId :=
  match r.decision with
  | .allow => r.permits
  | .deny => r.forbids

def text (r : Response) : String :=
  let reason :=
    if r.reason.isEmpty then "default"
    else Text.joinWith ", " (r.reason.map PolicyId.name)
  let errors :=
    if r.errors.isEmpty then "" else " with " ++ r.errors.length.repr ++ " error(s)"
  r.decision.name ++ "(" ++ reason ++ ")" ++ errors

end Response

/-- A policy that depends on unknown slots, with what it depends on. -/
structure ResidualPolicy where
  policyId : PolicyId
  effect : Effect
  condition : Expr

/-- The answer to a request with unknown slots. There is a decision only if no
residual policy can change it. -/
structure PartialResponse where
  decision : Option Decision
  permits : List PolicyId
  forbids : List PolicyId
  residuals : List ResidualPolicy
  errors : List PolicyFailure

namespace PartialResponse

def isDecided (r : PartialResponse) : Bool := r.decision.isSome

end PartialResponse

/-- Policies with what became of each, in the order of their set. -/
abbrev Judged (α : Type) := List (Policy × α)

namespace PolicySet

/-- Every policy with its result under `judge`. -/
def judge {α : Type} (s : PolicySet) (judge : Policy → α) : Judged α :=
  s.policies.map fun p => (p, judge p)

end PolicySet

namespace Judged

/-- The ids of the policies of one effect whose results pass a test. -/
def idsWhere {α : Type} (judged : Judged α) (effect : Effect) (test : α → Bool) :
    List PolicyId :=
  (judged.filter fun j => j.1.effect = effect && test j.2).map (·.1.id)

/-- The policies that failed, where `error?` tells how. -/
def failures {α : Type} (judged : Judged α) (error? : α → Option EvalError) :
    List PolicyFailure :=
  judged.filterMap fun j => (error? j.2).map (⟨j.1.id, ·⟩)

end Judged

namespace Outcome

def error? : Outcome → Option EvalError
  | .errored x => some x
  | _ => none

end Outcome

namespace PartialOutcome

def isSatisfied : PartialOutcome → Bool
  | .known o => o.isSatisfied
  | .residual _ => false

def error? : PartialOutcome → Option EvalError
  | .known o => o.error?
  | .residual _ => none

def condition? : PartialOutcome → Option Expr
  | .known _ => none
  | .residual e => some e

end PartialOutcome

/-- The decision, given the satisfied policies of each effect. -/
def Decision.ofSatisfied (permits forbids : List PolicyId) : Decision :=
  if forbids.isEmpty && !permits.isEmpty then .allow else .deny

/-- Decides a request. -/
def authorize (env : Env) (s : PolicySet) : Response :=
  let judged := s.judge (Policy.outcome env)
  let permits := judged.idsWhere .permit Outcome.isSatisfied
  let forbids := judged.idsWhere .forbid Outcome.isSatisfied
  { decision := .ofSatisfied permits forbids
    permits
    forbids
    errors := judged.failures Outcome.error? }

/-- The policies that depend on unknown slots. -/
def Judged.residuals (judged : Judged PartialOutcome) : List ResidualPolicy :=
  judged.filterMap fun j => j.2.condition?.map (⟨j.1.id, j.1.effect, ·⟩)

/-- A satisfied forbid denies; a satisfied permit allows once no forbid is
residual; without a permit, satisfied or residual, the request is denied. -/
def Decision.ofPartial? (permits forbids : List PolicyId) (residuals : List ResidualPolicy) :
    Option Decision :=
  if !forbids.isEmpty then some .deny
  else if !permits.isEmpty then
    if residuals.any (·.effect = .forbid) then none else some .allow
  else
    if residuals.any (·.effect = .permit) then none else some .deny

/-- Decides a request with unknown slots as far as the known ones go. -/
def authorizePartial (env : Env) (s : PolicySet) : PartialResponse :=
  let judged := s.judge (Policy.partialOutcome env)
  let permits := judged.idsWhere .permit PartialOutcome.isSatisfied
  let forbids := judged.idsWhere .forbid PartialOutcome.isSatisfied
  let residuals := judged.residuals
  { decision := Decision.ofPartial? permits forbids residuals
    permits
    forbids
    residuals
    errors := judged.failures PartialOutcome.error? }

end AccessPolicy
