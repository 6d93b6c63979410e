import AccessPolicy.PartialEvaluate
import AccessPolicy.Policy

/-!
What becomes of one policy on one request, when every slot is known and when
some may be unknown. The scope is looked at before the conditions, and the
first condition that is not met settles the outcome.
-/

namespace AccessPolicy

namespace Constraint

/-- Does the entity in a slot meet the constraint? An unknown slot meets only
the constraint that admits everything. -/
def admits (store : Store) : Constraint → Option EntityUid → Bool
  | .any, _ => true
  | _, none => false
  | .eq target, some uid => uid == target
  | .isIn target, some uid => store.isWithin uid target
  | .inSet targets, some uid => targets.any (store.isWithin uid)
  | .is type, some uid => uid.type == type
  | .isTypeIn type target, some uid => uid.type == type && store.isWithin uid target

end Constraint

namespace Scope

/-- All three constraints are met. -/
def admits (store : Store) (s : Scope) (r : Request) : Bool :=
  s.principal.admits store r.principal && s.action.admits store r.action &&
    s.resource.admits store r.resource

/-- The constraints with the variables that they are about. -/
def constraints (s : Scope) : List (Var × Constraint) :=
  [(.principal, s.principal), (.action, s.action), (.resource, s.resource)]

end Scope

inductive Outcome where
  | satisfied
  | notSatisfied
  | errored (error : EvalError)
deriving DecidableEq, Repr

namespace Outcome

def isSatisfied : Outcome → Bool
  | .satisfied => true
  | _ => false

end Outcome

/-- The outcome, or a condition under which the policy is satisfied. -/
inductive PartialOutcome where
  | known (outcome : Outcome)
  | residual (condition : Expr)

namespace Condition

/-- The outcome of a policy whose scope is met and whose remaining conditions
are the given ones. -/
def outcome (env : Env) : List Condition → Outcome
  | [] => .satisfied
  | c :: cs =>
    match c.body.evalBool env with
    | .error x => .errored x
    | .ok holds => if holds = c.kind.required then outcome env cs else .notSatisfied

/-- What evaluation with unknown slots says about a condition: whether its body
holds, or the residual of its body. -/
def reduceBody (env : Env) (c : Condition) : Except EvalError (Bool ⊕ Expr) := do
  match ← c.body.reduce env with
  | .known v => return .inl (← v.asBool)
  | .residual e => return .inr e

/-- The outcome of a policy given the conjuncts left of what came before. A
condition that fails after a conjunct is kept as it is, since the conjunct may
rule the policy out first. -/
def partialOutcome (env : Env) (conjuncts : List Expr) : List Condition → PartialOutcome
  | [] => if conjuncts.isEmpty then .known .satisfied else .residual (.conjunction conjuncts)
  | c :: cs =>
    match c.reduceBody env with
    | .ok (.inl holds) =>
      if holds = c.kind.required then partialOutcome env conjuncts cs else .known .notSatisfied
    | .ok (.inr e) => partialOutcome env (conjuncts ++ [c.clause e]) cs
    | .error x =>
      if conjuncts.isEmpty then .known (.errored x)
      else partialOutcome env (conjuncts ++ [c.clause c.body]) cs

end Condition

namespace Scope

/-- The conjuncts for the slots that are unknown, unless a known slot does not
meet its constraint. -/
def conjuncts? (env : Env) : List (Var × Constraint) → Option (List Expr)
  | [] => some []
  | (var, c) :: rest =>
    match env.request.entitySlot var with
    | some uid => if c.admits env.store (some uid) then conjuncts? env rest else none
    | none => (conjuncts? env rest).map ((c.toExpr? var).toList ++ ·)

end Scope

namespace Policy

def outcome (env : Env) (p : Policy) : Outcome :=
  if p.scope.admits env.store env.request then Condition.outcome env p.conditions
  else .notSatisfied

def partialOutcome (env : Env) (p : Policy) : PartialOutcome :=
  match Scope.conjuncts? env p.scope.constraints with
  | none => .known .notSatisfied
  | some conjuncts => Condition.partialOutcome env conjuncts p.conditions

end Policy
end AccessPolicy
