import AccessPolicy.Expr
import AccessPolicy.PolicyError

/-!
Policies. The scope of a policy constrains the entities of a request; its
conditions are expressions that have to hold or to fail.
-/

namespace AccessPolicy

inductive Effect where
  | permit | forbid
deriving DecidableEq, Repr

namespace Effect

def name : Effect → String
  | .permit => "permit"
  | .forbid => "forbid"

def ofName? (name : String) : Option Effect :=
  [permit, forbid].find? (·.name == name)

end Effect

/-- A constraint on the entity in one slot of a request. -/
inductive Constraint where
  | any
  | eq (uid : EntityUid)
  | isIn (uid : EntityUid)
  | inSet (uids : List EntityUid)
  | is (type : EntityType)
  | isTypeIn (type : EntityType) (uid : EntityUid)
deriving DecidableEq, Repr

namespace Constraint

/-- The constraint as a condition on a variable; there is none if it admits
everything. -/
def toExpr? (var : Var) : Constraint → Option Expr
  | .any => none
  | .eq uid => some (.binary .eq (.var var) (.entity uid))
  | .isIn uid => some (.binary .isIn (.var var) (.entity uid))
  | .inSet uids =>
    some (.binary .isIn (.var var) (.literal (.setOf (uids.map Value.entity))))
  | .is type => some (.is (.var var) type)
  | .isTypeIn type uid => some (.isIn (.var var) type (.entity uid))

end Constraint

structure Scope where
  principal : Constraint := .any
  action : Constraint := .any
  resource : Constraint := .any
deriving DecidableEq, Repr

/-- What a condition asks of its body: to be true or to be false. -/
inductive ConditionKind where
  | whenTrue | whenFalse
deriving DecidableEq, Repr

namespace ConditionKind

def name : ConditionKind → String
  | .whenTrue => "when"
  | .whenFalse => "unless"

def ofName? (name : String) : Option ConditionKind :=
  [whenTrue, whenFalse].find? (·.name == name)

/-- The value that the body has to have. -/
def required : ConditionKind → Bool
  | .whenTrue => true
  | .whenFalse => false

end ConditionKind

structure Condition where
  kind : ConditionKind
  body : Expr

namespace Condition

/-- The expression that is true when a body `e` meets the condition. -/
def clause (c : Condition) (e : Expr) : Expr :=
  if c.kind.required then e else e.not

end Condition

structure Policy where
  id : PolicyId
  effect : Effect
  scope : Scope := {}
  conditions : List Condition := []

namespace Policy

def withPrincipal (p : Policy) (c : Constraint) : Policy :=
  { p with scope := { p.scope with principal := c } }

def withAction (p : Policy) (c : Constraint) : Policy :=
  { p with scope := { p.scope with action := c } }

def withResource (p : Policy) (c : Constraint) : Policy :=
  { p with scope := { p.scope with resource := c } }

/-- Adds a condition after the others. -/
def withCondition (p : Policy) (kind : ConditionKind) (body : Expr) : Policy :=
  { p with conditions := p.conditions ++ [⟨kind, body⟩] }

end Policy
end AccessPolicy
