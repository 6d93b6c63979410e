import AccessPolicy.EvalError

/-!
Authorization requests. Every slot of a request may be unknown.
-/

namespace AccessPolicy

structure Request where
  principal : Option EntityUid
  action : Option EntityUid
  resource : Option EntityUid
  context : Option Record

namespace Request

/-- A request of which nothing is known. -/
def unknown : Request := ⟨none, none, none, none⟩

instance : Inhabited Request := ⟨unknown⟩

/-- The entity in a slot; the context is no entity. -/
def entitySlot (r : Request) : Var → Option EntityUid
  | .principal => r.principal
  | .action => r.action
  | .resource => r.resource
  | .context => none

/-- The value of a variable, if its slot is known. -/
def get? (r : Request) : Var → Option Value
  | .context => r.context.map Value.record
  | var => (r.entitySlot var).map Value.entity

/-- The value of a variable; an unknown slot is an error. -/
def lookup (r : Request) (var : Var) : Except EvalError Value :=
  match r.get? var with
  | some v => .ok v
  | none => .error (.unboundVariable var)

def isKnown (r : Request) (var : Var) : Bool :=
  (r.get? var).isSome

/-- The text of a slot, which is `?` when it is unknown. -/
def slotText (uid : Option EntityUid) : String :=
  (uid.map EntityUid.text).getD "?"

def text (r : Request) : String :=
  "principal=" ++ slotText r.principal ++ ", action=" ++ slotText r.action ++
    ", resource=" ++ slotText r.resource

/-- Every slot known in `r` has the same value in `s`. -/
def Extends (r s : Request) : Prop :=
  ∀ var v, r.get? var = some v → s.get? var = some v

end Request
end AccessPolicy
