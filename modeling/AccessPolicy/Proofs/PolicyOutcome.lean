import AccessPolicy.Outcome
import AccessPolicy.Proofs.RequestExtension

/-!
What is said of one policy when slots are unknown. On the same request a policy
is known to be satisfied exactly when it is satisfied. When more slots become
known, a satisfied policy stays satisfied and a policy that is ruled out, be it
by a constraint, a condition or a failure, stays ruled out.
-/

namespace AccessPolicy

namespace Constraint

theorem admits_none_iff {store : Store} {c : Constraint} : c.admits store none ↔ c = .any := by
  cases c <;> simp [admits]

theorem toExpr?_eq_none_iff {c : Constraint} {var : Var} : c.toExpr? var = none ↔ c = .any := by
  cases c <;> simp [toExpr?]

end Constraint

namespace Scope

theorem admits_eq (store : Store) (scope : Scope) (r : Request) :
    scope.admits store r =
      scope.constraints.all fun d => d.2.admits store (r.entitySlot d.1) := by
  simp [admits, constraints, Request.entitySlot, Bool.and_assoc]

theorem admits_iff {store : Store} {scope : Scope} {r : Request} :
    scope.admits store r ↔ ∀ d ∈ scope.constraints, d.2.admits store (r.entitySlot d.1) := by
  rw [admits_eq, List.all_eq_true]

theorem entitySlot_of_isKnown {r : Request} (h : ∀ var, r.isKnown var) (scope : Scope) :
    ∀ d ∈ scope.constraints, ∃ uid, r.entitySlot d.1 = some uid := by
  have hp := h .principal
  have ha := h .action
  have hr := h .resource
  simp only [Request.isKnown, Request.get?, Option.isSome_map, Option.isSome_iff_exists] at hp ha hr
  simp [constraints, hp, ha, hr]

/-- The constraints on unknown slots, as expressions. -/
def openConjuncts (r : Request) (ds : List (Var × Constraint)) : List Expr :=
  ds.flatMap fun d => if (r.entitySlot d.1).isSome then [] else (d.2.toExpr? d.1).toList

theorem conjuncts?_eq_some_iff {env : Env} {ds : List (Var × Constraint)} {es : List Expr} :
    conjuncts? env ds = some es ↔
      (∀ d ∈ ds, ∀ uid, env.request.entitySlot d.1 = some uid →
        d.2.admits env.store (some uid)) ∧ openConjuncts env.request ds = es := by
  induction ds generalizing es with
  | nil => simp [conjuncts?, openConjuncts]
  | cons d ds ih =>
      obtain ⟨var, c⟩ := d
      rw [conjuncts?, List.forall_mem_cons, openConjuncts, List.flatMap_cons, ← openConjuncts]
      cases env.request.entitySlot var with
      | some uid =>
          by_cases hc : c.admits env.store (some uid)
          · simp [hc, ih]
          · simp [hc]
      | none =>
          simp only [Option.map_eq_some_iff, ih]
          constructor
          · intro h
            obtain ⟨fs, ⟨h, hfs⟩, hes⟩ := h
            subst hfs
            exact ⟨⟨nofun, h⟩, hes⟩
          · intro h
            obtain ⟨⟨_, h⟩, hes⟩ := h
            exact ⟨_, ⟨h, rfl⟩, hes⟩

theorem conjuncts?_eq_none_iff {env : Env} {ds : List (Var × Constraint)} :
    conjuncts? env ds = none ↔
      ∃ d ∈ ds, ∃ uid, env.request.entitySlot d.1 = some uid ∧
        d.2.admits env.store (some uid) = false := by
  rw [Option.eq_none_iff_forall_ne_some]
  constructor
  · intro h
    by_contra hno
    refine h _ (conjuncts?_eq_some_iff.mpr ⟨fun d hd uid huid => ?_, rfl⟩)
    by_contra hc
    exact hno ⟨d, hd, uid, huid, by simpa using hc⟩
  · intro h es hes
    obtain ⟨d, hd, uid, huid, hc⟩ := h
    have hadmits := (conjuncts?_eq_some_iff.mp hes).1 d hd uid huid
    rw [hc] at hadmits
    cases hadmits

/-- Nothing is left of the scope exactly when it is met. -/
theorem conjuncts?_eq_nil_iff {env : Env} {scope : Scope} :
    conjuncts? env scope.constraints = some [] ↔ scope.admits env.store env.request := by
  rw [conjuncts?_eq_some_iff, admits_iff, openConjuncts, List.flatMap_eq_nil_iff, ← forall_and]
  apply forall_congr'
  intro d
  rw [← imp_and]
  apply imp_congr_right
  intro _
  cases env.request.entitySlot d.1 with
  | some uid => simp
  | none => simp [Constraint.admits_none_iff, Constraint.toExpr?_eq_none_iff]

end Scope

namespace Condition

theorem reduceBody_folds (env : Env) (c : Condition) :
    Folds env.request Sum.getLeft? (c.reduceBody env) (c.body.evalBool env) := by
  refine (c.body.reduceWithin_folds env env.budget).bind_value (fun v => ?_) ?_
  · dsimp only
    cases v.asBool with
    | error x => exact .inl rfl
    | ok b => exact .of_known rfl
  · intro e q hq
    cases hq
    rfl

theorem reduceBody_eq_inl_iff {env : Env} {c : Condition} {b : Bool} :
    c.reduceBody env = .ok (.inl b) ↔ c.body.evalBool env = .ok b :=
  (c.reduceBody_folds env).eq_ok_iff fun p _ => by cases p <;> simp

theorem reduceBody_eq_inr_iff {env : Env} {c : Condition} {e : Expr} :
    c.reduceBody env = .ok (.inr e) ↔ c.body.reduce env = .ok (.residual e) := by
  rw [reduceBody]
  cases c.body.reduce env with
  | error x => simp
  | ok p =>
      cases p with
      | residual d => simp
      | known v =>
          rw [Fallible.ok_bind]
          dsimp only
          cases v.asBool <;> simp

theorem reduceBody_of_isKnown {env : Env} (h : ∀ var, env.request.isKnown var)
    (c : Condition) : c.reduceBody env = .inl <$> c.body.evalBool env :=
  (c.reduceBody_folds env).eq_map h fun p _ => by cases p <;> simp

theorem reduceBody_persists {r s : Request} (hrs : r.Extends s) (store : Store)
    (limits : Limits) (c : Condition) :
    Persists Sum.getLeft? (c.reduceBody ⟨r, store, limits⟩)
      (c.reduceBody ⟨s, store, limits⟩) :=
  (c.body.reduceWithin_persists hrs store limits _).bind_value (fun _ => .refl _)
    fun _ => ⟨_, rfl, rfl⟩

theorem outcome_eq_satisfied_iff {env : Env} {cs : List Condition} :
    outcome env cs = .satisfied ↔ ∀ c ∈ cs, c.body.evalBool env = .ok c.kind.required := by
  induction cs with
  | nil => simp [outcome]
  | cons c cs ih =>
      rw [outcome, List.forall_mem_cons]
      cases c.body.evalBool env with
      | error x => simp
      | ok b => by_cases hb : b = c.kind.required <;> simp [hb, ih]

theorem partialOutcome_eq_satisfied_iff {env : Env} {es : List Expr} {cs : List Condition} :
    partialOutcome env es cs = .known .satisfied ↔
      es = [] ∧ ∀ c ∈ cs, c.reduceBody env = .ok (.inl c.kind.required) := by
  induction cs generalizing es with
  | nil => cases es <;> simp [partialOutcome]
  | cons c cs ih =>
      rw [partialOutcome, List.forall_mem_cons]
      cases c.reduceBody env with
      | error x => cases es <;> simp [ih]
      | ok d =>
          cases d with
          | inr e => simp [ih]
          | inl b => by_cases hb : b = c.kind.required <;> simp [hb, ih]

end Condition

namespace Policy

theorem outcome_eq_satisfied_iff {env : Env} {p : Policy} :
    p.outcome env = .satisfied ↔ p.scope.admits env.store env.request ∧
      ∀ c ∈ p.conditions, c.body.evalBool env = .ok c.kind.required := by
  rw [outcome]
  split <;> simp_all [Condition.outcome_eq_satisfied_iff]

/-- On one request, known to be satisfied and satisfied are the same. -/
theorem partialOutcome_eq_satisfied_iff {env : Env} {p : Policy} :
    p.partialOutcome env = .known .satisfied ↔ p.outcome env = .satisfied := by
  rw [outcome_eq_satisfied_iff, ← Scope.conjuncts?_eq_nil_iff, partialOutcome]
  cases hes : Scope.conjuncts? env p.scope.constraints with
  | none => simp
  | some es =>
      simp [Condition.partialOutcome_eq_satisfied_iff, Condition.reduceBody_eq_inl_iff]

end Policy

section Known

variable {env : Env} (h : ∀ var, env.request.isKnown var)
include h

theorem Scope.openConjuncts_of_isKnown (scope : Scope) :
    openConjuncts env.request scope.constraints = [] := by
  rw [openConjuncts, List.flatMap_eq_nil_iff]
  intro d hd
  obtain ⟨uid, hslot⟩ := scope.entitySlot_of_isKnown h d hd
  rw [hslot]
  rfl

theorem Condition.partialOutcome_of_isKnown (cs : List Condition) :
    partialOutcome env [] cs = .known (outcome env cs) := by
  induction cs with
  | nil => rfl
  | cons c cs ih =>
      rw [partialOutcome, outcome, c.reduceBody_of_isKnown h]
      cases c.body.evalBool env with
      | error x => rfl
      | ok b =>
          by_cases hb : b = c.kind.required
          · simp [hb, ih]
          · simp [hb]

/-- Where nothing is unknown, both outcomes are the same. -/
theorem Policy.partialOutcome_of_isKnown (p : Policy) :
    p.partialOutcome env = .known (p.outcome env) := by
  rw [partialOutcome, outcome]
  cases hes : Scope.conjuncts? env p.scope.constraints with
  | none =>
      have hadmits : ¬ p.scope.admits env.store env.request := by
        rw [← Scope.conjuncts?_eq_nil_iff, hes]
        exact nofun
      rw [if_neg hadmits]
  | some es =>
      have hnil := (Scope.conjuncts?_eq_some_iff.mp hes).2
      rw [Scope.openConjuncts_of_isKnown h] at hnil
      subst hnil
      rw [if_pos (Scope.conjuncts?_eq_nil_iff.mp hes)]
      exact Condition.partialOutcome_of_isKnown h p.conditions

end Known

/-- The policy is not satisfied, whatever the unknown slots are. -/
def PartialOutcome.RuledOut : PartialOutcome → Prop
  | .known o => o ≠ .satisfied
  | .residual _ => False

section Extension

variable {r s : Request} (hrs : r.Extends s) (store : Store) (limits : Limits)
include hrs

/-- The conjuncts before the conditions may change with the request, but where
there were none there are still none. -/
theorem Condition.ruledOut_persists {es es' : List Expr} {cs : List Condition}
    (hes : es = [] → es' = [])
    (h : (partialOutcome ⟨r, store, limits⟩ es cs).RuledOut) :
    (partialOutcome ⟨s, store, limits⟩ es' cs).RuledOut := by
  induction cs generalizing es es' with
  | nil =>
      rw [partialOutcome] at h
      cases es with
      | nil => exact absurd rfl h
      | cons e es => exact h.elim
  | cons c cs ih =>
      have hc := c.reduceBody_persists hrs store limits
      rw [partialOutcome] at h ⊢
      cases hr : c.reduceBody ⟨r, store, limits⟩ with
      | error x =>
          rw [hr] at h hc
          obtain ⟨y, hy⟩ := hc
          rw [hy]
          cases es' with
          | nil => exact nofun
          | cons e' es' =>
              cases es with
              | nil => cases hes rfl
              | cons e es => exact ih (fun hnil => absurd hnil (by simp)) h
      | ok d =>
          rw [hr] at h hc
          cases d with
          | inl b =>
              rw [hc b rfl]
              dsimp only at h ⊢
              split
              · next hb => rw [if_pos hb] at h; exact ih hes h
              · exact nofun
          | inr e =>
              dsimp only at h
              have hrest (fs : List Expr) :
                  (partialOutcome ⟨s, store, limits⟩ fs cs).RuledOut :=
                ih (fun hnil => absurd hnil (by simp)) h
              split
              · split
                · exact hrest _
                · exact nofun
              · exact hrest _
              · split
                · exact nofun
                · exact hrest _

theorem Scope.admits_of_extends {scope : Scope} (h : scope.admits store r) :
    scope.admits store s := by
  rw [admits_iff] at h ⊢
  intro d hd
  have hr := h d hd
  cases hslot : r.entitySlot d.1 with
  | some uid => rwa [hrs.entitySlot hslot, ← hslot]
  | none =>
      rw [hslot, Constraint.admits_none_iff] at hr
      rw [hr]
      rfl

namespace Policy

theorem satisfied_persists {p : Policy}
    (h : p.partialOutcome ⟨r, store, limits⟩ = .known .satisfied) :
    p.partialOutcome ⟨s, store, limits⟩ = .known .satisfied := by
  rw [partialOutcome_eq_satisfied_iff, outcome_eq_satisfied_iff] at h ⊢
  refine ⟨Scope.admits_of_extends hrs store h.1, fun c hc => ?_⟩
  rw [← Condition.reduceBody_eq_inl_iff]
  have hr := Condition.reduceBody_eq_inl_iff.mpr (h.2 c hc)
  have hp := c.reduceBody_persists hrs store limits
  rw [hr] at hp
  exact hp _ rfl

theorem ruledOut_persists {p : Policy}
    (h : (p.partialOutcome ⟨r, store, limits⟩).RuledOut) :
    (p.partialOutcome ⟨s, store, limits⟩).RuledOut := by
  rw [partialOutcome] at h ⊢
  cases hes' : Scope.conjuncts? ⟨s, store, limits⟩ p.scope.constraints with
  | none => exact nofun
  | some es' =>
      cases hes : Scope.conjuncts? ⟨r, store, limits⟩ p.scope.constraints with
      | none =>
          obtain ⟨d, hd, uid, hslot, hc⟩ := Scope.conjuncts?_eq_none_iff.mp hes
          have hnone : Scope.conjuncts? ⟨s, store, limits⟩ p.scope.constraints = none :=
            Scope.conjuncts?_eq_none_iff.mpr ⟨d, hd, uid, hrs.entitySlot hslot, hc⟩
          rw [hes'] at hnone
          cases hnone
      | some es =>
          rw [hes] at h
          refine Condition.ruledOut_persists hrs store limits (fun hnil => ?_) h
          subst hnil
          have hs := Scope.admits_of_extends hrs store (Scope.conjuncts?_eq_nil_iff.mp hes)
          have hnil : Scope.conjuncts? ⟨s, store, limits⟩ p.scope.constraints = some [] :=
            Scope.conjuncts?_eq_nil_iff.mpr hs
          rw [hes'] at hnil
          exact Option.some.inj hnil

end Policy
end Extension
end AccessPolicy
