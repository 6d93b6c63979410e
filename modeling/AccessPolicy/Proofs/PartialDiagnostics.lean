import AccessPolicy.Proofs.DeclarativeAuthorization

/-!
Failures that an answer with unknown slots does not show. A policy that fails
once more slots are known is reported as failed or left residual before, unless
it is already ruled out: something is left open no later than the condition that
is going to fail, and a condition after it is known not to hold.
-/

namespace AccessPolicy

namespace Condition

/-- The body is known to have the value that the condition does not ask for. -/
def KnownFalse (env : Env) (c : Condition) : Prop :=
  c.body.reduce env = .ok (.known (.bool (!c.kind.required)))

/-- The body depends on unknown slots. -/
def LeftOpen (env : Env) (c : Condition) : Prop := ∃ e, c.body.reduce env = .ok (.residual e)

theorem knownFalse_iff {env : Env} {c : Condition} :
    c.KnownFalse env ↔ c.reduceBody env = .ok (.inl (!c.kind.required)) := by
  rw [reduceBody_eq_inl_iff, Expr.evalBool_eq_ok_iff]
  exact Expr.reduceWithin_eq_known_iff

theorem leftOpen_iff {env : Env} {c : Condition} :
    c.LeftOpen env ↔ ∃ e, c.reduceBody env = .ok (.inr e) :=
  exists_congr fun _ => reduceBody_eq_inr_iff.symm

/-- After a conjunct only a condition that is known not to hold settles the outcome. -/
theorem partialOutcome_eq_notSatisfied_iff {env : Env} {es : List Expr} (hes : es ≠ [])
    {cs : List Condition} :
    partialOutcome env es cs = .known .notSatisfied ↔ ∃ c ∈ cs, c.KnownFalse env := by
  induction cs generalizing es with
  | nil => simp [partialOutcome, hes]
  | cons c cs ih =>
      rw [partialOutcome, List.exists_mem_cons_iff, knownFalse_iff]
      cases c.reduceBody env with
      | error x => simp [hes, ih]
      | ok d =>
          cases d with
          | inr e => simp [ih]
          | inl b => by_cases hb : b = c.kind.required <;> simp [hb, ih hes, Bool.eq_not]

section Extension

variable {r s : Request} (hrs : r.Extends s) (store : Store) (limits : Limits)
include hrs

theorem Holds.reduceBody_of_extends {c : Condition} (h : c.Holds ⟨s, store, limits⟩) :
    c.reduceBody ⟨r, store, limits⟩ = .ok (.inl c.kind.required) ∨
      ∃ e, c.reduceBody ⟨r, store, limits⟩ = .ok (.inr e) := by
  have hs := reduceBody_eq_inl_iff.mpr (holds_iff.mp h)
  have hp := c.reduceBody_persists hrs store limits
  cases hr : c.reduceBody ⟨r, store, limits⟩ with
  | error x =>
      rw [hr, hs] at hp
      obtain ⟨y, hy⟩ := hp
      cases hy
  | ok d =>
      rw [hr, hs] at hp
      cases d with
      | inl b => exact .inl (hp b rfl).symm
      | inr e => exact .inr ⟨e, rfl⟩

theorem FailsWith.reduceBody_of_extends {c : Condition} {x : EvalError}
    (h : c.FailsWith ⟨s, store, limits⟩ x) :
    (∃ y, c.reduceBody ⟨r, store, limits⟩ = .error y) ∨
      ∃ e, c.reduceBody ⟨r, store, limits⟩ = .ok (.inr e) := by
  have hp := c.reduceBody_persists hrs store limits
  cases hr : c.reduceBody ⟨r, store, limits⟩ with
  | error y => exact .inl ⟨y, rfl⟩
  | ok d =>
      cases d with
      | inr e => exact .inr ⟨e, rfl⟩
      | inl b =>
          rw [hr] at hp
          have hs := reduceBody_eq_inl_iff.mp (hp b rfl)
          rw [failsWith_iff.mp h] at hs
          cases hs

/-- The conditions up to the one that fails leave a conjunct behind, or the
failure is met before any. -/
theorem partialOutcome_of_firstFailure {es : List Expr} {before after : List Condition}
    {c : Condition} {x : EvalError} (hbefore : ∀ d ∈ before, d.Holds ⟨s, store, limits⟩)
    (hc : c.FailsWith ⟨s, store, limits⟩ x) :
    partialOutcome ⟨r, store, limits⟩ es (before ++ c :: after) = .known .notSatisfied ↔
      (es ≠ [] ∨ ∃ d ∈ before ++ [c], d.LeftOpen ⟨r, store, limits⟩) ∧
        ∃ d ∈ after, d.KnownFalse ⟨r, store, limits⟩ := by
  induction before generalizing es with
  | nil =>
      rw [List.nil_append, partialOutcome, List.nil_append, List.exists_mem_cons_iff, leftOpen_iff]
      rcases hc.reduceBody_of_extends hrs store limits with ⟨y, hy⟩ | ⟨e, he⟩
      · cases es <;> simp [hy, partialOutcome_eq_notSatisfied_iff]
      · simp [he, partialOutcome_eq_notSatisfied_iff]
  | cons b before ih =>
      obtain ⟨hb, hbefore⟩ := List.forall_mem_cons.mp hbefore
      rw [List.cons_append, partialOutcome, List.cons_append, List.exists_mem_cons_iff,
        leftOpen_iff]
      rcases hb.reduceBody_of_extends hrs store limits with hb | ⟨e, he⟩
      · simp [hb, ih hbefore]
      · simp [he, ih hbefore]

end Extension
end Condition

namespace Scope

/-- Some constraint is on an unknown slot. -/
def LeftOpen (r : Request) (scope : Scope) : Prop :=
  ∃ d ∈ scope.constraints, r.entitySlot d.1 = none ∧ d.2 ≠ .any

theorem leftOpen_iff {r : Request} {scope : Scope} :
    scope.LeftOpen r ↔ openConjuncts r scope.constraints ≠ [] := by
  rw [ne_eq, openConjuncts, List.flatMap_eq_nil_iff, not_forall]
  refine exists_congr fun d => ?_
  rw [Classical.not_imp]
  refine and_congr_right fun _ => ?_
  cases r.entitySlot d.1 with
  | some uid => simp
  | none => simp [Constraint.toExpr?_eq_none_iff]

end Scope

/-- On `r` the policy is ruled out by a condition after the one that fails with
the error on `s`, and something is left open before that condition is done. -/
def Policy.HidesFailure (r s : Request) (store : Store) (limits : Limits) (p : Policy)
    (x : EvalError) : Prop :=
  ∃ before c after, p.conditions = before ++ c :: after ∧
    (∀ d ∈ before, d.Holds ⟨s, store, limits⟩) ∧ c.FailsWith ⟨s, store, limits⟩ x ∧
    (p.scope.LeftOpen r ∨ ∃ d ∈ before ++ [c], d.LeftOpen ⟨r, store, limits⟩) ∧
    ∃ d ∈ after, d.KnownFalse ⟨r, store, limits⟩

section Extension

variable {r s : Request} (hrs : r.Extends s) (store : Store) (limits : Limits)
include hrs

theorem Policy.hidesFailure_iff {p : Policy} {x : EvalError}
    (h : p.ErrorsWith ⟨s, store, limits⟩ x) :
    p.HidesFailure r s store limits x ↔
      p.partialOutcome ⟨r, store, limits⟩ = .known .notSatisfied := by
  obtain ⟨hscope, before, c, after, hsplit, hbefore, hc⟩ := h
  rw [inScope_iff, Scope.admits_iff] at hscope
  -- the scope is met on `s`, so no known slot rules the policy out on `r`
  have hmet : ∀ d ∈ p.scope.constraints, ∀ uid, r.entitySlot d.1 = some uid →
      d.2.admits store (some uid) := by
    intro d hd uid hslot
    rw [← hrs.entitySlot hslot]
    exact hscope d hd
  have hopen : Scope.conjuncts? ⟨r, store, limits⟩ p.scope.constraints =
      some (Scope.openConjuncts r p.scope.constraints) :=
    Scope.conjuncts?_eq_some_iff.mpr ⟨hmet, rfl⟩
  rw [partialOutcome, hopen]
  constructor
  · intro h
    obtain ⟨before, c, after, hsplit, hbefore, hc, hleft, hfalse⟩ := h
    rw [Scope.leftOpen_iff] at hleft
    rw [hsplit]
    exact (Condition.partialOutcome_of_firstFailure hrs store limits hbefore hc).mpr
      ⟨hleft, hfalse⟩
  · intro h
    rw [hsplit] at h
    obtain ⟨hleft, hfalse⟩ :=
      (Condition.partialOutcome_of_firstFailure hrs store limits hbefore hc).mp h
    rw [← Scope.leftOpen_iff] at hleft
    exact ⟨before, c, after, hsplit, hbefore, hc, hleft, hfalse⟩

/-- A policy that fails on `s` is reported as failed or left residual on `r`,
unless it hides the failure. -/
theorem Policy.errored_or_residual_iff_not_hidesFailure {p : Policy} {x : EvalError}
    (h : p.ErrorsWith ⟨s, store, limits⟩ x) :
    ((p.partialOutcome ⟨r, store, limits⟩).error?.isSome ∨
      (p.partialOutcome ⟨r, store, limits⟩).condition?.isSome) ↔
      ¬ p.HidesFailure r s store limits x := by
  rw [hidesFailure_iff hrs store limits h]
  cases hr : p.partialOutcome ⟨r, store, limits⟩ with
  | residual e => simp [PartialOutcome.condition?]
  | known o =>
      cases o with
      | errored y => simp [PartialOutcome.error?, Outcome.error?]
      | notSatisfied => simp [PartialOutcome.error?, PartialOutcome.condition?, Outcome.error?]
      | satisfied =>
          -- known to be satisfied on `r`, the policy would be satisfied on `s`
          have hs := partialOutcome_eq_satisfied_iff.mp (satisfied_persists hrs store limits hr)
          rw [errorsWith_iff.mp h] at hs
          cases hs

end Extension

theorem mem_authorizePartial_errors_iff {env : Env} {set : PolicySet} {id : PolicyId} :
    id ∈ (authorizePartial env set).errors.map PolicyFailure.policyId ↔
      ∃ p ∈ set.policies, p.id = id ∧ (p.partialOutcome env).error?.isSome := by
  simp only [authorizePartial, List.mem_map, Option.isSome_iff_exists]
  constructor
  · intro h
    obtain ⟨⟨_, y⟩, hy, rfl⟩ := h
    obtain ⟨p, hp, hid, hy⟩ := PolicySet.mem_failures_iff.mp hy
    exact ⟨p, hp, hid, y, hy⟩
  · intro h
    obtain ⟨p, hp, hid, y, hy⟩ := h
    exact ⟨⟨id, y⟩, PolicySet.mem_failures_iff.mpr ⟨p, hp, hid, hy⟩, rfl⟩

theorem mem_authorizePartial_residuals_iff {env : Env} {set : PolicySet} {id : PolicyId} :
    id ∈ (authorizePartial env set).residuals.map ResidualPolicy.policyId ↔
      ∃ p ∈ set.policies, p.id = id ∧ (p.partialOutcome env).condition?.isSome := by
  simp only [authorizePartial, List.mem_map, Option.isSome_iff_exists]
  constructor
  · intro h
    obtain ⟨_, hq, rfl⟩ := h
    obtain ⟨p, hp, e, he, rfl⟩ := PolicySet.mem_residuals_iff.mp hq
    exact ⟨p, hp, rfl, e, PartialOutcome.condition?_eq_some_iff.mpr he⟩
  · intro h
    obtain ⟨p, hp, hid, e, he⟩ := h
    rw [PartialOutcome.condition?_eq_some_iff] at he
    exact ⟨⟨p.id, p.effect, e⟩, PolicySet.mem_residuals_iff.mpr ⟨p, hp, e, he, rfl⟩, hid⟩

/-- A failure on `s` is foreseen on `r`, by the errors or by the residuals,
exactly when the policy does not hide it. -/
theorem authorize_errors_foreseen {r s : Request} (hrs : r.Extends s) {set : PolicySet}
    {store : Store} {limits : Limits} {id : PolicyId} {x : EvalError}
    (h : ⟨id, x⟩ ∈ (authorize ⟨s, store, limits⟩ set).errors) :
    (id ∈ (authorizePartial ⟨r, store, limits⟩ set).errors.map PolicyFailure.policyId ∨
      id ∈ (authorizePartial ⟨r, store, limits⟩ set).residuals.map ResidualPolicy.policyId) ↔
      ¬ ∃ p ∈ set.policies, p.id = id ∧ p.HidesFailure r s store limits x := by
  obtain ⟨p, hp, rfl, hfail⟩ := (mem_authorize_errors_iff _ set).mp h
  have honly {q : Policy} (hq : q ∈ set.policies) (hid : q.id = p.id) : q = p :=
    PolicySet.eq_of_id_eq hq hp hid
  rw [mem_authorizePartial_errors_iff, mem_authorizePartial_residuals_iff]
  have hforeseen := Policy.errored_or_residual_iff_not_hidesFailure hrs store limits hfail
  constructor
  · intro h hhidden
    obtain ⟨q, hq, hid, hhides⟩ := hhidden
    cases honly hq hid
    refine hforeseen.mp ?_ hhides
    rcases h with ⟨q, hq, hid, h⟩ | ⟨q, hq, hid, h⟩
    · cases honly hq hid; exact .inl h
    · cases honly hq hid; exact .inr h
  · intro hhidden
    have hshown := hforeseen.mpr fun hhides => hhidden ⟨p, hp, rfl, hhides⟩
    exact hshown.imp (fun h => ⟨p, hp, rfl, h⟩) fun h => ⟨p, hp, rfl, h⟩

/-- A policy whose failing condition is followed by one that is false. -/
theorem authorize_errors_foreseen_hidden :
    Request.unknown.Extends
      ⟨some ⟨⟨"User"⟩, "alice"⟩, some ⟨⟨"Action"⟩, "read"⟩, some ⟨⟨"Doc"⟩, "plan"⟩, some []⟩ ∧
    ⟨⟨"p"⟩, .entityNotFound ⟨⟨"User"⟩, "alice"⟩⟩ ∈ (authorize
        ⟨⟨some ⟨⟨"User"⟩, "alice"⟩, some ⟨⟨"Action"⟩, "read"⟩, some ⟨⟨"Doc"⟩, "plan"⟩, some []⟩,
          .empty, ⟨8⟩⟩
        ⟨[{ id := ⟨"p"⟩, effect := .permit
            conditions := [⟨.whenTrue, .getAttr (.var .principal) "team"⟩,
              ⟨.whenTrue, .bool false⟩] }], by decide⟩).errors ∧
    Policy.HidesFailure .unknown
      ⟨some ⟨⟨"User"⟩, "alice"⟩, some ⟨⟨"Action"⟩, "read"⟩, some ⟨⟨"Doc"⟩, "plan"⟩, some []⟩
      .empty ⟨8⟩
      { id := ⟨"p"⟩, effect := .permit
        conditions := [⟨.whenTrue, .getAttr (.var .principal) "team"⟩, ⟨.whenTrue, .bool false⟩] }
      (.entityNotFound ⟨⟨"User"⟩, "alice"⟩) := by
  have hext := Request.unknown_extends
    ⟨some ⟨⟨"User"⟩, "alice"⟩, some ⟨⟨"Action"⟩, "read"⟩, some ⟨⟨"Doc"⟩, "plan"⟩, some []⟩
  have herror : ⟨⟨"p"⟩, .entityNotFound ⟨⟨"User"⟩, "alice"⟩⟩ ∈ (authorize
      ⟨⟨some ⟨⟨"User"⟩, "alice"⟩, some ⟨⟨"Action"⟩, "read"⟩, some ⟨⟨"Doc"⟩, "plan"⟩, some []⟩,
        .empty, ⟨8⟩⟩
      ⟨[{ id := ⟨"p"⟩, effect := .permit
          conditions := [⟨.whenTrue, .getAttr (.var .principal) "team"⟩,
            ⟨.whenTrue, .bool false⟩] }], by decide⟩).errors := by
    decide
  refine ⟨hext, herror, ?_⟩
  by_contra hshown
  rcases (authorize_errors_foreseen hext herror).mpr (by simpa using hshown) with h | h
  · cases h
  · cases h

/-- Failures that are neither reported nor left residual before they happen. -/
theorem authorize_errors_unforeseen :
    ¬ ∀ (set : PolicySet) (store : Store) (limits : Limits) (r s : Request), r.Extends s →
      (∀ var, s.isKnown var) →
      ∀ q ∈ (authorize ⟨s, store, limits⟩ set).errors,
        q.policyId ∈ (authorizePartial ⟨r, store, limits⟩ set).errors.map PolicyFailure.policyId ∨
        q.policyId ∈
          (authorizePartial ⟨r, store, limits⟩ set).residuals.map ResidualPolicy.policyId := by
  intro h
  have hlost := h
    ⟨[{ id := ⟨"p"⟩, effect := .permit
        conditions := [⟨.whenTrue, .getAttr (.var .principal) "team"⟩,
          ⟨.whenTrue, .bool false⟩] }], by decide⟩
    .empty ⟨8⟩ .unknown
    ⟨some ⟨⟨"User"⟩, "alice"⟩, some ⟨⟨"Action"⟩, "read"⟩, some ⟨⟨"Doc"⟩, "plan"⟩, some []⟩
    (Request.unknown_extends _) (Request.isKnown_of_slots _ _ _ _)
    ⟨⟨"p"⟩, .entityNotFound ⟨⟨"User"⟩, "alice"⟩⟩ (by decide)
  rcases hlost with hlost | hlost <;> cases hlost

end AccessPolicy
