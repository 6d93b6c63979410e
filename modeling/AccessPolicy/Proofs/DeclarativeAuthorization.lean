import Mathlib.Data.List.Nodup
import AccessPolicy.Proofs.PartialAuthorization

/-!
What authorization means, said without the order in which anything is done. A
policy is satisfied when its scope is met and all conditions hold, and fails with
the error of the first condition that does not hold. The answer to a request
lists the satisfied policies of each effect and the failed ones, every list in
the order of the set and no policy twice.
-/

namespace AccessPolicy

namespace Expr

theorem evalBool_eq_ok_iff {env : Env} {e : Expr} {b : Bool} :
    e.evalBool env = .ok b ↔ e.eval env = .ok (.bool b) := by
  rw [evalBool]
  cases e.eval env with
  | error x => simp
  | ok v => simp [Value.asBool_eq_ok_iff]

end Expr

namespace Condition

/-- The body has the value that the condition asks for. -/
def Holds (env : Env) (c : Condition) : Prop := c.body.eval env = .ok (.bool c.kind.required)

/-- The body has no Boolean value, for the given reason. -/
inductive FailsWith (env : Env) (c : Condition) : EvalError → Prop where
  | error {x : EvalError} (h : c.body.eval env = .error x) : FailsWith env c x
  | notBoolean {v : Value} (h : c.body.eval env = .ok v) (hv : v.type ≠ .bool) :
      FailsWith env c (.typeMismatch [.bool] v.type)

theorem holds_iff {env : Env} {c : Condition} :
    c.Holds env ↔ c.body.evalBool env = .ok c.kind.required :=
  Expr.evalBool_eq_ok_iff.symm

theorem failsWith_iff {env : Env} {c : Condition} {x : EvalError} :
    c.FailsWith env x ↔ c.body.evalBool env = .error x := by
  rw [Expr.evalBool]
  constructor
  · intro h
    cases h with
    | error h => rw [h]; rfl
    | @notBoolean v h hv =>
        rw [h]
        cases v with
        | bool b => exact absurd rfl hv
        | _ => rfl
  · intro h
    cases he : c.body.eval env with
    | error y => rw [he] at h; cases h; exact .error he
    | ok v =>
        rw [he] at h
        cases v with
        | bool b => cases h
        | _ => cases h; exact .notBoolean he nofun

/-- The first condition of the list that does not hold fails. -/
def FirstFailure (env : Env) (cs : List Condition) (x : EvalError) : Prop :=
  ∃ before c after, cs = before ++ c :: after ∧ (∀ d ∈ before, d.Holds env) ∧ c.FailsWith env x

theorem firstFailure_cons_iff {env : Env} {c : Condition} {cs : List Condition} {x : EvalError} :
    FirstFailure env (c :: cs) x ↔ c.FailsWith env x ∨ c.Holds env ∧ FirstFailure env cs x := by
  constructor
  · intro h
    obtain ⟨before, d, after, hsplit, hbefore, hd⟩ := h
    cases before with
    | nil => cases hsplit; exact .inl hd
    | cons b before =>
        cases hsplit
        obtain ⟨hb, hbefore⟩ := List.forall_mem_cons.mp hbefore
        exact .inr ⟨hb, before, d, after, rfl, hbefore, hd⟩
  · intro h
    rcases h with hc | ⟨hc, before, d, after, rfl, hbefore, hd⟩
    · exact ⟨[], c, cs, rfl, nofun, hc⟩
    · exact ⟨c :: before, d, after, rfl, List.forall_mem_cons.mpr ⟨hc, hbefore⟩, hd⟩

theorem outcome_eq_errored_iff {env : Env} {cs : List Condition} {x : EvalError} :
    outcome env cs = .errored x ↔ FirstFailure env cs x := by
  induction cs with
  | nil => simp [outcome, FirstFailure]
  | cons c cs ih =>
      rw [firstFailure_cons_iff, ← ih, failsWith_iff, holds_iff, outcome]
      cases c.body.evalBool env with
      | error y => simp
      | ok b => by_cases hb : b = c.kind.required <;> simp [hb]

end Condition

namespace Policy

/-- Every slot meets its constraint. -/
def InScope (env : Env) (p : Policy) : Prop :=
  p.scope.principal.admits env.store env.request.principal ∧
    p.scope.action.admits env.store env.request.action ∧
    p.scope.resource.admits env.store env.request.resource

def Satisfied (env : Env) (p : Policy) : Prop :=
  p.InScope env ∧ ∀ c ∈ p.conditions, c.Holds env

def ErrorsWith (env : Env) (p : Policy) (x : EvalError) : Prop :=
  p.InScope env ∧ Condition.FirstFailure env p.conditions x

theorem inScope_iff {env : Env} {p : Policy} :
    p.InScope env ↔ p.scope.admits env.store env.request := by
  simp [InScope, Scope.admits, and_assoc]

theorem satisfied_iff {env : Env} {p : Policy} : p.Satisfied env ↔ p.outcome env = .satisfied := by
  simp only [Satisfied, inScope_iff, Condition.holds_iff, outcome_eq_satisfied_iff]

theorem errorsWith_iff {env : Env} {p : Policy} {x : EvalError} :
    p.ErrorsWith env x ↔ p.outcome env = .errored x := by
  rw [ErrorsWith, inScope_iff, ← Condition.outcome_eq_errored_iff, outcome]
  split <;> simp_all

theorem outcome_eq_notSatisfied_iff {env : Env} {p : Policy} :
    p.outcome env = .notSatisfied ↔ ¬ p.Satisfied env ∧ ∀ x, ¬ p.ErrorsWith env x := by
  simp only [satisfied_iff, errorsWith_iff]
  cases p.outcome env <;> simp

end Policy

theorem Outcome.error?_eq_some_iff {o : Outcome} {x : EvalError} :
    o.error? = some x ↔ o = .errored x := by
  cases o <;> simp [error?]

namespace PolicySet

variable {α : Type} {s : PolicySet} {f : Policy → α}

theorem eq_of_id_eq {p q : Policy} (hp : p ∈ s.policies) (hq : q ∈ s.policies)
    (h : p.id = q.id) : p = q :=
  List.inj_on_of_nodup_map s.ids_nodup hp hq h

theorem mem_failures_iff {error? : α → Option EvalError} {id : PolicyId} {x : EvalError} :
    ⟨id, x⟩ ∈ (s.judge f).failures error? ↔
      ∃ p ∈ s.policies, p.id = id ∧ error? (f p) = some x := by
  simp [judge, Judged.failures, and_comm]

/-- The lists of an answer keep the order of the set. -/
theorem idsWhere_sublist (effect : Effect) (test : α → Bool) :
    ((s.judge f).idsWhere effect test).Sublist s.ids := by
  have hids : s.ids = (s.judge f).map (·.1.id) := by
    rw [judge, List.map_map]
    rfl
  rw [hids]
  exact List.filter_sublist.map _

theorem failures_sublist (error? : α → Option EvalError) :
    (((s.judge f).failures error?).map PolicyFailure.policyId).Sublist s.ids := by
  have hfailed : ((s.judge f).failures error?).map PolicyFailure.policyId =
      (s.policies.filter fun p => (error? (f p)).isSome).map Policy.id := by
    rw [judge, Judged.failures, List.filterMap_map, List.map_filterMap]
    induction s.policies with
    | nil => rfl
    | cons p ps ih => cases h : error? (f p) <;> simp_all
  rw [hfailed]
  exact List.filter_sublist.map _

end PolicySet

namespace Response

/-- The answer says what the policies of the set mean. -/
structure Reports (env : Env) (set : PolicySet) (r : Response) : Prop where
  mem_permits (id : PolicyId) : id ∈ r.permits ↔
    ∃ p ∈ set.policies, p.id = id ∧ p.effect = .permit ∧ p.Satisfied env
  mem_forbids (id : PolicyId) : id ∈ r.forbids ↔
    ∃ p ∈ set.policies, p.id = id ∧ p.effect = .forbid ∧ p.Satisfied env
  mem_errors (id : PolicyId) (x : EvalError) : ⟨id, x⟩ ∈ r.errors ↔
    ∃ p ∈ set.policies, p.id = id ∧ p.ErrorsWith env x
  permits_ordered : r.permits.Sublist set.ids
  forbids_ordered : r.forbids.Sublist set.ids
  errors_ordered : (r.errors.map PolicyFailure.policyId).Sublist set.ids
  nodup : (r.permits ++ r.forbids ++ r.errors.map PolicyFailure.policyId).Nodup
  allow_iff : r.decision = .allow ↔
    (∃ p ∈ set.policies, p.effect = .permit ∧ p.Satisfied env) ∧
      ¬ ∃ p ∈ set.policies, p.effect = .forbid ∧ p.Satisfied env
  reason_allow : r.decision = .allow → r.reason = r.permits
  reason_deny : r.decision = .deny → r.reason = r.forbids

end Response

section

variable (env : Env) (set : PolicySet)

theorem mem_satisfied_iff {effect : Effect} {id : PolicyId} :
    id ∈ (set.judge (Policy.outcome env)).idsWhere effect Outcome.isSatisfied ↔
      ∃ p ∈ set.policies, p.id = id ∧ p.effect = effect ∧ p.Satisfied env := by
  rw [PolicySet.mem_idsWhere]
  simp only [Outcome.isSatisfied_iff, ← Policy.satisfied_iff]
  refine exists_congr fun p => and_congr_right fun _ => ?_
  rw [← and_assoc, and_comm]

theorem mem_authorize_errors_iff {id : PolicyId} {x : EvalError} :
    ⟨id, x⟩ ∈ (authorize env set).errors ↔
      ∃ p ∈ set.policies, p.id = id ∧ p.ErrorsWith env x := by
  simp only [authorize, PolicySet.mem_failures_iff, Outcome.error?_eq_some_iff,
    Policy.errorsWith_iff]

/-- No policy is in two lists of the answer. -/
theorem authorize_nodup :
    ((authorize env set).permits ++ (authorize env set).forbids ++
      (authorize env set).errors.map PolicyFailure.policyId).Nodup := by
  have hpermits := set.ids_nodup.sublist
    (PolicySet.idsWhere_sublist (f := Policy.outcome env) .permit Outcome.isSatisfied)
  have hforbids := set.ids_nodup.sublist
    (PolicySet.idsWhere_sublist (f := Policy.outcome env) .forbid Outcome.isSatisfied)
  have herrors := set.ids_nodup.sublist
    (PolicySet.failures_sublist (f := Policy.outcome env) Outcome.error?)
  have hsatisfied {effect : Effect} {id : PolicyId}
      (h : id ∈ (set.judge (Policy.outcome env)).idsWhere effect Outcome.isSatisfied) :
      id ∉ (authorize env set).errors.map PolicyFailure.policyId := by
    intro herror
    obtain ⟨p, hp, rfl, _, hsat⟩ := (mem_satisfied_iff env set).mp h
    obtain ⟨⟨_, x⟩, hx, hid⟩ := List.mem_map.mp herror
    obtain ⟨q, hq, hqid, hfail⟩ := (mem_authorize_errors_iff env set).mp hx
    rw [PolicySet.eq_of_id_eq hq hp (hqid.trans hid), Policy.errorsWith_iff,
      Policy.satisfied_iff.mp hsat] at hfail
    cases hfail
  refine (List.nodup_append.mpr ⟨hpermits, hforbids, ?_⟩).append herrors ?_
  · rintro id hid _ hid' rfl
    obtain ⟨p, hp, hpid, hpermit, _⟩ := (mem_satisfied_iff env set).mp hid
    obtain ⟨q, hq, hqid, hforbid, _⟩ := (mem_satisfied_iff env set).mp hid'
    rw [PolicySet.eq_of_id_eq hp hq (hpid.trans hqid.symm), hforbid] at hpermit
    cases hpermit
  · intro id hid
    rcases List.mem_append.mp hid with hid | hid
    · exact hsatisfied hid
    · exact hsatisfied hid

/-- Policies mean what their scopes and conditions say, and the answer to a
request reports what the policies mean. -/
theorem authorize_reports :
    (∀ p : Policy, (p.outcome env = .satisfied ↔ p.Satisfied env) ∧
      (∀ x, p.outcome env = .errored x ↔ p.ErrorsWith env x) ∧
      (p.outcome env = .notSatisfied ↔ ¬ p.Satisfied env ∧ ∀ x, ¬ p.ErrorsWith env x)) ∧
    (authorize env set).Reports env set := by
  refine ⟨fun p => ⟨Policy.satisfied_iff.symm, fun x => Policy.errorsWith_iff.symm,
    Policy.outcome_eq_notSatisfied_iff⟩, ?_⟩
  refine
    { mem_permits := fun id => mem_satisfied_iff env set
      mem_forbids := fun id => mem_satisfied_iff env set
      mem_errors := fun id x => mem_authorize_errors_iff env set
      permits_ordered := PolicySet.idsWhere_sublist _ _
      forbids_ordered := PolicySet.idsWhere_sublist _ _
      errors_ordered := PolicySet.failures_sublist _
      nodup := authorize_nodup env set
      allow_iff := ?_
      reason_allow := ?_
      reason_deny := ?_ }
  · rw [authorize_allow_iff, and_comm]
    simp only [Policy.satisfied_iff, not_exists, not_and, ne_eq]
  · intro h
    rw [Response.reason, h]
  · intro h
    rw [Response.reason, h]

end

end AccessPolicy
