import AccessPolicy.Authorization
import AccessPolicy.Proofs.PolicyOutcome

/-!
Decisions on requests with unknown slots. A decision that is made is final: it
is made again on every request that extends the first one, and the request is
decided in the same way once it has to be. On a request without unknown slots
both ways of deciding give the same answer.
-/

namespace AccessPolicy

theorem Outcome.isSatisfied_iff {o : Outcome} : o.isSatisfied ↔ o = .satisfied := by
  cases o <;> simp [isSatisfied]

namespace PartialOutcome

theorem isSatisfied_iff {o : PartialOutcome} : o.isSatisfied ↔ o = .known .satisfied := by
  cases o <;> simp [isSatisfied, Outcome.isSatisfied_iff]

theorem condition?_eq_some_iff {o : PartialOutcome} {e : Expr} :
    o.condition? = some e ↔ o = .residual e := by
  cases o <;> simp [condition?]

theorem ruledOut_iff {o : PartialOutcome} :
    o.RuledOut ↔ o.isSatisfied = false ∧ o.condition? = none := by
  cases o with
  | known o => cases o <;> simp [RuledOut, isSatisfied, Outcome.isSatisfied, condition?]
  | residual e => simp [RuledOut, condition?]

end PartialOutcome

namespace PolicySet

variable {α : Type} {s : PolicySet} {f : Policy → α} {effect : Effect} {test : α → Bool}

theorem mem_idsWhere {id : PolicyId} :
    id ∈ (s.judge f).idsWhere effect test ↔
      ∃ p ∈ s.policies, p.effect = effect ∧ test (f p) ∧ p.id = id := by
  simp [judge, Judged.idsWhere, and_assoc]

theorem idsWhere_isEmpty_iff :
    ((s.judge f).idsWhere effect test).isEmpty ↔
      ∀ p ∈ s.policies, p.effect = effect → test (f p) = false := by
  simp [judge, Judged.idsWhere, List.filter_eq_nil_iff]

theorem mem_residuals_iff {f : Policy → PartialOutcome} {q : ResidualPolicy} :
    q ∈ (s.judge f).residuals ↔
      ∃ p ∈ s.policies, ∃ e, f p = .residual e ∧ q = ⟨p.id, p.effect, e⟩ := by
  simp only [judge, Judged.residuals, List.mem_filterMap, List.mem_map, Option.map_eq_some_iff,
    PartialOutcome.condition?_eq_some_iff]
  constructor
  · intro h
    obtain ⟨_, ⟨p, hp, hj⟩, e, he, hq⟩ := h
    subst hj
    exact ⟨p, hp, e, he, hq.symm⟩
  · intro h
    obtain ⟨p, hp, e, he, hq⟩ := h
    exact ⟨_, ⟨p, hp, rfl⟩, e, he, hq.symm⟩

theorem any_residuals_eq_false_iff {f : Policy → PartialOutcome} :
    (s.judge f).residuals.any (·.effect = effect) = false ↔
      ∀ p ∈ s.policies, p.effect = effect → (f p).condition? = none := by
  simp only [List.any_eq_false, decide_eq_true_eq, mem_residuals_iff,
    Option.eq_none_iff_forall_ne_some, ne_eq, PartialOutcome.condition?_eq_some_iff]
  constructor
  · intro h p hp he e hf
    exact h _ ⟨p, hp, e, hf, rfl⟩ he
  · intro h q hres he
    obtain ⟨p, hp, e, hf, hq⟩ := hres
    subst hq
    exact h p hp he e hf

theorem idsWhere_judge {β : Type} (g : α → β) (test : β → Bool) :
    (s.judge fun p => g (f p)).idsWhere effect test =
      (s.judge f).idsWhere effect fun a => test (g a) := by
  simp [judge, Judged.idsWhere, List.filter_map, Function.comp_def]

theorem failures_judge {β : Type} (g : α → β) (error? : β → Option EvalError) :
    (s.judge fun p => g (f p)).failures error? = (s.judge f).failures fun a => error? (g a) := by
  simp [judge, Judged.failures, List.filterMap_map]

theorem residuals_judge_known (f : Policy → Outcome) :
    (s.judge fun p => PartialOutcome.known (f p)).residuals = [] := by
  rw [Judged.residuals, List.filterMap_eq_nil_iff]
  intro j hj
  obtain ⟨p, -, rfl⟩ := List.mem_map.mp hj
  rfl

end PolicySet

namespace Decision

variable {permits forbids : List PolicyId} {residuals : List ResidualPolicy}

theorem ofSatisfied_eq_allow_iff :
    ofSatisfied permits forbids = .allow ↔ forbids.isEmpty ∧ permits.isEmpty = false := by
  rw [ofSatisfied]
  cases forbids.isEmpty <;> cases permits.isEmpty <;> decide

theorem ofSatisfied_eq_deny_iff :
    ofSatisfied permits forbids = .deny ↔ forbids.isEmpty = false ∨ permits.isEmpty := by
  rw [ofSatisfied]
  cases forbids.isEmpty <;> cases permits.isEmpty <;> decide

theorem ofPartial?_eq_allow_iff :
    ofPartial? permits forbids residuals = some .allow ↔ forbids.isEmpty ∧
      permits.isEmpty = false ∧ residuals.any (·.effect = .forbid) = false := by
  rw [ofPartial?]
  cases forbids.isEmpty <;> cases permits.isEmpty <;>
    cases residuals.any (·.effect = .forbid) <;> cases residuals.any (·.effect = .permit) <;>
    decide

theorem ofPartial?_eq_deny_iff :
    ofPartial? permits forbids residuals = some .deny ↔ forbids.isEmpty = false ∨
      permits.isEmpty ∧ residuals.any (·.effect = .permit) = false := by
  rw [ofPartial?]
  cases forbids.isEmpty <;> cases permits.isEmpty <;>
    cases residuals.any (·.effect = .forbid) <;> cases residuals.any (·.effect = .permit) <;>
    decide

theorem ofPartial?_nil : ofPartial? permits forbids [] = some (ofSatisfied permits forbids) := by
  rw [ofPartial?, ofSatisfied]
  cases forbids.isEmpty <;> cases permits.isEmpty <;> rfl

end Decision

section

variable {env : Env} {set : PolicySet}

theorem authorize_allow_iff :
    (authorize env set).decision = .allow ↔
      (∀ p ∈ set.policies, p.effect = .forbid → p.outcome env ≠ .satisfied) ∧
        ∃ p ∈ set.policies, p.effect = .permit ∧ p.outcome env = .satisfied := by
  simp only [authorize, Decision.ofSatisfied_eq_allow_iff, PolicySet.idsWhere_isEmpty_iff,
    ← Bool.not_eq_true, Outcome.isSatisfied_iff, ne_eq, not_forall, not_not, exists_prop]

theorem authorize_deny_iff :
    (authorize env set).decision = .deny ↔
      (∃ p ∈ set.policies, p.effect = .forbid ∧ p.outcome env = .satisfied) ∨
        ∀ p ∈ set.policies, p.effect = .permit → p.outcome env ≠ .satisfied := by
  simp only [authorize, Decision.ofSatisfied_eq_deny_iff, PolicySet.idsWhere_isEmpty_iff,
    ← Bool.not_eq_true, Outcome.isSatisfied_iff, ne_eq, not_forall, not_not, exists_prop]

theorem authorizePartial_allow_iff :
    (authorizePartial env set).decision = some .allow ↔
      (∀ p ∈ set.policies, p.effect = .forbid → (p.partialOutcome env).RuledOut) ∧
        ∃ p ∈ set.policies, p.effect = .permit ∧ p.partialOutcome env = .known .satisfied := by
  rw [authorizePartial, Decision.ofPartial?_eq_allow_iff, PolicySet.idsWhere_isEmpty_iff,
    ← Bool.not_eq_true, PolicySet.idsWhere_isEmpty_iff, PolicySet.any_residuals_eq_false_iff]
  simp only [PartialOutcome.ruledOut_iff, ← Bool.not_eq_true, PartialOutcome.isSatisfied_iff,
    not_forall, not_not, exists_prop]
  constructor
  · intro h
    obtain ⟨hforbid, hpermit, hresidual⟩ := h
    exact ⟨fun p hp he => ⟨hforbid p hp he, hresidual p hp he⟩, hpermit⟩
  · intro h
    obtain ⟨hforbid, hpermit⟩ := h
    exact ⟨fun p hp he => (hforbid p hp he).1, hpermit, fun p hp he => (hforbid p hp he).2⟩

theorem authorizePartial_deny_iff :
    (authorizePartial env set).decision = some .deny ↔
      (∃ p ∈ set.policies, p.effect = .forbid ∧ p.partialOutcome env = .known .satisfied) ∨
        ∀ p ∈ set.policies, p.effect = .permit → (p.partialOutcome env).RuledOut := by
  rw [authorizePartial, Decision.ofPartial?_eq_deny_iff, PolicySet.idsWhere_isEmpty_iff,
    ← Bool.not_eq_true, PolicySet.idsWhere_isEmpty_iff, PolicySet.any_residuals_eq_false_iff]
  simp only [PartialOutcome.ruledOut_iff, ← Bool.not_eq_true, PartialOutcome.isSatisfied_iff,
    not_forall, not_not, exists_prop]
  refine or_congr_right ?_
  constructor
  · intro h p hp he
    obtain ⟨hpermit, hresidual⟩ := h
    exact ⟨hpermit p hp he, hresidual p hp he⟩
  · intro h
    exact ⟨fun p hp he => (h p hp he).1, fun p hp he => (h p hp he).2⟩

theorem Policy.outcome_ne_satisfied {p : Policy} (h : (p.partialOutcome env).RuledOut) :
    p.outcome env ≠ .satisfied := by
  intro ho
  rw [partialOutcome_eq_satisfied_iff.mpr ho] at h
  exact h rfl

/-- On one request, a decision that can be made early is the decision. -/
theorem authorize_decision_of_partial {d : Decision}
    (h : (authorizePartial env set).decision = some d) : (authorize env set).decision = d := by
  cases d with
  | allow =>
      obtain ⟨hforbid, p, hp, he, hsat⟩ := authorizePartial_allow_iff.mp h
      rw [authorize_allow_iff]
      refine ⟨fun p hp he => Policy.outcome_ne_satisfied (hforbid p hp he), p, hp, he, ?_⟩
      exact Policy.partialOutcome_eq_satisfied_iff.mp hsat
  | deny =>
      rw [authorize_deny_iff]
      rcases authorizePartial_deny_iff.mp h with ⟨p, hp, he, hsat⟩ | hpermit
      · exact .inl ⟨p, hp, he, Policy.partialOutcome_eq_satisfied_iff.mp hsat⟩
      · exact .inr fun p hp he => Policy.outcome_ne_satisfied (hpermit p hp he)

end

section Extension

variable {r s : Request} (hrs : r.Extends s) (store : Store) (limits : Limits)
include hrs

theorem authorizePartial_decision_persists {set : PolicySet} {d : Decision}
    (h : (authorizePartial ⟨r, store, limits⟩ set).decision = some d) :
    (authorizePartial ⟨s, store, limits⟩ set).decision = some d := by
  cases d with
  | allow =>
      obtain ⟨hforbid, p, hp, he, hsat⟩ := authorizePartial_allow_iff.mp h
      rw [authorizePartial_allow_iff]
      refine ⟨fun p hp he => ?_, p, hp, he, Policy.satisfied_persists hrs store limits hsat⟩
      exact Policy.ruledOut_persists hrs store limits (hforbid p hp he)
  | deny =>
      rw [authorizePartial_deny_iff]
      rcases authorizePartial_deny_iff.mp h with ⟨p, hp, he, hsat⟩ | hpermit
      · exact .inl ⟨p, hp, he, Policy.satisfied_persists hrs store limits hsat⟩
      · exact .inr fun p hp he => Policy.ruledOut_persists hrs store limits (hpermit p hp he)

/-- No way of filling in unknown slots changes a decision that is made. -/
theorem authorizePartial_decision_final {set : PolicySet} {d : Decision}
    (h : (authorizePartial ⟨r, store, limits⟩ set).decision = some d) :
    (authorizePartial ⟨s, store, limits⟩ set).decision = some d ∧
      (authorize ⟨s, store, limits⟩ set).decision = d := by
  have hs := authorizePartial_decision_persists hrs store limits h
  exact ⟨hs, authorize_decision_of_partial hs⟩

end Extension

theorem authorizePartial_decision_final_permit :
    Request.Extends ⟨some ⟨⟨"User"⟩, "alice"⟩, none, none, none⟩
      ⟨some ⟨⟨"User"⟩, "alice"⟩, none, some ⟨⟨"Doc"⟩, "plan"⟩, none⟩ ∧
    (authorize ⟨⟨some ⟨⟨"User"⟩, "alice"⟩, none, some ⟨⟨"Doc"⟩, "plan"⟩, none⟩, .empty, ⟨8⟩⟩
      ⟨[{ id := ⟨"own"⟩, effect := .permit, scope := { principal := .eq ⟨⟨"User"⟩, "alice"⟩ } },
        { id := ⟨"other"⟩, effect := .permit, scope := { resource := .is ⟨"Doc"⟩ } },
        { id := ⟨"robots"⟩, effect := .forbid
          conditions := [⟨.whenTrue, .is (.var .principal) ⟨"Robot"⟩⟩] }],
        by decide⟩).decision = .allow := by
  have hext : Request.Extends ⟨some ⟨⟨"User"⟩, "alice"⟩, none, none, none⟩
      ⟨some ⟨⟨"User"⟩, "alice"⟩, none, some ⟨⟨"Doc"⟩, "plan"⟩, none⟩ := by
    intro var v h
    cases var with
    | principal => exact h
    | action | resource | context => cases h
  exact ⟨hext, (authorizePartial_decision_final hext .empty ⟨8⟩ rfl).2⟩

/-- Where nothing is unknown, both ways of deciding give the same answer. -/
theorem authorizePartial_of_isKnown {env : Env} (h : ∀ var, env.request.isKnown var)
    (set : PolicySet) :
    authorizePartial env set =
      { decision := some (authorize env set).decision
        permits := (authorize env set).permits
        forbids := (authorize env set).forbids
        residuals := []
        errors := (authorize env set).errors } := by
  have hjudge : Policy.partialOutcome env = fun p => .known (p.outcome env) :=
    funext (Policy.partialOutcome_of_isKnown h)
  simp only [authorizePartial, hjudge, PolicySet.idsWhere_judge, PolicySet.failures_judge,
    PolicySet.residuals_judge_known, Decision.ofPartial?_nil]
  rfl

theorem authorizePartial_of_isKnown_errored :
    (∀ var, Request.isKnown
      ⟨some ⟨⟨"User"⟩, "alice"⟩, some ⟨⟨"Action"⟩, "read"⟩, some ⟨⟨"Doc"⟩, "plan"⟩, some []⟩
      var) ∧
    authorizePartial
        ⟨⟨some ⟨⟨"User"⟩, "alice"⟩, some ⟨⟨"Action"⟩, "read"⟩, some ⟨⟨"Doc"⟩, "plan"⟩, some []⟩,
          .empty, ⟨8⟩⟩
        ⟨[{ id := ⟨"own"⟩, effect := .permit, scope := { principal := .eq ⟨⟨"User"⟩, "alice"⟩ } },
          { id := ⟨"odd"⟩, effect := .forbid, conditions := [⟨.whenFalse, .long 1⟩] }],
          by decide⟩ =
      { decision := some .allow
        permits := [⟨"own"⟩]
        forbids := []
        residuals := []
        errors := [⟨⟨"odd"⟩, .typeMismatch [.bool] .long⟩] } := by
  have hknown : ∀ var, Request.isKnown
      ⟨some ⟨⟨"User"⟩, "alice"⟩, some ⟨⟨"Action"⟩, "read"⟩, some ⟨⟨"Doc"⟩, "plan"⟩, some []⟩
      var := by
    intro var
    cases var <;> rfl
  exact ⟨hknown, authorizePartial_of_isKnown hknown _⟩

end AccessPolicy
