import AccessPolicy.Proofs.PartialAuthorization
import AccessPolicy.Proofs.ResidualConditions

/-!
Completion of an answer that left policies residual. Once every slot is known
the conditions of the residual policies are evaluated, and the answer is what
deciding from the start gives.
-/

namespace AccessPolicy

namespace PartialResponse

/-- The satisfied policies of one effect. -/
def satisfied (response : PartialResponse) : Effect → List PolicyId
  | .permit => response.permits
  | .forbid => response.forbids

/-- The policies of one effect that are satisfied once the conditions of the
residual ones are evaluated. -/
def completed (env : Env) (effect : Effect) (response : PartialResponse) : List PolicyId :=
  let residuals := response.residuals.filter fun q =>
    q.effect = effect && q.condition.evalBool env = .ok true
  response.satisfied effect ++ residuals.map ResidualPolicy.policyId

/-- The decision from the policies that are satisfied after completion. -/
def completedDecision (env : Env) (response : PartialResponse) : Decision :=
  .ofSatisfied (response.completed env .permit) (response.completed env .forbid)

theorem mem_completed_iff {env env' : Env} {set : PolicySet} {effect : Effect} {id : PolicyId} :
    id ∈ (authorizePartial env set).completed env' effect ↔
      ∃ p ∈ set.policies, p.effect = effect ∧ (p.partialOutcome env = .known .satisfied ∨
        ∃ d, p.partialOutcome env = .residual d ∧ d.evalBool env' = .ok true) ∧ p.id = id := by
  have hsatisfied : (authorizePartial env set).satisfied effect =
      (set.judge (Policy.partialOutcome env)).idsWhere effect PartialOutcome.isSatisfied := by
    cases effect <;> rfl
  rw [completed, List.mem_append, hsatisfied, PolicySet.mem_idsWhere, List.mem_map]
  simp only [authorizePartial, List.mem_filter, PolicySet.mem_residuals_iff,
    PartialOutcome.isSatisfied_iff, Bool.and_eq_true, decide_eq_true_eq]
  constructor
  · intro h
    rcases h with ⟨p, hp, he, hsat, hid⟩ | ⟨_, ⟨⟨p, hp, d, hres, rfl⟩, he, heval⟩, hid⟩
    · exact ⟨p, hp, he, .inl hsat, hid⟩
    · exact ⟨p, hp, he, .inr ⟨d, hres, heval⟩, hid⟩
  · intro h
    obtain ⟨p, hp, he, h, hid⟩ := h
    rcases h with hsat | ⟨d, hres, heval⟩
    · exact .inl ⟨p, hp, he, hsat, hid⟩
    · exact .inr ⟨_, ⟨⟨p, hp, d, hres, rfl⟩, he, heval⟩, hid⟩

end PartialResponse

theorem Decision.ofSatisfied_congr {permits permits' forbids forbids' : List PolicyId}
    (hp : ∀ id, id ∈ permits ↔ id ∈ permits') (hf : ∀ id, id ∈ forbids ↔ id ∈ forbids') :
    ofSatisfied permits forbids = ofSatisfied permits' forbids' := by
  have hempty {ids ids' : List PolicyId} (h : ∀ id, id ∈ ids ↔ id ∈ ids') :
      ids.isEmpty = ids'.isEmpty := by
    rw [Bool.eq_iff_iff, List.isEmpty_iff, List.isEmpty_iff, List.eq_nil_iff_forall_not_mem,
      List.eq_nil_iff_forall_not_mem]
    exact forall_congr' fun id => not_congr (h id)
  rw [ofSatisfied, ofSatisfied, hempty hp, hempty hf]

section

variable {r s : Request} (hrs : r.Extends s) (hs : ∀ var, s.isKnown var) (store : Store)
  (limits limits' : Limits)
include hrs hs

theorem Policy.satisfied_iff_completed {p : Policy} (hd : p.DistinctFields)
    (hdeep : ∀ d, p.partialOutcome ⟨r, store, limits⟩ = .residual d →
      ¬ (p.outcome ⟨s, store, limits⟩).TooDeep ∧ ¬ TooDeep (d.evalBool ⟨s, store, limits'⟩)) :
    p.outcome ⟨s, store, limits⟩ = .satisfied ↔
      p.partialOutcome ⟨r, store, limits⟩ = .known .satisfied ∨
        ∃ d, p.partialOutcome ⟨r, store, limits⟩ = .residual d ∧
          d.evalBool ⟨s, store, limits'⟩ = .ok true := by
  cases hp : p.partialOutcome ⟨r, store, limits⟩ with
  | residual d =>
      obtain ⟨ho, he⟩ := hdeep d hp
      have hsatisfied : Outcome.ofHolds (d.evalBool ⟨s, store, limits'⟩) = .satisfied ↔
          d.evalBool ⟨s, store, limits'⟩ = .ok true := Outcome.ofHolds_inj _ (.ok true)
      rw [outcome_of_residual hrs store limits hs hd hp ho he]
      simpa using hsatisfied
  | known o =>
      by_cases ho : o = .satisfied
      · subst ho
        have hsat := satisfied_persists hrs store limits hp
        simp [partialOutcome_eq_satisfied_iff.mp hsat]
      · have hruled : (p.partialOutcome ⟨r, store, limits⟩).RuledOut := by rw [hp]; exact ho
        have hne := outcome_ne_satisfied (ruledOut_persists hrs store limits hruled)
        simp [hne, ho]

theorem mem_idsWhere_iff_completed {set : PolicySet}
    (hd : ∀ p ∈ set.policies, p.DistinctFields)
    (hdeep : ∀ p ∈ set.policies, ∀ d, p.partialOutcome ⟨r, store, limits⟩ = .residual d →
      ¬ (p.outcome ⟨s, store, limits⟩).TooDeep ∧ ¬ TooDeep (d.evalBool ⟨s, store, limits'⟩))
    (effect : Effect) (id : PolicyId) :
    id ∈ (set.judge (Policy.outcome ⟨s, store, limits⟩)).idsWhere effect Outcome.isSatisfied ↔
      id ∈ (authorizePartial ⟨r, store, limits⟩ set).completed ⟨s, store, limits'⟩ effect := by
  rw [PolicySet.mem_idsWhere, PartialResponse.mem_completed_iff]
  refine exists_congr fun p => and_congr_right fun hp => and_congr_right fun _ => ?_
  rw [Outcome.isSatisfied_iff,
    p.satisfied_iff_completed hrs hs store limits limits' (hd p hp) (hdeep p hp)]

/-- Completing an answer once every slot is known is deciding directly, for each
policy and for a whole set. -/
theorem authorizePartial_completed_eq :
    (∀ (p : Policy) (d : Expr), p.DistinctFields →
      p.partialOutcome ⟨r, store, limits⟩ = .residual d →
      ¬ (p.outcome ⟨s, store, limits⟩).TooDeep → ¬ TooDeep (d.evalBool ⟨s, store, limits'⟩) →
      (p.outcome ⟨s, store, limits⟩ = .satisfied ↔
        d.evalBool ⟨s, store, limits'⟩ = .ok true) ∧
      (p.outcome ⟨s, store, limits⟩ = .notSatisfied ↔
        d.evalBool ⟨s, store, limits'⟩ = .ok false) ∧
      ∀ x, p.outcome ⟨s, store, limits⟩ = .errored x ↔
        d.evalBool ⟨s, store, limits'⟩ = .error x) ∧
    ∀ set : PolicySet, (∀ p ∈ set.policies, p.DistinctFields) →
      (∀ p ∈ set.policies, ∀ d, p.partialOutcome ⟨r, store, limits⟩ = .residual d →
        ¬ (p.outcome ⟨s, store, limits⟩).TooDeep ∧ ¬ TooDeep (d.evalBool ⟨s, store, limits'⟩)) →
      (∀ id, id ∈ (authorize ⟨s, store, limits⟩ set).permits ↔
        id ∈ (authorizePartial ⟨r, store, limits⟩ set).completed ⟨s, store, limits'⟩ .permit) ∧
      (∀ id, id ∈ (authorize ⟨s, store, limits⟩ set).forbids ↔
        id ∈ (authorizePartial ⟨r, store, limits⟩ set).completed ⟨s, store, limits'⟩ .forbid) ∧
      (authorize ⟨s, store, limits⟩ set).decision =
        (authorizePartial ⟨r, store, limits⟩ set).completedDecision ⟨s, store, limits'⟩ := by
  refine ⟨fun p d hd h hp he => ?_, fun set hd hdeep => ?_⟩
  · rw [p.outcome_of_residual hrs store limits hs hd h hp he]
    exact ⟨Outcome.ofHolds_inj _ (.ok true), Outcome.ofHolds_inj _ (.ok false),
      fun x => Outcome.ofHolds_inj _ (.error x)⟩
  · have hmem := mem_idsWhere_iff_completed hrs hs store limits limits' hd hdeep
    exact ⟨hmem .permit, hmem .forbid, Decision.ofSatisfied_congr (hmem .permit) (hmem .forbid)⟩

end

theorem authorizePartial_completed_eq_unlocked :
    Request.unknown.Extends
      ⟨some ⟨⟨"User"⟩, "alice"⟩, some ⟨⟨"Action"⟩, "read"⟩, some ⟨⟨"Doc"⟩, "plan"⟩, some []⟩ ∧
    Policy.outcome
        ⟨⟨some ⟨⟨"User"⟩, "alice"⟩, some ⟨⟨"Action"⟩, "read"⟩, some ⟨⟨"Doc"⟩, "plan"⟩, some []⟩,
          .empty, ⟨3⟩⟩
        { id := ⟨"own"⟩, effect := .permit, scope := { principal := .is ⟨"User"⟩ }
          conditions := [⟨.whenFalse, .hasAttr (.var .context) "locked"⟩] } = .satisfied ∧
    (authorize
        ⟨⟨some ⟨⟨"User"⟩, "alice"⟩, some ⟨⟨"Action"⟩, "read"⟩, some ⟨⟨"Doc"⟩, "plan"⟩, some []⟩,
          .empty, ⟨3⟩⟩
        ⟨[{ id := ⟨"own"⟩, effect := .permit, scope := { principal := .is ⟨"User"⟩ }
            conditions := [⟨.whenFalse, .hasAttr (.var .context) "locked"⟩] }],
          by decide⟩).decision = .allow := by
  have hext : Request.unknown.Extends
      ⟨some ⟨⟨"User"⟩, "alice"⟩, some ⟨⟨"Action"⟩, "read"⟩, some ⟨⟨"Doc"⟩, "plan"⟩, some []⟩ := by
    intro var v h
    cases var <;> cases h
  have hknown : ∀ var, Request.isKnown
      ⟨some ⟨⟨"User"⟩, "alice"⟩, some ⟨⟨"Action"⟩, "read"⟩, some ⟨⟨"Doc"⟩, "plan"⟩, some []⟩
      var := by
    intro var
    cases var <;> rfl
  have hd : Policy.DistinctFields
      { id := ⟨"own"⟩, effect := .permit, scope := { principal := .is ⟨"User"⟩ }
        conditions := [⟨.whenFalse, .hasAttr (.var .context) "locked"⟩] } := by
    intro c hc
    rw [List.mem_singleton.mp hc]
    exact .of_children nofun (List.forall_mem_singleton.mpr (.of_leaf rfl))
  have hcomplete := authorizePartial_completed_eq hext hknown .empty ⟨3⟩ ⟨9⟩
  refine ⟨hext, ?_, ?_⟩
  · refine (hcomplete.1 _ _ hd rfl ?_ ?_).1.mpr rfl
    · intro h
      obtain ⟨max, h⟩ := h
      cases h
    · exact TooDeep.not_ok true
  · have hset := hcomplete.2 ⟨[_], by decide⟩ (List.forall_mem_singleton.mpr hd)
      (List.forall_mem_singleton.mpr fun d h => ?_)
    · exact hset.2.2
    · cases h
      refine ⟨?_, TooDeep.not_ok true⟩
      intro h
      obtain ⟨max, h⟩ := h
      cases h

end AccessPolicy
