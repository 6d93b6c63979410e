import Mathlib.Data.List.Nodup
import Mathlib.Data.List.Perm.Subperm
import AccessPolicy.Proofs.PartialAuthorization

/-!
What becomes of an answer when the policy set is revised. Only the set of
satisfied policies counts for the decision: their order does not, and policies
that are not satisfied, the failed ones among them, may be left out. One more
forbid can only deny and one more permit can only allow.
-/

namespace AccessPolicy

namespace PolicySet

theorem nodup_policies (s : PolicySet) : s.policies.Nodup :=
  List.Nodup.of_map Policy.id s.ids_nodup

theorem perm_of_add {s t : PolicySet} {p : Policy} (h : s.add p = .ok t) :
    t.policies.Perm (p :: s.policies) := by
  rw [add] at h
  split at h
  · cases h
  · cases h
    exact List.perm_append_singleton p s.policies

section

variable {α : Type} {s t : PolicySet} {f : Policy → α}

theorem judge_perm (h : t.policies.Perm s.policies) : (t.judge f).Perm (s.judge f) :=
  h.map _

theorem idsWhere_perm (h : t.policies.Perm s.policies) (effect : Effect) (test : α → Bool) :
    ((t.judge f).idsWhere effect test).Perm ((s.judge f).idsWhere effect test) :=
  ((judge_perm h).filter _).map _

theorem failures_perm (h : t.policies.Perm s.policies) (error? : α → Option EvalError) :
    ((t.judge f).failures error?).Perm ((s.judge f).failures error?) :=
  (judge_perm h).filterMap _

/-- Policies whose results do not pass the test may be left out. -/
theorem idsWhere_of_sublist {effect : Effect} {test : α → Bool}
    (h : t.policies.Sublist s.policies)
    (hout : ∀ p ∈ s.policies, p ∉ t.policies → test (f p) = false) :
    (t.judge f).idsWhere effect test = (s.judge f).idsWhere effect test := by
  have hkept : t.policies.filter (fun p => p.effect = effect && test (f p)) =
      s.policies.filter fun p => p.effect = effect && test (f p) := by
    apply (h.filter _).eq_of_length_le
    refine (List.Nodup.subperm (s.nodup_policies.filter _) fun p hp => ?_).length_le
    rw [List.mem_filter] at hp ⊢
    obtain ⟨hp, hpass⟩ := hp
    refine ⟨?_, hpass⟩
    by_contra hmem
    rw [hout p hp hmem, Bool.and_false] at hpass
    cases hpass
  simp only [judge, Judged.idsWhere, List.filter_map, Function.comp_def, hkept]

end

end PolicySet

section

variable {env : Env} {s t : PolicySet}

theorem authorize_decision_perm (h : t.policies.Perm s.policies) :
    (authorize env t).decision = (authorize env s).decision := by
  have hpermits := PolicySet.idsWhere_perm (f := Policy.outcome env) h .permit Outcome.isSatisfied
  have hforbids := PolicySet.idsWhere_perm (f := Policy.outcome env) h .forbid Outcome.isSatisfied
  simp only [authorize, Decision.ofSatisfied, hpermits.isEmpty_eq, hforbids.isEmpty_eq]

/-- One more forbid denies what was denied. -/
theorem authorize_deny_of_more {p : Policy} (h : t.policies.Perm (p :: s.policies))
    (hp : p.effect = .forbid) (hs : (authorize env s).decision = .deny) :
    (authorize env t).decision = .deny := by
  rw [authorize_deny_iff] at hs ⊢
  rcases hs with ⟨q, hq, hforbid, hsat⟩ | hpermits
  · exact .inl ⟨q, h.symm.subset (List.mem_cons_of_mem p hq), hforbid, hsat⟩
  · refine .inr fun q hq hpermit => ?_
    rcases List.mem_cons.mp (h.subset hq) with rfl | hq
    · rw [hp] at hpermit
      cases hpermit
    · exact hpermits q hq hpermit

/-- One more permit allows what was allowed. -/
theorem authorize_allow_of_more {p : Policy} (h : t.policies.Perm (p :: s.policies))
    (hp : p.effect = .permit) (hs : (authorize env s).decision = .allow) :
    (authorize env t).decision = .allow := by
  rw [authorize_allow_iff] at hs ⊢
  obtain ⟨hforbids, q, hq, hpermit, hsat⟩ := hs
  refine ⟨fun q hq hforbid => ?_, q, h.symm.subset (List.mem_cons_of_mem p hq), hpermit, hsat⟩
  rcases List.mem_cons.mp (h.subset hq) with rfl | hq
  · rw [hp] at hforbid
    cases hforbid
  · exact hforbids q hq hforbid

/-- Policies that are not satisfied may be left out. -/
theorem authorize_of_sublist (h : t.policies.Sublist s.policies)
    (hout : ∀ p ∈ s.policies, p ∉ t.policies → p.outcome env ≠ .satisfied) :
    (authorize env t).decision = (authorize env s).decision ∧
      (authorize env t).permits = (authorize env s).permits ∧
      (authorize env t).forbids = (authorize env s).forbids := by
  have hids (effect : Effect) :
      (t.judge (Policy.outcome env)).idsWhere effect Outcome.isSatisfied =
        (s.judge (Policy.outcome env)).idsWhere effect Outcome.isSatisfied := by
    apply PolicySet.idsWhere_of_sublist h
    intro p hp hmem
    have hne := hout p hp hmem
    rwa [← Bool.not_eq_true, Outcome.isSatisfied_iff]
  simp only [authorize, hids, and_self]

end

/-- How the answer to a request follows the policy set: reordered, with one more
policy, and without policies that are not satisfied. -/
theorem authorize_of_revision (env : Env) (s t : PolicySet) :
    (t.policies.Perm s.policies →
      (authorize env t).decision = (authorize env s).decision ∧
      (authorize env t).permits.Perm (authorize env s).permits ∧
      (authorize env t).forbids.Perm (authorize env s).forbids ∧
      (authorize env t).errors.Perm (authorize env s).errors) ∧
    (∀ p : Policy, t.policies.Perm (p :: s.policies) →
      (p.effect = .forbid → (authorize env s).decision = .deny →
        (authorize env t).decision = .deny) ∧
      (p.effect = .permit → (authorize env s).decision = .allow →
        (authorize env t).decision = .allow)) ∧
    (t.policies.Sublist s.policies →
      (∀ p ∈ s.policies, p ∉ t.policies → p.outcome env ≠ .satisfied) →
      (authorize env t).decision = (authorize env s).decision ∧
      (authorize env t).permits = (authorize env s).permits ∧
      (authorize env t).forbids = (authorize env s).forbids) := by
  refine ⟨fun h => ?_, fun p h => ?_, authorize_of_sublist⟩
  · exact ⟨authorize_decision_perm h, PolicySet.idsWhere_perm h _ _,
      PolicySet.idsWhere_perm h _ _, PolicySet.failures_perm h _⟩
  · exact ⟨authorize_deny_of_more h, authorize_allow_of_more h⟩

/-- A satisfied permit and a failing one: in both orders, one added to the other
and one left out; and a forbid added to the failing one. -/
theorem authorize_of_revision_failing :
    (authorize ⟨⟨some ⟨⟨"User"⟩, "alice"⟩, none, none, none⟩, .empty, ⟨8⟩⟩
      ⟨[{ id := ⟨"odd"⟩, effect := .permit, conditions := [⟨.whenFalse, .long 1⟩] },
        { id := ⟨"own"⟩, effect := .permit, scope := { principal := .is ⟨"User"⟩ } }],
        by decide⟩).decision =
      (authorize ⟨⟨some ⟨⟨"User"⟩, "alice"⟩, none, none, none⟩, .empty, ⟨8⟩⟩
        ⟨[{ id := ⟨"own"⟩, effect := .permit, scope := { principal := .is ⟨"User"⟩ } },
          { id := ⟨"odd"⟩, effect := .permit, conditions := [⟨.whenFalse, .long 1⟩] }],
          by decide⟩).decision ∧
    (PolicySet.add
        ⟨[{ id := ⟨"own"⟩, effect := .permit, scope := { principal := .is ⟨"User"⟩ } }],
          by decide⟩
        { id := ⟨"odd"⟩, effect := .permit, conditions := [⟨.whenFalse, .long 1⟩] } =
      .ok ⟨[{ id := ⟨"own"⟩, effect := .permit, scope := { principal := .is ⟨"User"⟩ } },
        { id := ⟨"odd"⟩, effect := .permit, conditions := [⟨.whenFalse, .long 1⟩] }],
        by decide⟩ ∧
      (authorize ⟨⟨some ⟨⟨"User"⟩, "alice"⟩, none, none, none⟩, .empty, ⟨8⟩⟩
        ⟨[{ id := ⟨"own"⟩, effect := .permit, scope := { principal := .is ⟨"User"⟩ } },
          { id := ⟨"odd"⟩, effect := .permit, conditions := [⟨.whenFalse, .long 1⟩] }],
          by decide⟩).decision = .allow) ∧
    (PolicySet.add
        ⟨[{ id := ⟨"odd"⟩, effect := .permit, conditions := [⟨.whenFalse, .long 1⟩] }],
          by decide⟩
        { id := ⟨"no"⟩, effect := .forbid } =
      .ok ⟨[{ id := ⟨"odd"⟩, effect := .permit, conditions := [⟨.whenFalse, .long 1⟩] },
        { id := ⟨"no"⟩, effect := .forbid }], by decide⟩ ∧
      (authorize ⟨⟨some ⟨⟨"User"⟩, "alice"⟩, none, none, none⟩, .empty, ⟨8⟩⟩
        ⟨[{ id := ⟨"odd"⟩, effect := .permit, conditions := [⟨.whenFalse, .long 1⟩] },
          { id := ⟨"no"⟩, effect := .forbid }], by decide⟩).decision = .deny) ∧
    (authorize ⟨⟨some ⟨⟨"User"⟩, "alice"⟩, none, none, none⟩, .empty, ⟨8⟩⟩
      ⟨[{ id := ⟨"own"⟩, effect := .permit, scope := { principal := .is ⟨"User"⟩ } }],
        by decide⟩).permits =
      (authorize ⟨⟨some ⟨⟨"User"⟩, "alice"⟩, none, none, none⟩, .empty, ⟨8⟩⟩
        ⟨[{ id := ⟨"own"⟩, effect := .permit, scope := { principal := .is ⟨"User"⟩ } },
          { id := ⟨"odd"⟩, effect := .permit, conditions := [⟨.whenFalse, .long 1⟩] }],
          by decide⟩).permits := by
  refine ⟨?_, ⟨rfl, ?_⟩, ⟨rfl, ?_⟩, ?_⟩
  · exact ((authorize_of_revision _ _ _).1 (.swap _ _ _)).1
  · have hadd : PolicySet.add
        ⟨[{ id := ⟨"own"⟩, effect := .permit, scope := { principal := .is ⟨"User"⟩ } }],
          by decide⟩
        { id := ⟨"odd"⟩, effect := .permit, conditions := [⟨.whenFalse, .long 1⟩] } =
          .ok _ := rfl
    exact ((authorize_of_revision _ _ _).2.1 _ (PolicySet.perm_of_add hadd)).2 rfl rfl
  · have hadd : PolicySet.add
        ⟨[{ id := ⟨"odd"⟩, effect := .permit, conditions := [⟨.whenFalse, .long 1⟩] }],
          by decide⟩
        { id := ⟨"no"⟩, effect := .forbid } = .ok _ := rfl
    exact ((authorize_of_revision _ _ _).2.1 _ (PolicySet.perm_of_add hadd)).1 rfl rfl
  · refine ((authorize_of_revision _ _ _).2.2 (List.sublist_append_left [_] [_]) ?_).2.1
    intro p hp hmem
    rcases List.mem_cons.mp hp with rfl | hp
    · exact absurd List.mem_cons_self hmem
    · rw [List.mem_singleton.mp hp]
      decide

end AccessPolicy
