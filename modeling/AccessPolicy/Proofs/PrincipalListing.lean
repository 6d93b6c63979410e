import AccessPolicy.Listing
import AccessPolicy.Proofs.PartialDiagnostics

/-!
Listings and the answers to requests. A listing has the policies whose principal
constraint the principal meets. A policy that it leaves out is ruled out before
any condition is looked at, whatever is known of the other slots; so whatever an
answer says about a policy, the policy is in the listing of the principal.
-/

namespace AccessPolicy

/-- The entity meets the constraint. -/
inductive Constraint.Met (store : Store) (uid : EntityUid) : Constraint → Prop where
  | any : Met store uid .any
  | eq : Met store uid (.eq uid)
  | isIn {target : EntityUid} (h : store.isWithin uid target) : Met store uid (.isIn target)
  | inSet {targets : List EntityUid} {target : EntityUid} (ht : target ∈ targets)
      (h : store.isWithin uid target) : Met store uid (.inSet targets)
  | is : Met store uid (.is uid.type)
  | isTypeIn {target : EntityUid} (h : store.isWithin uid target) :
      Met store uid (.isTypeIn uid.type target)

theorem Constraint.admits_some_iff {store : Store} {uid : EntityUid} {c : Constraint} :
    c.admits store (some uid) ↔ c.Met store uid := by
  constructor
  · intro h
    cases c with
    | any => exact .any
    | eq target =>
        cases eq_of_beq h
        exact .eq
    | isIn target => exact .isIn h
    | inSet targets =>
        obtain ⟨target, ht, h⟩ := List.any_eq_true.mp h
        exact .inSet ht h
    | is type =>
        cases eq_of_beq h
        exact .is
    | isTypeIn type target =>
        obtain ⟨htype, hwithin⟩ := Bool.and_eq_true_iff.mp h
        cases eq_of_beq htype
        exact .isTypeIn hwithin
  · intro h
    cases h with
    | any => rfl
    | eq | is => exact beq_self_eq_true _
    | isIn h => exact h
    | inSet ht h => exact List.any_eq_true.mpr ⟨_, ht, h⟩
    | isTypeIn h => exact Bool.and_eq_true_iff.mpr ⟨beq_self_eq_true _, h⟩

namespace Policy

variable {env : Env} {p : Policy} {principal : EntityUid}
  (hr : env.request.principal = some principal)
include hr

theorem met_of_outcome (h : p.outcome env ≠ .notSatisfied) :
    p.scope.principal.Met env.store principal := by
  rw [outcome] at h
  split at h
  · next hscope =>
    have hadmits := (inScope_iff.mpr hscope).1
    rw [hr] at hadmits
    exact Constraint.admits_some_iff.mp hadmits
  · exact absurd rfl h

theorem met_of_partialOutcome (h : p.partialOutcome env ≠ .known .notSatisfied) :
    p.scope.principal.Met env.store principal := by
  rw [← Constraint.admits_some_iff]
  by_contra hc
  have hruled : Scope.conjuncts? env p.scope.constraints = none :=
    Scope.conjuncts?_eq_none_iff.mpr
      ⟨(.principal, p.scope.principal), List.mem_cons_self, principal, hr, by simpa using hc⟩
  rw [partialOutcome, hruled] at h
  exact h rfl

end Policy

/-- The policies that the answer says something about. -/
def Response.reported (r : Response) : List PolicyId :=
  r.permits ++ r.forbids ++ r.errors.map PolicyFailure.policyId

/-- The policies that the answer says something about. -/
def PartialResponse.reported (r : PartialResponse) : List PolicyId :=
  r.permits ++ r.forbids ++ r.residuals.map ResidualPolicy.policyId ++
    r.errors.map PolicyFailure.policyId

section

variable {env : Env} {set : PolicySet} {id : PolicyId}

theorem outcome_of_mem_reported (h : id ∈ (authorize env set).reported) :
    ∃ p ∈ set.policies, p.id = id ∧ p.outcome env ≠ .notSatisfied := by
  have hsatisfied {effect : Effect}
      (h : id ∈ (set.judge (Policy.outcome env)).idsWhere effect Outcome.isSatisfied) :
      ∃ p ∈ set.policies, p.id = id ∧ p.outcome env ≠ .notSatisfied := by
    obtain ⟨p, hp, -, hsat, hid⟩ := PolicySet.mem_idsWhere.mp h
    rw [Outcome.isSatisfied_iff] at hsat
    exact ⟨p, hp, hid, by simp [hsat]⟩
  rw [Response.reported, List.mem_append, List.mem_append] at h
  rcases h with (h | h) | h
  · exact hsatisfied h
  · exact hsatisfied h
  · obtain ⟨⟨_, x⟩, hx, rfl⟩ := List.mem_map.mp h
    obtain ⟨p, hp, hid, hfail⟩ := (mem_authorize_errors_iff env set).mp hx
    exact ⟨p, hp, hid, by simp [Policy.errorsWith_iff.mp hfail]⟩

theorem partialOutcome_of_mem_reported (h : id ∈ (authorizePartial env set).reported) :
    ∃ p ∈ set.policies, p.id = id ∧ p.partialOutcome env ≠ .known .notSatisfied := by
  have hsatisfied {effect : Effect}
      (h : id ∈ (set.judge (Policy.partialOutcome env)).idsWhere effect
        PartialOutcome.isSatisfied) :
      ∃ p ∈ set.policies, p.id = id ∧ p.partialOutcome env ≠ .known .notSatisfied := by
    obtain ⟨p, hp, -, hsat, hid⟩ := PolicySet.mem_idsWhere.mp h
    rw [PartialOutcome.isSatisfied_iff] at hsat
    exact ⟨p, hp, hid, by simp [hsat]⟩
  rw [PartialResponse.reported, List.mem_append, List.mem_append, List.mem_append] at h
  rcases h with ((h | h) | h) | h
  · exact hsatisfied h
  · exact hsatisfied h
  · obtain ⟨p, hp, hid, hopen⟩ := mem_authorizePartial_residuals_iff.mp h
    refine ⟨p, hp, hid, fun hout => ?_⟩
    rw [hout] at hopen
    cases hopen
  · obtain ⟨p, hp, hid, hfail⟩ := mem_authorizePartial_errors_iff.mp h
    refine ⟨p, hp, hid, fun hout => ?_⟩
    rw [hout] at hfail
    cases hfail

end

namespace Listing

/-- The listing has the policies of the set that have the effect and that the
principal meets, in the order of the set. -/
structure Lists (set : PolicySet) (store : Store) (principal : EntityUid)
    (filter : EffectFilter) (l : Listing) : Prop where
  principal_eq : l.principal = principal
  mem_policies (p : Policy) : p ∈ l.entries.map PolicyMatch.policy ↔
    p ∈ set.policies ∧ filter.admits p.effect ∧ p.scope.principal.Met store principal
  ordered : (l.entries.map PolicyMatch.policy).Sublist set.policies

end Listing

namespace PolicySet

variable {set : PolicySet} {store : Store} {principal : EntityUid} {filter : EffectFilter}

theorem listFor_policies :
    (set.listFor store principal filter).entries.map PolicyMatch.policy =
      (set.policies.filter (filter.admits ·.effect)).filter
        (·.scope.principal.admits store (some principal)) := by
  have hmatch (p : Policy) : (match? store principal p).map PolicyMatch.policy =
      Option.guard (·.scope.principal.admits store (some principal)) p := by
    rw [match?, Option.guard]
    split <;> rfl
  rw [listFor, List.map_filterMap, List.filterMap_congr fun p _ => hmatch p]
  exact congrFun List.filterMap_eq_filter _

theorem listFor_lists (set : PolicySet) (store : Store) (principal : EntityUid)
    (filter : EffectFilter) :
    (set.listFor store principal filter).Lists set store principal filter where
  principal_eq := rfl
  mem_policies p := by
    rw [listFor_policies, List.mem_filter, List.mem_filter, Constraint.admits_some_iff, and_assoc]
  ordered := by
    rw [listFor_policies]
    exact List.filter_sublist.trans List.filter_sublist

theorem mem_listFor_ids {p : Policy} (hp : p ∈ set.policies) (he : filter.admits p.effect)
    (hmet : p.scope.principal.Met store principal) :
    p.id ∈ (set.listFor store principal filter).ids := by
  have hmem := ((listFor_lists set store principal filter).mem_policies p).mpr ⟨hp, he, hmet⟩
  obtain ⟨m, hm, rfl⟩ := List.mem_map.mp hmem
  exact List.mem_map_of_mem hm

/-- The listings of a principal are what they are meant to be, and the one of
all effects has every policy that an answer to the principal reports. -/
theorem listFor_covers_answers (set : PolicySet) (store : Store) (principal : EntityUid) :
    (∀ filter, (set.listFor store principal filter).Lists set store principal filter) ∧
    ∀ (r : Request) (limits : Limits), r.principal = some principal →
      (∀ id ∈ (authorize ⟨r, store, limits⟩ set).reported,
        id ∈ (set.listFor store principal .any).ids) ∧
      ∀ id ∈ (authorizePartial ⟨r, store, limits⟩ set).reported,
        id ∈ (set.listFor store principal .any).ids := by
  refine ⟨listFor_lists set store principal, fun r limits hr => ⟨fun id hid => ?_, ?_⟩⟩
  · obtain ⟨p, hp, rfl, hout⟩ := outcome_of_mem_reported hid
    exact mem_listFor_ids hp rfl (Policy.met_of_outcome hr hout)
  · intro id hid
    obtain ⟨p, hp, rfl, hout⟩ := partialOutcome_of_mem_reported hid
    exact mem_listFor_ids hp rfl (Policy.met_of_partialOutcome hr hout)

/-- A policy on the principal is satisfied, one on the unknown resource is left
open, and one on another principal is not reported. -/
theorem listFor_covers_answers_open :
    (authorizePartial ⟨⟨some ⟨⟨"User"⟩, "alice"⟩, none, none, none⟩, .empty, ⟨8⟩⟩
      ⟨[{ id := ⟨"own"⟩, effect := .permit, scope := { principal := .is ⟨"User"⟩ } },
        { id := ⟨"robots"⟩, effect := .forbid, scope := { principal := .is ⟨"Robot"⟩ } },
        { id := ⟨"docs"⟩, effect := .forbid, scope := { resource := .is ⟨"Doc"⟩ } }],
        by decide⟩).reported = [⟨"own"⟩, ⟨"docs"⟩] ∧
    ⟨"docs"⟩ ∈ (listFor
      ⟨[{ id := ⟨"own"⟩, effect := .permit, scope := { principal := .is ⟨"User"⟩ } },
        { id := ⟨"robots"⟩, effect := .forbid, scope := { principal := .is ⟨"Robot"⟩ } },
        { id := ⟨"docs"⟩, effect := .forbid, scope := { resource := .is ⟨"Doc"⟩ } }],
        by decide⟩ .empty ⟨⟨"User"⟩, "alice"⟩ .any).ids := by
  refine ⟨by decide, ?_⟩
  refine ((listFor_covers_answers _ .empty ⟨⟨"User"⟩, "alice"⟩).2
    ⟨some ⟨⟨"User"⟩, "alice"⟩, none, none, none⟩ ⟨8⟩ rfl).2 _ ?_
  decide

end PolicySet
end AccessPolicy
