import AccessPolicy.Listing
import AccessPolicy.Proofs.ByteOrder

/-!
The actions of a listing. A policy names those that its action constraint compares with,
so one may be named more than once, in a policy or by several. The order is total and
decides between any two uids that differ; so sorting brings the repeats together, and it
is enough to drop what equals its neighbour. A sort that compares bytes does the same.
-/

namespace AccessPolicy

/-- The constraint compares with the uid itself. -/
inductive Constraint.Names (uid : EntityUid) : Constraint → Prop where
  | eq : Names uid (.eq uid)
  | isIn : Names uid (.isIn uid)
  | inSet {uids : List EntityUid} (h : uid ∈ uids) : Names uid (.inSet uids)

theorem Constraint.mem_targets_iff {c : Constraint} {uid : EntityUid} :
    uid ∈ c.targets ↔ c.Names uid := by
  constructor
  · intro h
    cases c with
    | eq target =>
        cases List.mem_singleton.mp h
        exact .eq
    | isIn target =>
        cases List.mem_singleton.mp h
        exact .isIn
    | inSet targets => exact .inSet h
    | any | is type | isTypeIn type target => cases h
  · intro h
    cases h with
    | eq | isIn => exact List.mem_singleton_self uid
    | inSet h => exact h

namespace Listing

variable {l : Listing} {uid : EntityUid}

theorem mem_namedActions_iff :
    uid ∈ l.namedActions ↔ ∃ m ∈ l.entries, m.policy.scope.action.Names uid := by
  simp only [namedActions, List.mem_flatMap, Constraint.mem_targets_iff]

theorem mem_sortedActions_iff :
    uid ∈ l.sortedActions ↔ ∃ m ∈ l.entries, m.policy.scope.action.Names uid := by
  rw [sortedActions, mem_eraseReps, EntityUid.mem_sort, mem_namedActions_iff]

theorem sort_eq_mergeSort_bytes (us : List EntityUid) :
    EntityUid.sort us = us.mergeSort fun u v => !decide (v.BytesBefore u) := by
  simp only [EntityUid.sort, EntityUid.bytesBefore_iff_lt]

/-- The actions strictly increase by type name and then by identifier, so none is there
twice; they are the uids that the action constraint of some policy of the listing names;
and they are what sorting by bytes gives. -/
theorem actions_sorted_complete (l : Listing) :
    l.sortedActions.Pairwise (fun u v =>
      u.type.name < v.type.name ∨ u.type.name = v.type.name ∧ u.id < v.id) ∧
    (∀ uid, uid ∈ l.sortedActions ↔ ∃ m ∈ l.entries, m.policy.scope.action.Names uid) ∧
    l.sortedActions =
      (l.namedActions.mergeSort fun u v => !decide (v.BytesBefore u)).eraseReps :=
  ⟨l.increasing_sortedActions, fun _ => mem_sortedActions_iff,
    congrArg List.eraseReps (sort_eq_mergeSort_bytes l.namedActions)⟩

/-- An action that one policy names twice and another once more. -/
example :
    sortedActions ⟨⟨⟨"User"⟩, "alice"⟩,
      [⟨{ id := ⟨"p0"⟩, effect := .permit
          scope.action :=
            .inSet [⟨⟨"Action"⟩, "view"⟩, ⟨⟨"Action"⟩, "edit"⟩, ⟨⟨"Action"⟩, "view"⟩] },
          .principalEq⟩,
        ⟨{ id := ⟨"p1"⟩, effect := .permit, scope.action := .eq ⟨⟨"Action"⟩, "view"⟩ },
          .principalAny⟩,
        ⟨{ id := ⟨"p2"⟩, effect := .forbid }, .principalAny⟩]⟩ =
      [⟨⟨"Action"⟩, "edit"⟩, ⟨⟨"Action"⟩, "view"⟩] := by
  cbv

end Listing
end AccessPolicy
