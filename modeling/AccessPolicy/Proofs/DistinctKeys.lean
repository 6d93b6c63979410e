import Mathlib.Data.List.Induction
import Mathlib.Data.List.Nodup

/-!
Lists that are looked up by keys. Where each key occurs once, a search for it finds
the one member that has it; where some key is repeated, there is a first member
whose key has been seen before.
-/

namespace AccessPolicy

variable {α κ : Type} {key : α → κ} {as : List α}

theorem find?_key_eq_some_iff [DecidableEq κ] (h : (as.map key).Nodup) {k : κ} {a : α} :
    as.find? (key · = k) = some a ↔ a ∈ as ∧ key a = k := by
  constructor
  · intro hfind
    exact ⟨List.mem_of_find?_eq_some hfind, by simpa using List.find?_some hfind⟩
  · intro ha
    obtain ⟨ha, rfl⟩ := ha
    cases hfind : as.find? (key · = key a) with
    | none =>
        have hne := List.find?_eq_none.mp hfind a ha
        simp at hne
    | some b =>
        have hkey : key b = key a := by simpa using List.find?_some hfind
        rw [List.inj_on_of_nodup_map h (List.mem_of_find?_eq_some hfind) ha hkey]

theorem exists_first_repeat [DecidableEq κ] (h : ¬ (as.map key).Nodup) :
    ∃ before a after, as = before ++ a :: after ∧ (before.map key).Nodup ∧
      key a ∈ before.map key := by
  induction as using List.reverseRecOn with
  | nil => exact absurd .nil h
  | append_singleton as a ih =>
      by_cases has : (as.map key).Nodup
      · refine ⟨as, a, [], rfl, has, ?_⟩
        by_contra ha
        rw [List.map_append, List.map_singleton, ← List.concat_eq_append, List.nodup_concat] at h
        exact h ⟨ha, has⟩
      · obtain ⟨before, b, after, rfl, hbefore, hb⟩ := ih has
        exact ⟨before, b, after ++ [a], by rw [List.append_assoc, List.cons_append], hbefore, hb⟩

end AccessPolicy
