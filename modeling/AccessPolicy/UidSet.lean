import AccessPolicy.EntityUid

/-!
Finite sets of entity uids as strictly increasing lists, so that sets with the
same members are equal. A list becomes strictly increasing by insertion of one uid
after the other, or when it is sorted and then rid of repeated neighbours.
-/

namespace AccessPolicy

section

variable {α : Type} [DecidableEq α]

theorem eraseRepsBy_loop_eq (a : α) (as before : List α) :
    List.eraseRepsBy.loop (· == ·) a as before = before.reverse ++ (a :: as).eraseReps := by
  induction as generalizing a before with
  | nil => exact List.reverse_cons
  | cons b as ih =>
    change _ = before.reverse ++ List.eraseRepsBy.loop (· == ·) a (b :: as) []
    rw [List.eraseRepsBy.loop, List.eraseRepsBy.loop]
    split
    · exact ih a before
    · rw [ih b (a :: before), ih b [a]]
      simp

theorem eraseReps_cons_cons (a b : α) (as : List α) :
    (a :: b :: as).eraseReps =
      if a = b then (a :: as).eraseReps else a :: (b :: as).eraseReps := by
  rw [List.eraseReps, List.eraseRepsBy, List.eraseRepsBy.loop]
  split
  · next h =>
    rw [if_pos (eq_of_beq h)]
    rfl
  · next h =>
    rw [if_neg (ne_of_beq_false h), eraseRepsBy_loop_eq]
    rfl

theorem mem_eraseReps_cons {a x : α} {as : List α} :
    x ∈ (a :: as).eraseReps ↔ x ∈ a :: as := by
  induction as generalizing a with
  | nil => rfl
  | cons b as ih =>
    rw [eraseReps_cons_cons]
    split
    · next h => subst h; simp [ih]
    · rw [List.mem_cons, ih, ← List.mem_cons]

@[simp] theorem mem_eraseReps {x : α} {as : List α} : x ∈ as.eraseReps ↔ x ∈ as := by
  cases as with
  | nil => rfl
  | cons a as => exact mem_eraseReps_cons

end

/-- In a sorted list equal uids are neighbours, so none is left twice. -/
theorem increasing_eraseReps {us : List EntityUid} (h : us.Pairwise fun u v => ¬ v < u) :
    us.eraseReps.Pairwise (· < ·) := by
  cases us with
  | nil => exact .nil
  | cons u us =>
    induction us generalizing u with
    | nil => exact List.pairwise_singleton _ _
    | cons v us ih =>
      obtain ⟨hu, hvus⟩ := List.pairwise_cons.mp h
      rw [eraseReps_cons_cons]
      split
      · next huv => exact ih u (huv ▸ hvus)
      · next hne =>
        have huv : u < v := EntityUid.lt_of_not_lt (hu v List.mem_cons_self) (Ne.symm hne)
        -- what follows is not below v, which is above u
        refine List.pairwise_cons.mpr ⟨fun w hw => ?_, ih v hvus⟩
        rcases List.mem_cons.mp (mem_eraseReps.mp hw) with rfl | hw
        · exact huv
        · exact EntityUid.lt_of_lt_of_not_lt huv (List.rel_of_pairwise_cons hvus hw)

structure UidSet where
  toList : List EntityUid
  increasing : toList.Pairwise (· < ·)
deriving DecidableEq, Repr

namespace UidSet

/-- Puts a uid into an increasing list. -/
def insertSorted (u : EntityUid) : List EntityUid → List EntityUid
  | [] => [u]
  | v :: vs =>
    if u < v then u :: v :: vs
    else if u = v then v :: vs
    else v :: insertSorted u vs

theorem mem_insertSorted {u w : EntityUid} {vs : List EntityUid} :
    w ∈ insertSorted u vs ↔ w = u ∨ w ∈ vs := by
  induction vs with
  | nil => simp [insertSorted]
  | cons v vs ih =>
    rw [insertSorted]
    split
    · simp
    · split
      · next h => subst h; simp
      · simp only [List.mem_cons, ih]
        exact or_left_comm

theorem increasing_insertSorted (u : EntityUid) {vs : List EntityUid}
    (h : vs.Pairwise (· < ·)) : (insertSorted u vs).Pairwise (· < ·) := by
  induction vs with
  | nil => simp [insertSorted]
  | cons v vs ih =>
    obtain ⟨hv, hvs⟩ := List.pairwise_cons.mp h
    rw [insertSorted]
    split
    · next huv =>
      refine List.pairwise_cons.mpr ⟨fun w hw => ?_, h⟩
      rcases List.mem_cons.mp hw with rfl | hw
      · exact huv
      · exact EntityUid.lt_trans huv (hv w hw)
    · split
      · exact h
      · next hnlt hne =>
        refine List.pairwise_cons.mpr ⟨fun w hw => ?_, ih hvs⟩
        rcases mem_insertSorted.mp hw with rfl | hw
        · exact EntityUid.lt_of_not_lt hnlt hne
        · exact hv w hw

instance : Membership EntityUid UidSet := ⟨fun s u => u ∈ s.toList⟩

instance (u : EntityUid) (s : UidSet) : Decidable (u ∈ s) :=
  inferInstanceAs (Decidable (u ∈ s.toList))

instance : EmptyCollection UidSet := ⟨⟨[], .nil⟩⟩

instance : Inhabited UidSet := ⟨∅⟩

def size (s : UidSet) : Nat := s.toList.length

def contains (s : UidSet) (u : EntityUid) : Bool := decide (u ∈ s)

def insert (s : UidSet) (u : EntityUid) : UidSet :=
  ⟨insertSorted u s.toList, increasing_insertSorted u s.increasing⟩

def ofList (us : List EntityUid) : UidSet :=
  us.foldl insert ∅

theorem nodup_toList (s : UidSet) : s.toList.Nodup :=
  s.increasing.imp EntityUid.ne_of_lt

/-- Sets with the same members are equal. -/
theorem ext {s t : UidSet} (h : ∀ u, u ∈ s ↔ u ∈ t) : s = t := by
  have hperm : s.toList.Perm t.toList :=
    (List.perm_ext_iff_of_nodup s.nodup_toList t.nodup_toList).mpr h
  have hlist : s.toList = t.toList :=
    hperm.eq_of_pairwise (fun _ _ _ _ huv hvu => absurd hvu (EntityUid.lt_asymm huv))
      s.increasing t.increasing
  cases s
  cases t
  cases hlist
  rfl

@[simp] theorem not_mem_empty (u : EntityUid) : u ∉ (∅ : UidSet) :=
  List.not_mem_nil

@[simp] theorem mem_insert {s : UidSet} {u w : EntityUid} : w ∈ s.insert u ↔ w = u ∨ w ∈ s :=
  mem_insertSorted

theorem mem_foldl_insert {us : List EntityUid} {s : UidSet} {w : EntityUid} :
    w ∈ us.foldl insert s ↔ w ∈ us ∨ w ∈ s := by
  induction us generalizing s with
  | nil => simp
  | cons u us ih => rw [List.foldl_cons, ih]; simp [or_left_comm, or_assoc]

@[simp] theorem mem_ofList {us : List EntityUid} {w : EntityUid} : w ∈ ofList us ↔ w ∈ us := by
  simp [ofList, mem_foldl_insert]

end UidSet
end AccessPolicy
