import AccessPolicy.Proofs.ValueEquality

/-!
Values that are equal and whose sets have no equal members. On such values
equality is symmetric, and whatever is asked of a set has one answer for all
sets that equal it: the order of the members is not seen.
-/

namespace AccessPolicy

theorem exists_of_forall₂ {α β : Type} {rel : α → β → Prop} {as : List α} {bs : List β}
    (h : List.Forall₂ rel as bs) : ∀ a ∈ as, ∃ b ∈ bs, rel a b := by
  induction h with
  | nil => exact nofun
  | @cons a b as bs hab _ ih =>
      refine List.forall_mem_cons.mpr ⟨⟨b, List.mem_cons_self, hab⟩, fun a' ha' => ?_⟩
      obtain ⟨b', hb', hab'⟩ := ih a' ha'
      exact ⟨b', List.mem_cons_of_mem b hb', hab'⟩

namespace Value

/-- Equal values without equal members in their sets. -/
structure Alike (v w : Value) : Prop where
  equal : v == w
  left : v.SetsDistinct
  right : w.SetsDistinct

/-- Every value of each list is alike to a value of the other. -/
structure SameMembers (xs ys : List Value) : Prop where
  forth : ∀ x ∈ xs, ∃ y ∈ ys, x.Alike y
  back : ∀ y ∈ ys, ∃ x ∈ xs, y.Alike x

namespace Alike

variable {v w : Value}

theorem refl (h : v.SetsDistinct) : v.Alike v := ⟨beq_refl v, h, h⟩

theorem symm (h : v.Alike w) : w.Alike v := ⟨beq_symm h.left h.equal, h.right, h.left⟩

theorem of_isScalar (h : v.isScalar) : v.Alike v := refl (.of_isScalar h)

theorem bool {a b : Bool} (h : a = b) : (Value.bool a).Alike (.bool b) :=
  h ▸ of_isScalar rfl

theorem eq_of_isScalar (h : v.Alike w) (hv : v.isScalar) : w = v := by
  cases beq_iff_equal.mp h.equal with
  | scalar _ => rfl
  | set | record => cases hv

/-- What does not look into sets and records does not tell alike values apart. -/
theorem apply_eq {β : Type} {f : Value → β} (h : v.Alike w)
    (hset : ∀ xs ys, f (.set xs) = f (.set ys))
    (hrecord : ∀ fs gs, f (.record fs) = f (.record gs)) : f v = f w := by
  cases beq_iff_equal.mp h.equal with
  | scalar _ => rfl
  | set => exact hset _ _
  | record => exact hrecord _ _

theorem members {xs ys : List Value} (h : (Value.set xs).Alike (.set ys)) : SameMembers xs ys := by
  have half {xs ys : List Value} (h : (Value.set xs).Alike (.set ys)) :
      ∀ x ∈ xs, ∃ y ∈ ys, x.Alike y := by
    intro x hx
    obtain ⟨y, hy, hxy⟩ := (set_beq_set_iff.mp h.equal).2 x hx
    exact ⟨y, hy, hxy, h.left.part hx, h.right.part hy⟩
  exact ⟨half h, half h.symm⟩

theorem beq_congr {v' w' : Value} (hv : v.Alike v') (hw : w.Alike w') :
    (v == w) = (v' == w') := by
  rw [Bool.eq_iff_iff]
  constructor
  · intro h
    exact beq_trans (beq_trans hv.symm.equal h) hw.equal
  · intro h
    exact beq_trans (beq_trans hv.equal h) hw.symm.equal

end Alike

theorem meets_iff {xs ys : List Value} : meets xs ys ↔ ∃ x ∈ xs, contains ys x := by
  simp [meets]

namespace SameMembers

variable {xs xs' ys ys' : List Value}

theorem symm (h : SameMembers xs ys) : SameMembers ys xs := ⟨h.back, h.forth⟩

theorem of_forall₂ (h : List.Forall₂ Alike xs ys) : SameMembers xs ys :=
  ⟨exists_of_forall₂ h, exists_of_forall₂ (List.Forall₂.flip (h.imp fun _ _ => Alike.symm))⟩

theorem mem_of_isScalar (h : SameMembers xs ys) {v : Value} (hv : v.isScalar) (hmem : v ∈ xs) :
    v ∈ ys := by
  obtain ⟨y, hy, hvy⟩ := h.forth v hmem
  rwa [hvy.eq_of_isScalar hv] at hy

theorem isEmpty_eq (h : SameMembers xs ys) : xs.isEmpty = ys.isEmpty := by
  cases xs with
  | nil =>
      cases ys with
      | nil => rfl
      | cons y ys =>
          obtain ⟨x, hx, _⟩ := h.back y List.mem_cons_self
          cases hx
  | cons x xs =>
      cases ys with
      | nil =>
          obtain ⟨y, hy, _⟩ := h.forth x List.mem_cons_self
          cases hy
      | cons y ys => rfl

theorem contains_of (h : SameMembers xs ys) {v w : Value} (hv : v.Alike w)
    (hc : contains xs v) : contains ys w := by
  rw [contains_iff] at hc ⊢
  obtain ⟨x, hx, hvx⟩ := hc
  obtain ⟨y, hy, hxy⟩ := h.forth x hx
  exact ⟨y, hy, beq_trans (beq_trans hv.symm.equal hvx) hxy.equal⟩

theorem contains_eq (h : SameMembers xs ys) {v w : Value} (hv : v.Alike w) :
    contains xs v = contains ys w :=
  Bool.eq_iff_iff.mpr ⟨h.contains_of hv, h.symm.contains_of hv.symm⟩

theorem allIn_of (hx : SameMembers xs xs') (hy : SameMembers ys ys') (h : allIn xs ys) :
    allIn xs' ys' := by
  rw [allIn_iff] at h ⊢
  intro x' hx'
  obtain ⟨x, hx, hxx'⟩ := hx.back x' hx'
  exact hy.contains_of hxx'.symm (h x hx)

theorem allIn_eq (hx : SameMembers xs xs') (hy : SameMembers ys ys') :
    allIn xs ys = allIn xs' ys' :=
  Bool.eq_iff_iff.mpr ⟨allIn_of hx hy, allIn_of hx.symm hy.symm⟩

theorem meets_of (hx : SameMembers xs xs') (hy : SameMembers ys ys') (h : meets xs ys) :
    meets xs' ys' := by
  rw [meets_iff] at h ⊢
  obtain ⟨x, hxs, hc⟩ := h
  obtain ⟨x', hx', hxx'⟩ := hx.forth x hxs
  exact ⟨x', hx', hy.contains_of hxx' hc⟩

theorem meets_eq (hx : SameMembers xs xs') (hy : SameMembers ys ys') :
    meets xs ys = meets xs' ys' :=
  Bool.eq_iff_iff.mpr ⟨meets_of hx hy, meets_of hx.symm hy.symm⟩

end SameMembers

/-- Values are kept at the same places of lists of alike values. -/
theorem distinct_alike {vs ws : List Value} (h : List.Forall₂ Alike vs ws) :
    List.Forall₂ Alike (distinct vs) (distinct ws) := by
  refine List.rel_foldl (fun kept kept' hkept v w hv => ?_) .nil h
  rw [(SameMembers.of_forall₂ hkept).contains_eq hv]
  split
  · exact hkept
  · exact List.rel_append hkept (.cons hv .nil)

theorem SetsDistinct.append {kept : List Value} {v : Value} (h : (Value.set kept).SetsDistinct)
    (hv : v.SetsDistinct) (hc : ¬ contains kept v) :
    (Value.set (kept ++ [v])).SetsDistinct := by
  have hne : (kept ++ [v]).Pairwise fun x y => (x == y) = false := by
    refine List.pairwise_append.mpr ⟨h.members, List.pairwise_singleton _ v, fun x hx w hw => ?_⟩
    rw [List.mem_singleton.mp hw, ← Bool.not_eq_true]
    exact fun hxv => hc (contains_iff.mpr ⟨x, hx, beq_symm (h.part hx) hxv⟩)
  refine .of_parts (fun xs hxs => by cases hxs; exact hne) fun x hx => ?_
  rcases List.mem_append.mp hx with hx | hx
  · exact h.part hx
  · exact List.mem_singleton.mp hx ▸ hv

theorem setOf_setsDistinct {vs : List Value} (h : ∀ v ∈ vs, v.SetsDistinct) :
    (setOf vs).SetsDistinct := by
  rw [setOf]
  induction vs using List.reverseRecOn with
  | nil =>
      refine .of_parts (fun xs hxs => ?_) nofun
      cases hxs
      exact .nil
  | append_singleton vs v ih =>
      obtain ⟨hvs, hv⟩ := List.forall_mem_append.mp h
      rw [distinct_concat]
      split
      · exact ih hvs
      · next hc => exact (ih hvs).append (List.forall_mem_singleton.mp hv) hc

theorem setsDistinct_of_forall₂ {vs ws : List Value} (h : List.Forall₂ Alike vs ws) :
    ∀ v ∈ vs, v.SetsDistinct := by
  intro v hv
  obtain ⟨w, _, hvw⟩ := exists_of_forall₂ h v hv
  exact hvw.left

theorem setOf_alike {vs ws : List Value} (h : List.Forall₂ Alike vs ws) :
    (setOf vs).Alike (setOf ws) where
  equal := by
    refine set_beq_set_iff.mpr ⟨(distinct_alike h).length_eq, fun x hx => ?_⟩
    obtain ⟨y, hy, hxy⟩ := exists_of_forall₂ (distinct_alike h) x hx
    exact ⟨y, hy, hxy.equal⟩
  left := setOf_setsDistinct (setsDistinct_of_forall₂ h)
  right := setOf_setsDistinct
    (setsDistinct_of_forall₂ (List.Forall₂.flip (h.imp fun _ _ => Alike.symm)))

end Value

namespace Record

/-- The same names with alike values. -/
def Alike (r s : Record) : Prop :=
  List.Forall₂ (fun f g => f.1 = g.1 ∧ f.2.Alike g.2) r s

variable {r s : Record}

theorem Alike.symm (h : r.Alike s) : s.Alike r :=
  List.Forall₂.flip (List.Forall₂.imp (fun _ _ hfg => ⟨hfg.1.symm, hfg.2.symm⟩) h)

theorem alike_of_value (h : (Value.record r).Alike (.record s)) : r.Alike s := by
  refine forall₂_imp_of_mem (Value.beqFields_iff.mp h.equal) fun f hf g hg hfg => ?_
  have hleft := h.left.part (List.mem_map_of_mem hf)
  have hright := h.right.part (List.mem_map_of_mem hg)
  exact ⟨hfg.1, hfg.2, hleft, hright⟩

theorem Alike.value (h : r.Alike s) : (Value.record r).Alike (.record s) := by
  have distinct {r s : Record} (h : r.Alike s) : (Value.record r).SetsDistinct := by
    refine .of_parts nofun fun v hv => ?_
    obtain ⟨f, hf, rfl⟩ := List.mem_map.mp hv
    obtain ⟨g, _, hfg⟩ := exists_of_forall₂ h f hf
    exact hfg.2.left
  refine ⟨Value.beqFields_iff.mpr ?_, distinct h, distinct h.symm⟩
  exact List.Forall₂.imp (fun _ _ hfg => ⟨hfg.1, hfg.2.equal⟩) h

theorem zip_alike (names : List String) {vs ws : List Value}
    (h : List.Forall₂ Value.Alike vs ws) : Alike (names.zip vs) (names.zip ws) := by
  induction h generalizing names with
  | nil => simp [Alike]
  | cons hv _ ih =>
      cases names with
      | nil => exact .nil
      | cons name names => exact .cons ⟨rfl, hv⟩ (ih names)

theorem find?_alike (h : r.Alike s) (name : String) :
    Option.Rel Value.Alike (r.find? name) (s.find? name) := by
  induction h with
  | nil => exact .none
  | @cons f g r s hfg _ ih =>
      rw [find?, find?, List.lookup_cons, List.lookup_cons, hfg.1]
      split
      · exact .some hfg.2
      · exact ih

theorem insert_alike {v w : Value} (h : r.Alike s) (hv : v.Alike w) (name : String) :
    (r.insert name v).Alike (s.insert name w) := by
  induction h with
  | nil => exact .cons ⟨rfl, hv⟩ .nil
  | @cons f g r s hfg h ih =>
      rw [insert, insert, hfg.1]
      have hfg : g.1 = g.1 ∧ f.2.Alike g.2 := ⟨rfl, hfg.2⟩
      split
      · exact .cons ⟨rfl, hv⟩ (.cons hfg h)
      · split
        · exact .cons ⟨rfl, hv⟩ h
        · exact .cons hfg ih

theorem ofList_alike {fs gs : List (String × Value)} (h : Alike fs gs) :
    (ofList fs).Alike (ofList gs) := by
  refine List.rel_foldl (fun r s hrs f g hfg => ?_) .nil h
  rw [hfg.1]
  exact insert_alike hrs hfg.2 g.1

end Record
end AccessPolicy
