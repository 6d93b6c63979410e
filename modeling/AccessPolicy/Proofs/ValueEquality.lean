import Mathlib.Data.List.Forall2
import Mathlib.Data.List.Induction
import AccessPolicy.Value

/-!
Equality of values. It is an equivalence relation on the values in which no set
gives equal members twice; a set with repeated members may equal another one
that does not equal it.
-/

namespace AccessPolicy

section Rel

variable {α β : Type} {rel : α → β → Prop} {xs : List α} {ys : List β}

/-- What does not lead to one place of a list leads to a place around it. -/
theorem exists_rel_around {before after : List β} {y : β}
    (hex : ∀ x ∈ xs, ∃ y' ∈ before ++ y :: after, rel x y') (hy : ∀ x ∈ xs, ¬ rel x y) :
    ∀ x ∈ xs, ∃ y' ∈ before ++ after, rel x y' := by
  intro x hx
  obtain ⟨y', hy', hrel⟩ := hex x hx
  refine ⟨y', ?_, hrel⟩
  rw [List.mem_append, List.mem_cons] at hy'
  rcases hy' with hy' | rfl | hy'
  · exact List.mem_append_left _ hy'
  · exact absurd hrel (hy x hx)
  · exact List.mem_append_right _ hy'

/-- A relation that leads all members of a list to another list, no two of them
to the same place, needs at least as many places. -/
theorem length_le_of_forall_exists_rel (hex : ∀ x ∈ xs, ∃ y ∈ ys, rel x y)
    (hinj : xs.Pairwise fun x x' => ∀ y, rel x y → ¬ rel x' y) : xs.length ≤ ys.length := by
  induction xs generalizing ys with
  | nil => exact Nat.zero_le _
  | cons x xs ih =>
      obtain ⟨⟨y, hy, hxy⟩, hexs⟩ := List.forall_mem_cons.mp hex
      obtain ⟨hx, hinj⟩ := List.pairwise_cons.mp hinj
      obtain ⟨before, after, rfl⟩ := List.append_of_mem hy
      have hrest := ih (exists_rel_around hexs fun x' hx' => hx x' hx' y hxy) hinj
      simp only [List.length_cons, List.length_append] at hrest ⊢
      omega

/-- With as many places as members every place is reached. -/
theorem forall_exists_rel_of_length_eq (hlen : xs.length = ys.length)
    (hex : ∀ x ∈ xs, ∃ y ∈ ys, rel x y)
    (hinj : xs.Pairwise fun x x' => ∀ y, rel x y → ¬ rel x' y) :
    ∀ y ∈ ys, ∃ x ∈ xs, rel x y := by
  intro y hy
  by_contra hnone
  obtain ⟨before, after, rfl⟩ := List.append_of_mem hy
  have hy : ∀ x ∈ xs, ¬ rel x y := fun x hx hxy => hnone ⟨x, hx, hxy⟩
  have hle := length_le_of_forall_exists_rel (exists_rel_around hex hy) hinj
  simp only [List.length_cons, List.length_append] at hlen hle
  omega

end Rel

theorem forall₂_imp_of_mem {α β : Type} {p q : α → β → Prop} {as : List α} {bs : List β}
    (hp : List.Forall₂ p as bs) (h : ∀ a ∈ as, ∀ b ∈ bs, p a b → q a b) :
    List.Forall₂ q as bs := by
  induction hp with
  | nil => exact .nil
  | cons hab _ ih =>
      refine .cons (h _ List.mem_cons_self _ List.mem_cons_self hab) (ih fun a ha b hb => ?_)
      exact h a (List.mem_cons_of_mem _ ha) b (List.mem_cons_of_mem _ hb)

theorem forall₂_trans {α β γ : Type} {p : α → β → Prop} {q : β → γ → Prop} {r : α → γ → Prop}
    {as : List α} {bs : List β} {cs : List γ} (hp : List.Forall₂ p as bs)
    (hq : List.Forall₂ q bs cs) (h : ∀ a b c, b ∈ bs → p a b → q b c → r a c) :
    List.Forall₂ r as cs := by
  induction hp generalizing cs with
  | nil =>
      cases hq
      exact .nil
  | cons hab _ ih =>
      cases hq with
      | cons hbc hq =>
          refine .cons (h _ _ _ List.mem_cons_self hab hbc) (ih hq fun a b c hb => ?_)
          exact h a b c (List.mem_cons_of_mem _ hb)

namespace Value

/-- The values directly inside a value. -/
def parts : Value → List Value
  | .set members => members
  | .record fields => fields.map Prod.snd
  | _ => []

/-- Neither a set nor a record. -/
def isScalar : Value → Bool
  | .set _ | .record _ => false
  | _ => true

theorem sizeOf_lt_of_mem_parts {v w : Value} (h : w ∈ v.parts) : sizeOf w < sizeOf v := by
  cases v with
  | set members =>
      have hmem : w ∈ members := h
      have := List.sizeOf_lt_of_mem hmem
      rw [set.sizeOf_spec]
      omega
  | record fields =>
      obtain ⟨⟨name, w⟩, hf, rfl⟩ := List.mem_map.mp h
      have := List.sizeOf_lt_of_mem hf
      rw [Prod.mk.sizeOf_spec] at this
      rw [record.sizeOf_spec]
      dsimp only
      omega
  | _ => cases h

/-- A property that passes from the parts of a value to the value holds of every
value. -/
@[elab_as_elim]
theorem partsInduction {P : Value → Prop} (step : ∀ v, (∀ w ∈ v.parts, P w) → P v) (v : Value) :
    P v :=
  step v fun w _ => partsInduction step w
termination_by sizeOf v
decreasing_by exact sizeOf_lt_of_mem_parts ‹_›

/-- The first value is the second one or stands inside it. -/
inductive Occurs : Value → Value → Prop where
  | root (v : Value) : Occurs v v
  | inside {u w v : Value} (part : w ∈ v.parts) (occurs : Occurs u w) : Occurs u v

/-- No set in the value has equal members. -/
def SetsDistinct (v : Value) : Prop :=
  ∀ members, Occurs (.set members) v → members.Pairwise fun x y => (x == y) = false

namespace SetsDistinct

theorem part {v w : Value} (h : v.SetsDistinct) (hw : w ∈ v.parts) : w.SetsDistinct :=
  fun members ho => h members (.inside hw ho)

theorem members {xs : List Value} (h : (Value.set xs).SetsDistinct) :
    xs.Pairwise fun x y => (x == y) = false :=
  h xs (.root _)

theorem of_parts {v : Value}
    (hroot : ∀ xs, v = .set xs → xs.Pairwise fun x y => (x == y) = false)
    (h : ∀ w ∈ v.parts, w.SetsDistinct) : v.SetsDistinct := by
  intro members ho
  cases ho with
  | root => exact hroot members rfl
  | inside hw ho => exact h _ hw members ho

theorem of_isScalar {v : Value} (h : v.isScalar) : v.SetsDistinct := by
  cases v with
  | set | record => cases h
  | _ => exact of_parts nofun nofun

end SetsDistinct

theorem contains_iff {xs : List Value} {v : Value} : contains xs v ↔ ∃ x ∈ xs, v == x := by
  simp [contains]

theorem allIn_iff {xs ys : List Value} : allIn xs ys ↔ ∀ x ∈ xs, contains ys x := by
  induction xs with
  | nil => simp [allIn]
  | cons x xs ih =>
      rw [allIn, Bool.and_eq_true, ih, List.forall_mem_cons]
      rfl

theorem beqFields_iff {fs gs : List (String × Value)} :
    beqFields fs gs ↔ List.Forall₂ (fun f g => f.1 = g.1 ∧ f.2 == g.2) fs gs := by
  induction fs generalizing gs with
  | nil => cases gs <;> simp [beqFields]
  | cons f fs ih =>
      cases gs with
      | nil => simp [beqFields]
      | cons g gs =>
          rw [beqFields, Bool.and_eq_true, Bool.and_eq_true, ih, List.forall₂_cons, beq_iff_eq]
          rfl

/-- The ways in which values are equal. -/
inductive Equal : Value → Value → Prop where
  | scalar {v : Value} (h : v.isScalar) : Equal v v
  | set {xs ys : List Value} (length : xs.length = ys.length)
      (members : ∀ x ∈ xs, ∃ y ∈ ys, x == y) : Equal (.set xs) (.set ys)
  | record {fs gs : List (String × Value)}
      (fields : List.Forall₂ (fun f g => f.1 = g.1 ∧ f.2 == g.2) fs gs) :
      Equal (.record fs) (.record gs)

theorem set_beq_set_iff {xs ys : List Value} :
    (Value.set xs == .set ys) ↔ xs.length = ys.length ∧ ∀ x ∈ xs, ∃ y ∈ ys, x == y := by
  simp only [← contains_iff, ← allIn_iff, ← beq_iff_eq (a := xs.length), ← Bool.and_eq_true]
  rfl

theorem beq_iff_equal {v w : Value} : v == w ↔ v.Equal w := by
  constructor
  · intro h
    cases v with
    | set xs =>
        cases w with
        | set ys => exact .set (set_beq_set_iff.mp h).1 (set_beq_set_iff.mp h).2
        | _ => cases h
    | record fs =>
        cases w with
        | record gs => exact .record (beqFields_iff.mp h)
        | _ => cases h
    | _ =>
        change Value.beq _ _ = true at h
        cases w <;> rw [Value.beq] at h
        -- of one form, the payloads are the same; of two, nothing is equal
        all_goals first
          | cases h
          | rw [eq_of_beq h]; exact .scalar rfl
  · intro h
    cases h with
    | set length members => exact set_beq_set_iff.mpr ⟨length, members⟩
    | record fields => exact beqFields_iff.mpr fields
    | scalar h =>
        cases v with
        | set | record => cases h
        | _ =>
            change Value.beq _ _ = true
            rw [Value.beq]
            exact beq_self_eq_true _

theorem beq_refl (v : Value) : v == v := by
  induction v using partsInduction with
  | step v ih =>
      rw [beq_iff_equal]
      cases v with
      | set xs => exact .set rfl fun x hx => ⟨x, hx, ih x hx⟩
      | record fs =>
          refine .record (List.forall₂_same.mpr fun f hf => ⟨rfl, ih f.2 ?_⟩)
          exact List.mem_map_of_mem hf
      | _ => exact .scalar rfl

theorem beq_trans {u v w : Value} (huv : u == v) (hvw : v == w) : u == w := by
  induction v using partsInduction generalizing u w with
  | step v ih =>
      rw [beq_iff_equal] at huv hvw ⊢
      cases huv with
      | scalar h => exact hvw
      | set length members =>
          cases hvw with
          | scalar h => cases h
          | set length' members' =>
              refine .set (length.trans length') fun x hx => ?_
              obtain ⟨y, hy, hxy⟩ := members x hx
              obtain ⟨z, hz, hyz⟩ := members' y hy
              exact ⟨z, hz, ih y hy hxy hyz⟩
      | record fields =>
          cases hvw with
          | scalar h => cases h
          | record fields' =>
              refine .record (forall₂_trans fields fields' fun f g k hg hfg hgk => ?_)
              exact ⟨hfg.1.trans hgk.1, ih g.2 (List.mem_map_of_mem hg) hfg.2 hgk.2⟩

section Distinct

variable {vs : List Value} {v x : Value}

theorem distinct_concat (vs : List Value) (v : Value) :
    distinct (vs ++ [v]) = if contains (distinct vs) v then distinct vs else distinct vs ++ [v] := by
  rw [distinct, List.foldl_append]
  rfl

theorem mem_of_mem_distinct (h : v ∈ distinct vs) : v ∈ vs := by
  induction vs using List.reverseRecOn with
  | nil => exact h
  | append_singleton vs w ih =>
      rw [distinct_concat] at h
      split at h
      · exact List.mem_append_left _ (ih h)
      · rcases List.mem_append.mp h with h | h
        · exact List.mem_append_left _ (ih h)
        · exact List.mem_append_right _ h

theorem contains_concat : contains (vs ++ [v]) x ↔ contains vs x ∨ x == v := by
  simp [contains]

/-- A value that is not kept equals one that is. -/
theorem contains_distinct_iff : contains (distinct vs) x ↔ contains vs x := by
  induction vs using List.reverseRecOn with
  | nil => rfl
  | append_singleton vs v ih =>
      rw [distinct_concat, contains_concat, ← ih]
      by_cases hv : contains (distinct vs) v
      · rw [if_pos hv]
        constructor
        · exact .inl
        · rintro (hx | hxv)
          · exact hx
          · obtain ⟨k, hk, hvk⟩ := contains_iff.mp hv
            exact contains_iff.mpr ⟨k, hk, beq_trans hxv hvk⟩
      · rw [if_neg hv, contains_concat]

end Distinct

/-- Unequal values have nothing that both equal. -/
theorem pairwise_not_beq {xs : List Value} (hne : xs.Pairwise fun x y => (x == y) = false)
    (hsymm : ∀ x ∈ xs, ∀ y, x == y → y == x) :
    xs.Pairwise fun x x' => ∀ y, x == y → ¬ x' == y := by
  refine hne.imp_of_mem fun {x x'} _ hx' hne y hxy hx'y => ?_
  rw [beq_trans hxy (hsymm x' hx' y hx'y)] at hne
  cases hne

/-- The members of a set without equal members lead to all members of an equal
set. -/
theorem beq_symm {v w : Value} (hv : v.SetsDistinct) (h : v == w) : w == v := by
  induction v using partsInduction generalizing w with
  | step v ih =>
      rw [beq_iff_equal] at h ⊢
      cases h with
      | scalar h => exact .scalar h
      | set length members =>
          rename_i xs ys
          have hsymm : ∀ x ∈ xs, ∀ y, x == y → y == x := fun x hx _ => ih x hx (hv.part hx)
          have hinj := pairwise_not_beq hv.members hsymm
          refine .set length.symm fun y hy => ?_
          obtain ⟨x, hx, hxy⟩ := forall_exists_rel_of_length_eq length members hinj y hy
          exact ⟨x, hx, hsymm x hx y hxy⟩
      | record fields =>
          rename_i fs gs
          refine .record (List.Forall₂.flip (forall₂_imp_of_mem fields fun f hf g _ hfg => ?_))
          have hf : f.2 ∈ (Value.record fs).parts := List.mem_map_of_mem hf
          exact ⟨hfg.1.symm, ih f.2 hf (hv.part hf) hfg.2⟩

-- with a repeated member the two sides are told apart
example : let once := Value.set [.bool true, .bool false]
    let twice := Value.set [.bool true, .bool true]
    twice == once ∧ ¬ once == twice := by
  decide

end Value
end AccessPolicy
