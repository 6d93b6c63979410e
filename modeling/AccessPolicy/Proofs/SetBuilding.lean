import AccessPolicy.Proofs.BuiltValues

/-!
Sets that are built of lists. A value is kept just if it equals no value before it in
the list, although it is compared with the kept ones only: a value that is left out
equals a kept one, and equality is transitive. So the set has the first of the values
that equal each other, in their order, and building it again changes nothing.
-/

namespace AccessPolicy
namespace Value

variable {vs : List Value} {v x : Value}

/-- The values that equal no value before them, in their order. -/
def firsts (vs : List Value) : List Value :=
  (vs.zipIdx.filter fun (v, i) => !(vs.take i).any (· == v)).map Prod.fst

theorem firsts_concat (vs : List Value) (v : Value) :
    firsts (vs ++ [v]) = if vs.any (· == v) then firsts vs else firsts vs ++ [v] := by
  have hbefore : (vs.zipIdx.filter fun (w, i) => !((vs ++ [v]).take i).any (· == w)) =
      vs.zipIdx.filter fun (w, i) => !(vs.take i).any (· == w) := by
    refine List.filter_congr fun (w, i) hw => ?_
    have hi : i < vs.length := by simpa using (List.mem_zipIdx hw).2.1
    dsimp only
    rw [List.take_append_of_le_length (Nat.le_of_lt hi)]
  rw [firsts, List.zipIdx_append, List.filter_append, List.map_append, hbefore]
  by_cases hv : vs.any (· == v) <;> simp [hv, firsts]

theorem contains_iff_of_setsDistinct (h : ∀ v ∈ vs, v.SetsDistinct) (hx : x.SetsDistinct) :
    contains vs x ↔ ∃ v ∈ vs, v == x := by
  rw [contains_iff]
  constructor
  · rintro ⟨v, hv, hxv⟩
    exact ⟨v, hv, beq_symm hx hxv⟩
  · rintro ⟨v, hv, hvx⟩
    exact ⟨v, hv, beq_symm (h v hv) hvx⟩

theorem distinct_eq_firsts (h : ∀ v ∈ vs, v.SetsDistinct) : distinct vs = firsts vs := by
  induction vs using List.reverseRecOn with
  | nil => rfl
  | append_singleton vs v ih =>
      obtain ⟨hvs, hv⟩ := List.forall_mem_append.mp h
      have hv := List.forall_mem_singleton.mp hv
      have hseen : contains (distinct vs) v = vs.any (· == v) := by
        rw [Bool.eq_iff_iff, contains_distinct_iff, contains_iff_of_setsDistinct hvs hv,
          List.any_eq_true]
      rw [distinct_concat, firsts_concat, hseen, ih hvs]

/-- The set of a list keeps the first of equal values, in order; it contains what
equals a value of the list, and the set of its members is the set itself. -/
theorem setOf_keeps_firsts (h : ∀ v ∈ vs, v.Built) :
    ∃ members, setOf vs = .set members ∧ members = firsts vs ∧
      members.Pairwise (fun v w => ¬ v == w ∧ ¬ w == v) ∧
      (∀ x : Value, x.Built → (contains members x ↔ ∃ v ∈ vs, v == x)) ∧
      setOf members = .set members := by
  have hvs : ∀ v ∈ vs, v.SetsDistinct := fun v hv => (h v hv).setsDistinct
  have hset : (Value.set (distinct vs)).SetsDistinct := setOf_setsDistinct hvs
  refine ⟨distinct vs, rfl, distinct_eq_firsts hvs, ?_, fun x hx => ?_,
    setOf_of_setsDistinct hset⟩
  · refine hset.members.imp_of_mem fun {v w} _ hw hne => ?_
    rw [← Bool.not_eq_true] at hne
    exact ⟨hne, fun hwv => hne (beq_symm (hset.part hw) hwv)⟩
  · rw [contains_distinct_iff, contains_iff_of_setsDistinct hvs hx.setsDistinct]

/-- Two sets that differ in the order of their members are one member, the first. -/
theorem setOf_keeps_firsts_nested :
    (∀ v ∈ [setOf [.long 1, .long 2], .bool true, setOf [.long 2, .long 1], .bool true],
      v.Built) ∧
    setOf [setOf [.long 1, .long 2], .bool true, setOf [.long 2, .long 1], .bool true] =
      .set [.set [.long 1, .long 2], .bool true] ∧
    setOf [.set [.long 1, .long 2], .bool true] = .set [.set [.long 1, .long 2], .bool true] := by
  have hlong (n : Long) : (Value.long n).Built := .scalar rfl
  have hbuilt : ∀ v ∈ [setOf [.long 1, .long 2], .bool true, setOf [.long 2, .long 1],
      .bool true], v.Built := by
    simp only [List.forall_mem_cons]
    exact ⟨.set (by simp [hlong]), .scalar rfl, .set (by simp [hlong]), .scalar rfl,
      List.forall_mem_nil _⟩
  obtain ⟨members, hset, hfirsts, _, _, hagain⟩ := setOf_keeps_firsts hbuilt
  have hmembers : members = [.set [.long 1, .long 2], .bool true] := hfirsts.trans rfl
  subst hmembers
  exact ⟨hbuilt, hset, hagain⟩

end Value
end AccessPolicy
