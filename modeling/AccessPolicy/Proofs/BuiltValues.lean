import AccessPolicy.Proofs.ValueEncoding

/-!
The values that can be built: from scalars, by forming sets and records, to any
depth. Decoding builds no others. On these values equality is an equivalence
relation and two sets are equal just if each is within the other. It does not
matter in which of two sets one looks for members of the other, nor on which
side the members stand where they are compared.
-/

namespace AccessPolicy
namespace Value

/-- A scalar, or a set or record that is formed of values which can be built. -/
inductive Built : Value → Prop where
  | scalar {v : Value} (h : v.isScalar) : Built v
  | set {vs : List Value} (h : ∀ v ∈ vs, Built v) : Built (setOf vs)
  | record {fields : List (String × Value)} (h : ∀ f ∈ fields, Built f.2) :
      Built (.record (Record.ofList fields))

/-- A canonical set or record can be rebuilt from its own members. -/
theorem built_iff_canonical {v : Value} : v.Built ↔ v.Canonical := by
  constructor
  · intro h
    induction h with
    | scalar h => exact .of_isScalar h
    | set _ ih => exact .setOf ih
    | record _ ih => exact .record ih
  · intro h
    induction v using partsInduction with
    | step v ih =>
        cases v with
        | set members =>
            rw [← setOf_of_setsDistinct h.sets]
            exact .set fun v hv => ih v hv (h.part hv)
        | record fields =>
            rw [← Record.ofList_of_increasing (h.fields fields (.root _))]
            refine .record fun f hf => ?_
            have hpart : f.2 ∈ (record fields).parts := List.mem_map_of_mem hf
            exact ih f.2 hpart (h.part hpart)
        | _ => exact .scalar rfl

theorem Built.setsDistinct {v : Value} (h : v.Built) : v.SetsDistinct :=
  (built_iff_canonical.mp h).sets

theorem Built.part {v w : Value} (h : v.Built) (hw : w ∈ v.parts) : w.Built :=
  built_iff_canonical.mpr ((built_iff_canonical.mp h).part hw)

section Sets

variable {xs ys : List Value}

/-- A set without equal members has no more members than a set it is within. -/
theorem length_le_of_allIn (hx : (Value.set xs).SetsDistinct) (h : allIn xs ys) :
    xs.length ≤ ys.length := by
  have hinj := pairwise_not_beq hx.members fun x hxs _ => beq_symm (hx.part hxs)
  exact length_le_of_forall_exists_rel (fun x hxs => contains_iff.mp (allIn_iff.mp h x hxs)) hinj

theorem allIn_of_beq (h : Value.set xs == .set ys) : allIn xs ys :=
  allIn_iff.mpr fun x hxs => contains_iff.mpr ((set_beq_set_iff.mp h).2 x hxs)

theorem set_beq_set_iff_allIn (hx : (Value.set xs).SetsDistinct)
    (hy : (Value.set ys).SetsDistinct) :
    (Value.set xs == .set ys) ↔ allIn xs ys ∧ allIn ys xs := by
  constructor
  · intro h
    exact ⟨allIn_of_beq h, allIn_of_beq (beq_symm hx h)⟩
  · intro h
    obtain ⟨hxy, hyx⟩ := h
    have hlen := Nat.le_antisymm (length_le_of_allIn hx hxy) (length_le_of_allIn hy hyx)
    exact set_beq_set_iff.mpr ⟨hlen, fun x hxs => contains_iff.mp (allIn_iff.mp hxy x hxs)⟩

theorem meets_of_meets (hx : (Value.set xs).SetsDistinct) (h : meets xs ys) : meets ys xs := by
  obtain ⟨x, hxs, hc⟩ := meets_iff.mp h
  obtain ⟨y, hys, hxy⟩ := contains_iff.mp hc
  exact meets_iff.mpr ⟨y, hys, contains_iff.mpr ⟨x, hxs, beq_symm (hx.part hxs) hxy⟩⟩

end Sets

section MemberFirst

variable {eq : Value → Value → Bool} {v w : Value}

/-- The ways in which values are equal by `eq` if the member of the second set
comes first where members are compared. -/
inductive EqualMemberFirst (eq : Value → Value → Bool) : Value → Value → Prop where
  | scalar {v : Value} (h : v.isScalar) : EqualMemberFirst eq v v
  | set {xs ys : List Value} (length : xs.length = ys.length)
      (members : ∀ x ∈ xs, ∃ y ∈ ys, eq y x) : EqualMemberFirst eq (.set xs) (.set ys)
  | record {fs gs : List (String × Value)}
      (fields : List.Forall₂ (fun f g => f.1 = g.1 ∧ eq f.2 g.2) fs gs) :
      EqualMemberFirst eq (.record fs) (.record gs)

theorem equalMemberFirst_iff (hv : v.SetsDistinct) (hw : w.SetsDistinct)
    (h : ∀ x ∈ v.parts, ∀ y ∈ w.parts, (eq x y ↔ x == y) ∧ (eq y x ↔ y == x)) :
    EqualMemberFirst eq v w ↔ v.Equal w := by
  constructor
  · intro heq
    cases heq with
    | scalar hs => exact .scalar hs
    | set length members =>
        refine .set length fun x hx => ?_
        obtain ⟨y, hy, hyx⟩ := members x hx
        exact ⟨y, hy, beq_symm (hw.part hy) ((h x hx y hy).2.mp hyx)⟩
    | record fields =>
        refine .record (forall₂_imp_of_mem fields fun f hf g hg hfg => ⟨hfg.1, ?_⟩)
        exact (h f.2 (List.mem_map_of_mem hf) g.2 (List.mem_map_of_mem hg)).1.mp hfg.2
  · intro heq
    cases heq with
    | scalar hs => exact .scalar hs
    | set length members =>
        refine .set length fun x hx => ?_
        obtain ⟨y, hy, hxy⟩ := members x hx
        exact ⟨y, hy, (h x hx y hy).2.mpr (beq_symm (hv.part hx) hxy)⟩
    | record fields =>
        refine .record (forall₂_imp_of_mem fields fun f hf g hg hfg => ⟨hfg.1, ?_⟩)
        exact (h f.2 (List.mem_map_of_mem hf) g.2 (List.mem_map_of_mem hg)).1.mpr hfg.2

/-- Equality is the only one that compares members with the sides changed: on values
that can be built the sides make no difference at any depth. -/
theorem memberFirst_iff :
    (∀ v w : Value, v.Built → w.Built → (eq v w ↔ EqualMemberFirst eq v w)) ↔
      ∀ v w : Value, v.Built → w.Built → (eq v w ↔ v == w) := by
  constructor
  · intro h
    -- the sides change at each depth, so both are needed of the members
    have both (v : Value) : ∀ w : Value, v.Built → w.Built →
        (eq v w ↔ v == w) ∧ (eq w v ↔ w == v) := by
      induction v using partsInduction with
      | step v ih =>
          intro w hv hw
          have hparts : ∀ x ∈ v.parts, ∀ y ∈ w.parts, (eq x y ↔ x == y) ∧ (eq y x ↔ y == x) :=
            fun x hx y hy => ih x hx y (hv.part hx) (hw.part hy)
          rw [h v w hv hw, h w v hw hv, beq_iff_equal, beq_iff_equal]
          refine ⟨equalMemberFirst_iff hv.setsDistinct hw.setsDistinct hparts,
            equalMemberFirst_iff hw.setsDistinct hv.setsDistinct ?_⟩
          exact fun y hy x hx => (hparts x hx y hy).symm
    exact fun v w hv hw => (both v w hv hw).1
  · intro h v w hv hw
    rw [h v w hv hw, beq_iff_equal]
    refine (equalMemberFirst_iff hv.setsDistinct hw.setsDistinct fun x hx y hy => ?_).symm
    exact ⟨h x y (hv.part hx) (hw.part hy), h y x (hw.part hy) (hv.part hx)⟩

end MemberFirst

/-- On the values that can be built, and so on those that are decoded, equality
is an equivalence relation, equality of sets is mutual inclusion, and meeting is
symmetric; and an equality that puts the member of the second set first, at every
depth, is the same one. -/
theorem beq_equivalence_of_built :
    Equivalence (fun v w : { v : Value // v.Built } => (v.val == w.val) = true) ∧
    (∀ xs ys : List Value, (Value.set xs).Built → (Value.set ys).Built →
      ((Value.set xs == .set ys) ↔ allIn xs ys ∧ allIn ys xs) ∧ meets xs ys = meets ys xs) ∧
    (∀ j v, ofJson? j = some v → v.Built) ∧
    ∀ eq : Value → Value → Bool,
      (∀ v w : Value, v.Built → w.Built → (eq v w ↔ EqualMemberFirst eq v w)) ↔
        ∀ v w : Value, v.Built → w.Built → (eq v w ↔ v == w) := by
  refine ⟨⟨fun v => beq_refl v.val, fun {v w} h => beq_symm v.property.setsDistinct h,
    fun h h' => beq_trans h h'⟩, fun xs ys hx hy => ?_, fun j v h => ?_,
    fun eq => memberFirst_iff⟩
  · have hx := hx.setsDistinct
    have hy := hy.setsDistinct
    exact ⟨set_beq_set_iff_allIn hx hy, Bool.eq_iff_iff.mpr ⟨meets_of_meets hx, meets_of_meets hy⟩⟩
  · exact built_iff_canonical.mpr (canonical_of_ofJson? h)

theorem beq_equivalence_of_built_nested :
    (Value.set [.bool true, .set [.string "a", .string "b"]]).Built ∧
    (Value.set [.set [.string "b", .string "a"], .bool true]).Built ∧
    Value.set [.bool true, .set [.string "a", .string "b"]] ==
      .set [.set [.string "b", .string "a"], .bool true] := by
  obtain ⟨_, hsets, hdecoded, _⟩ := beq_equivalence_of_built
  have hx := hdecoded (toJson (.set [.bool true, .set [.string "a", .string "b"]])) _ rfl
  have hy := hdecoded (toJson (.set [.set [.string "b", .string "a"], .bool true])) _ rfl
  exact ⟨hx, hy, (hsets _ _ hx hy).1.mpr ⟨by decide, by decide⟩⟩

end Value
end AccessPolicy
