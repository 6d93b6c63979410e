import AccessPolicy.Proofs.AlikeValues
import AccessPolicy.Value.WellFormed

/-!
How values are built. A set keeps the first of equal members, a record has its
names in order whatever order the fields came in, and neither has a member that
was not given. So what is built of canonical or of well-formed values is again
one, and a set or a record that is canonical is rebuilt from its own members.
-/

namespace AccessPolicy

namespace Record

variable {name : String} {v : Value} {r : Record}

theorem mem_of_find? (h : r.find? name = some v) : (name, v) ∈ r := by
  rw [find?] at h
  induction r with
  | nil => cases h
  | cons f r ih =>
      rw [List.lookup_cons] at h
      split at h
      · next heq =>
        cases h
        rw [eq_of_beq heq]
        exact List.mem_cons_self
      · exact List.mem_cons_of_mem f (ih h)

theorem eq_or_mem_of_mem_insert {f : String × Value} (h : f ∈ r.insert name v) :
    f = (name, v) ∨ f ∈ r := by
  induction r with
  | nil => exact .inl (List.mem_singleton.mp h)
  | cons g r ih =>
      rw [insert] at h
      split at h
      · exact List.mem_cons.mp h
      · split at h
        · exact (List.mem_cons.mp h).imp_right (List.mem_cons_of_mem g)
        · rcases List.mem_cons.mp h with rfl | h
          · exact .inr List.mem_cons_self
          · exact (ih h).imp_right (List.mem_cons_of_mem g)

/-- The names stay in order. -/
theorem insert_increasing (name : String) (v : Value)
    (h : (r.map Prod.fst).Pairwise (· < ·)) :
    ((r.insert name v).map Prod.fst).Pairwise (· < ·) := by
  induction r with
  | nil => exact List.pairwise_singleton _ _
  | cons f r ih =>
      have hcons := h
      rw [List.map_cons, List.pairwise_cons] at hcons
      obtain ⟨hf, hr⟩ := hcons
      rw [insert]
      split
      · next hlt =>
        rw [List.map_cons, List.pairwise_cons]
        refine ⟨fun k hk => ?_, h⟩
        rcases List.mem_cons.mp hk with rfl | hk
        · exact hlt
        · exact String.lt_trans hlt (hf k hk)
      · next hlt =>
        split
        · next heq =>
          subst heq
          exact h
        · next hne =>
          rw [List.map_cons, List.pairwise_cons]
          refine ⟨fun k hk => ?_, ih hr⟩
          obtain ⟨g, hg, rfl⟩ := List.mem_map.mp hk
          rcases eq_or_mem_of_mem_insert hg with rfl | hg
          · exact Text.lt_of_not_lt hlt hne
          · exact hf g.1 (List.mem_map_of_mem hg)

theorem foldl_insert_increasing (fields : List (String × Value))
    (h : (r.map Prod.fst).Pairwise (· < ·)) :
    ((fields.foldl (fun r f => insert f.1 f.2 r) r).map Prod.fst).Pairwise (· < ·) := by
  induction fields generalizing r with
  | nil => exact h
  | cons f fields ih => exact ih (insert_increasing f.1 f.2 h)

theorem ofList_increasing (fields : List (String × Value)) :
    ((ofList fields).map Prod.fst).Pairwise (· < ·) :=
  foldl_insert_increasing fields List.Pairwise.nil

/-- A name that comes after all others is put behind them. -/
theorem insert_of_forall_lt (h : ∀ f ∈ r, f.1 < name) : r.insert name v = r ++ [(name, v)] := by
  induction r with
  | nil => rfl
  | cons f r ih =>
      obtain ⟨hf, hr⟩ := List.forall_mem_cons.mp h
      have hne : name ≠ f.1 := fun heq => String.lt_irrefl _ (heq ▸ hf)
      rw [insert, if_neg (String.lt_asymm hf), if_neg hne, ih hr, List.cons_append]

/-- Fields in order stay as they are. -/
theorem ofList_of_increasing (h : (r.map Prod.fst).Pairwise (· < ·)) : ofList r = r := by
  suffices step : ∀ kept : Record, ((kept ++ r).map Prod.fst).Pairwise (· < ·) →
      r.foldl (fun r f => insert f.1 f.2 r) kept = kept ++ r from step [] h
  clear h
  induction r with
  | nil => simp
  | cons f r ih =>
      intro kept hkept
      have hlast : ∀ g ∈ kept, g.1 < f.1 := by
        rw [List.map_append, List.pairwise_append] at hkept
        exact fun g hg => hkept.2.2 g.1 (List.mem_map_of_mem hg) f.1 List.mem_cons_self
      have hassoc : kept ++ f :: r = kept ++ [(f.1, f.2)] ++ r := List.append_cons kept f r
      rw [hassoc] at hkept ⊢
      rw [List.foldl_cons, insert_of_forall_lt hlast, ih _ hkept]

theorem mem_of_mem_foldl_insert {fields : List (String × Value)} {f : String × Value}
    (h : f ∈ fields.foldl (fun r f => insert f.1 f.2 r) r) : f ∈ r ∨ f ∈ fields := by
  induction fields generalizing r with
  | nil => exact .inl h
  | cons g fields ih =>
      rcases ih h with h | h
      · rcases eq_or_mem_of_mem_insert h with rfl | h
        · exact .inr List.mem_cons_self
        · exact .inl h
      · exact .inr (List.mem_cons_of_mem g h)

theorem mem_of_mem_ofList {fields : List (String × Value)} {f : String × Value}
    (h : f ∈ ofList fields) : f ∈ fields :=
  (mem_of_mem_foldl_insert h).resolve_left List.not_mem_nil

end Record

namespace Value

/-- Members that are unequal stay as they are. -/
theorem setOf_of_setsDistinct {vs : List Value} (h : (Value.set vs).SetsDistinct) :
    setOf vs = .set vs := by
  rw [setOf]
  induction vs using List.reverseRecOn with
  | nil => rfl
  | append_singleton vs v ih =>
      obtain ⟨hvs, -, hne⟩ := List.pairwise_append.mp h.members
      have hbefore : (Value.set vs).SetsDistinct := by
        refine .of_parts (fun xs hxs => ?_) fun w hw => h.part (List.mem_append_left _ hw)
        cases hxs
        exact hvs
      have hnew : ¬ contains vs v := by
        intro hc
        obtain ⟨x, hx, hvx⟩ := contains_iff.mp hc
        have hv : v.SetsDistinct := h.part (List.mem_append_right _ List.mem_cons_self)
        have hne := hne x hx v List.mem_cons_self
        rw [beq_symm hv hvx] at hne
        cases hne
      rw [distinct_concat, set.inj (ih hbefore), if_neg hnew]

/-- The names in every record in the value are in order. -/
def FieldsOrdered (v : Value) : Prop :=
  ∀ fields, Occurs (.record fields) v → (fields.map Prod.fst).Pairwise (· < ·)

/-- What the functions ensure that build sets and records. -/
structure Canonical (v : Value) : Prop where
  sets : v.SetsDistinct
  fields : v.FieldsOrdered

namespace Canonical

theorem part {v w : Value} (h : v.Canonical) (hw : w ∈ v.parts) : w.Canonical :=
  ⟨h.sets.part hw, fun fields ho => h.fields fields (.inside hw ho)⟩

theorem of_parts {v : Value}
    (hset : ∀ xs, v = .set xs → xs.Pairwise fun x y => (x == y) = false)
    (hrecord : ∀ fs, v = .record fs → (fs.map Prod.fst).Pairwise (· < ·))
    (h : ∀ w ∈ v.parts, w.Canonical) : v.Canonical := by
  refine ⟨.of_parts hset fun w hw => (h w hw).sets, fun fields ho => ?_⟩
  cases ho with
  | root => exact hrecord fields rfl
  | inside hw ho => exact (h _ hw).fields fields ho

theorem of_isScalar {v : Value} (h : v.isScalar) : v.Canonical := by
  cases v with
  | set | record => cases h
  | _ => exact of_parts nofun nofun nofun

theorem setOf {vs : List Value} (h : ∀ v ∈ vs, v.Canonical) : (setOf vs).Canonical := by
  have hsets := setOf_setsDistinct fun v hv => (h v hv).sets
  refine of_parts (fun xs hxs => ?_) nofun fun v hv => h v (mem_of_mem_distinct hv)
  cases hxs
  exact hsets.members

theorem record {fields : List (String × Value)} (h : ∀ f ∈ fields, f.2.Canonical) :
    (Value.record (Record.ofList fields)).Canonical := by
  refine of_parts nofun (fun fs hfs => ?_) fun v hv => ?_
  · cases hfs
    exact Record.ofList_increasing fields
  · obtain ⟨f, hf, rfl⟩ := List.mem_map.mp hv
    exact h f (Record.mem_of_mem_ofList hf)

end Canonical

theorem wellFormed_set_iff {members : List Value} :
    (Value.set members).WellFormed ↔
      members.Pairwise (fun v w => (v == w) = false) ∧ ∀ v ∈ members, v.WellFormed := by
  rw [WellFormed, listWellFormed_iff]

theorem wellFormed_record_iff {fields : List (String × Value)} :
    (Value.record fields).WellFormed ↔
      (fields.map Prod.fst).Pairwise (· < ·) ∧ ∀ f ∈ fields, f.2.WellFormed := by
  rw [WellFormed, fieldsWellFormed_iff]

theorem WellFormed.setsDistinct {v : Value} (h : v.WellFormed) : v.SetsDistinct := by
  induction v using partsInduction with
  | step v ih =>
      cases v with
      | set members =>
          obtain ⟨hne, hmembers⟩ := wellFormed_set_iff.mp h
          refine .of_parts (fun xs hxs => ?_) fun v hv => ih v hv (hmembers v hv)
          cases hxs
          exact hne
      | record fields =>
          refine .of_parts nofun fun v hv => ih v hv ?_
          obtain ⟨f, hf, rfl⟩ := List.mem_map.mp hv
          exact (wellFormed_record_iff.mp h).2 f hf
      | _ => exact .of_isScalar rfl

theorem setOf_wellFormed {vs : List Value} (h : ∀ v ∈ vs, v.WellFormed) :
    (setOf vs).WellFormed := by
  have hsets := setOf_setsDistinct fun v hv => (h v hv).setsDistinct
  exact wellFormed_set_iff.mpr ⟨hsets.members, fun v hv => h v (mem_of_mem_distinct hv)⟩

end Value

theorem Record.ofList_wellFormed {fields : List (String × Value)}
    (h : ∀ f ∈ fields, f.2.WellFormed) : (ofList fields).WellFormed :=
  Value.wellFormed_record_iff.mpr
    ⟨ofList_increasing fields, fun f hf => h f (mem_of_mem_ofList hf)⟩

theorem Record.WellFormed.find? {r : Record} (h : r.WellFormed) {name : String} {v : Value}
    (hv : r.find? name = some v) : v.WellFormed :=
  (Value.wellFormed_record_iff.mp h).2 _ (mem_of_find? hv)

end AccessPolicy
