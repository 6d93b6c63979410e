import Mathlib.Logic.Relation
import AccessPolicy.Proofs.DistinctKeys
import AccessPolicy.Store.Ancestry

/-!
A closed store knows all ancestors. A search that closes an entity finds every
uid that the edges of parents lead to, whatever cycles they form and in whatever
order it goes, and nothing else; so being within an entity of the store is the
reflexive and transitive closure of being its child. Entities with a repeated
uid form no store.
-/

namespace AccessPolicy
namespace Store

variable {entities : List Entity}

theorem isParent_of_mem_parentsOf {u v : EntityUid} (h : v ∈ parentsOf entities u) :
    IsParent entities u v := by
  rw [parentsOf] at h
  cases hfind : entities.find? (·.uid = u) with
  | none => rw [hfind] at h; cases h
  | some e =>
      rw [hfind] at h
      exact ⟨e, List.mem_of_find?_eq_some hfind, by simpa using List.find?_some hfind, h⟩

theorem mem_parentsOf_iff (h : (entities.map Entity.uid).Nodup) {u v : EntityUid} :
    v ∈ parentsOf entities u ↔ IsParent entities u v := by
  refine ⟨isParent_of_mem_parentsOf, fun hparent => ?_⟩
  obtain ⟨e, he, huid, hv⟩ := hparent
  rw [parentsOf, (find?_key_eq_some_iff h).mpr ⟨he, huid⟩]
  exact hv

theorem isAncestor_iff_transGen {u v : EntityUid} :
    IsAncestor entities u v ↔ Relation.TransGen (IsParent entities) u v := by
  constructor
  · intro h
    induction h with
    | parent edge => exact .single edge
    | step edge _ ih => exact .head edge ih
  · intro h
    induction h using Relation.TransGen.head_induction_on with
    | single edge => exact .parent edge
    | head edge _ ih => exact .step edge ih

section Search

variable {start : EntityUid} {found result : UidSet} {work before after : List EntityUid}

/-- A search from `start` that has found `found`, has `work` left and ends with
`result`. It takes any uid of the work list next. -/
inductive Search (entities : List Entity) (start : EntityUid) :
    UidSet → List EntityUid → UidSet → Prop where
  | done (found : UidSet) : Search entities start found [] found
  | skip {found result : UidSet} (before after : List EntityUid) {u : EntityUid}
      (hu : u = start ∨ u ∈ found)
      (rest : Search entities start found (before ++ after) result) :
      Search entities start found (before ++ u :: after) result
  | expand {found result : UidSet} (before after : List EntityUid) {u : EntityUid}
      (hu : ¬ (u = start ∨ u ∈ found))
      (rest : Search entities start (found.insert u)
        (parentsOf entities u ++ (before ++ after)) result) :
      Search entities start found (before ++ u :: after) result

/-- The search that closes an entity takes the first uid each time. -/
theorem search_reach : Search entities start found work (reach entities start found work) := by
  fun_induction reach entities start found work with
  | case1 found => exact .done found
  | case2 found u work hu ih => exact .skip [] work hu ih
  | case3 found u work hu ih => exact .expand [] work hu ih

theorem mem_middle {u v : EntityUid} :
    v ∈ before ++ u :: after ↔ v = u ∨ v ∈ before ++ after :=
  List.perm_middle.mem_iff.trans List.mem_cons

/-- Nothing is found that the edges do not lead to. -/
theorem Search.of_mem (h : Search entities start found work result) {x : EntityUid}
    (hx : x ∈ result) :
    x ∈ found ∨
      x ≠ start ∧ ∃ u ∈ work, Relation.ReflTransGen (IsParent entities) u x := by
  induction h with
  | done found => exact .inl hx
  | skip before after _ _ ih =>
      refine (ih hx).imp_right fun hx => ?_
      obtain ⟨hne, w, hw, hpath⟩ := hx
      exact ⟨hne, w, mem_middle.mpr (.inr hw), hpath⟩
  | @expand found _ before after u hu _ ih =>
      rcases ih hx with hx | ⟨hne, w, hw, hpath⟩
      · rcases UidSet.mem_insert.mp hx with rfl | hx
        · exact .inr ⟨fun heq => hu (.inl heq), x, mem_middle.mpr (.inl rfl), .refl⟩
        · exact .inl hx
      · rcases List.mem_append.mp hw with hw | hw
        · refine .inr ⟨hne, u, mem_middle.mpr (.inl rfl), ?_⟩
          exact hpath.head (isParent_of_mem_parentsOf hw)
        · exact .inr ⟨hne, w, mem_middle.mpr (.inr hw), hpath⟩

/-- The search does not go on from the uid again. -/
def Passed (start : EntityUid) (found : UidSet) (u : EntityUid) : Prop := u = start ∨ u ∈ found

/-- Edges from what has been passed lead to what has been passed or is still on
the work list. -/
def FrontierClosed (entities : List Entity) (start : EntityUid) (found : UidSet)
    (work : List EntityUid) : Prop :=
  ∀ u, Passed start found u → ∀ v, IsParent entities u v → Passed start found v ∨ v ∈ work

theorem FrontierClosed.skip {u : EntityUid} (hu : Passed start found u)
    (h : FrontierClosed entities start found (before ++ u :: after)) :
    FrontierClosed entities start found (before ++ after) := by
  intro t ht v hedge
  rcases h t ht v hedge with hv | hv
  · exact .inl hv
  · rcases mem_middle.mp hv with rfl | hv
    · exact .inl hu
    · exact .inr hv

theorem passed_insert {u v : EntityUid} :
    Passed start (found.insert u) v ↔ v = u ∨ Passed start found v := by
  simp only [Passed, UidSet.mem_insert]
  exact or_left_comm

theorem FrontierClosed.expand (hd : (entities.map Entity.uid).Nodup) {u : EntityUid}
    (h : FrontierClosed entities start found (before ++ u :: after)) :
    FrontierClosed entities start (found.insert u)
      (parentsOf entities u ++ (before ++ after)) := by
  intro t ht v hedge
  rw [passed_insert, List.mem_append, mem_parentsOf_iff hd]
  rcases passed_insert.mp ht with rfl | ht
  · exact .inr (.inl hedge)
  · rcases h t ht v hedge with hv | hv
    · exact .inl (.inr hv)
    · rcases mem_middle.mp hv with rfl | hv
      · exact .inl (.inl rfl)
      · exact .inr (.inr hv)

theorem FrontierClosed.isAncestor {u x : EntityUid}
    (h : FrontierClosed entities start found []) (hpath : IsAncestor entities u x)
    (hu : Passed start found u) : Passed start found x := by
  induction hpath with
  | parent edge => exact (h _ hu _ edge).resolve_right List.not_mem_nil
  | step edge _ ih => exact ih ((h _ hu _ edge).resolve_right List.not_mem_nil)

/-- When the work list is empty, all edges stay within what has been passed. -/
theorem Search.closed (hd : (entities.map Entity.uid).Nodup)
    (hs : Search entities start found work result)
    (h : FrontierClosed entities start found work) :
    (∀ u, Passed start found u ∨ u ∈ work → Passed start result u) ∧
      FrontierClosed entities start result [] := by
  induction hs with
  | done found =>
      refine ⟨fun u hu => ?_, h⟩
      rcases hu with hu | hu
      · exact hu
      · cases hu
  | skip before after hu _ ih =>
      obtain ⟨hpassed, hclosed⟩ := ih (h.skip hu)
      refine ⟨fun v hv => hpassed v ?_, hclosed⟩
      rcases hv with hv | hv
      · exact .inl hv
      · rcases mem_middle.mp hv with rfl | hv
        · exact .inl hu
        · exact .inr hv
  | expand before after hu _ ih =>
      obtain ⟨hpassed, hclosed⟩ := ih (h.expand hd)
      refine ⟨fun v hv => hpassed v ?_, hclosed⟩
      rw [passed_insert, List.mem_append]
      rcases hv with hv | hv
      · exact .inl (.inr hv)
      · rcases mem_middle.mp hv with rfl | hv
        · exact .inl (.inl rfl)
        · exact .inr (.inr hv)

/-- In whatever order a search from the parents of an entity goes, it finds the
ancestors of the entity, of which it is none itself. -/
theorem Search.mem_iff (hd : (entities.map Entity.uid).Nodup)
    (hs : Search entities start ∅ (parentsOf entities start) result) {x : EntityUid} :
    x ∈ result ↔ x ≠ start ∧ IsAncestor entities start x := by
  constructor
  · intro hx
    rcases hs.of_mem hx with hx | ⟨hne, u, hu, hpath⟩
    · exact absurd hx (UidSet.not_mem_empty x)
    · rw [isAncestor_iff_transGen]
      exact ⟨hne, .head' (isParent_of_mem_parentsOf hu) hpath⟩
  · intro hx
    obtain ⟨hne, hx⟩ := hx
    -- at first only the entity itself is passed, and all its parents are to be visited
    have hstart : FrontierClosed entities start ∅ (parentsOf entities start) := by
      intro u hu v hedge
      rcases hu with rfl | hu
      · exact .inr ((mem_parentsOf_iff hd).mpr hedge)
      · exact absurd hu (UidSet.not_mem_empty u)
    obtain ⟨hpassed, hclosed⟩ := hs.closed hd hstart
    have hx := hclosed.isAncestor hx (hpassed start (.inl (.inl rfl)))
    exact hx.resolve_left hne

end Search

theorem mem_closure_iff (hd : (entities.map Entity.uid).Nodup) {e : Entity} {x : EntityUid} :
    x ∈ closure entities e ↔ x ≠ e.uid ∧ IsAncestor entities e.uid x :=
  search_reach.mem_iff hd

/-! Duplicates, and the store that is built where there are none. -/

theorem firstDuplicate?_eq_none_iff {seen us : List EntityUid} :
    firstDuplicate? seen us = none ↔ us.Nodup ∧ ∀ u ∈ us, u ∉ seen := by
  induction us generalizing seen with
  | nil => simp [firstDuplicate?]
  | cons u us ih =>
      rw [firstDuplicate?]
      split
      · next hu => simp [hu]
      · next hu =>
        rw [ih, List.nodup_cons]
        grind

/-- The first duplicate ends the longest beginning of the list without one. -/
theorem firstDuplicate?_eq_some {seen us : List EntityUid} {u : EntityUid}
    (h : firstDuplicate? seen us = some u) :
    ∃ before after, us = before ++ u :: after ∧ before.Nodup ∧ (∀ v ∈ before, v ∉ seen) ∧
      (u ∈ before ∨ u ∈ seen) := by
  induction us generalizing seen with
  | nil => cases h
  | cons w us ih =>
      rw [firstDuplicate?] at h
      split at h
      · next hw =>
        cases h
        exact ⟨[], us, rfl, .nil, nofun, .inr hw⟩
      · next hw =>
        obtain ⟨before, after, rfl, hnodup, hseen, hu⟩ := ih h
        refine ⟨w :: before, after, rfl, List.nodup_cons.mpr ⟨?_, hnodup⟩, ?_, ?_⟩
        · intro hmem
          exact hseen w hmem List.mem_cons_self
        · intro v hv
          rcases List.mem_cons.mp hv with rfl | hv
          · exact hw
          · exact fun hmem => hseen v hv (List.mem_cons_of_mem _ hmem)
        · rw [List.mem_cons, or_right_comm, or_comm]
          exact hu.imp_right List.mem_cons.mp

theorem insertSorted_perm (e : Entity) (es : List Entity) :
    (insertSorted e es).Perm (e :: es) := by
  induction es with
  | nil => exact .refl _
  | cons f es ih =>
      rw [insertSorted]
      split
      · exact .refl _
      · exact (ih.cons f).trans (.swap e f es)

theorem foldr_insertSorted_perm (es : List Entity) : (es.foldr insertSorted []).Perm es := by
  induction es with
  | nil => exact .refl _
  | cons e es ih => exact (insertSorted_perm e _).trans (ih.cons e)

/-- The entity with all its ancestors in the place of its parents. -/
def close (entities : List Entity) (e : Entity) : Entity :=
  { e with parents := closure entities e }

theorem map_uid_close :
    (entities.map (close entities)).map Entity.uid = entities.map Entity.uid := by
  rw [List.map_map]
  rfl

theorem ofList_eq_ok (h : (entities.map Entity.uid).Nodup) :
    ofList entities = .ok ⟨(entities.map (close entities)).foldr insertSorted []⟩ := by
  have hdup : firstDuplicate? [] (entities.map Entity.uid) = none :=
    firstDuplicate?_eq_none_iff.mpr ⟨h, fun _ _ => List.not_mem_nil⟩
  rw [ofList, hdup]
  rfl

/-- Entities with distinct uids form a store of the closed entities. -/
theorem ofList_of_nodup (h : (entities.map Entity.uid).Nodup) :
    ∃ s, ofList entities = .ok s ∧
      ∀ u f, s.find? u = some f ↔ ∃ e ∈ entities, e.uid = u ∧ close entities e = f := by
  have hperm := foldr_insertSorted_perm (entities.map (close entities))
  refine ⟨_, ofList_eq_ok h, fun u f => ?_⟩
  rw [find?, find?_key_eq_some_iff, hperm.mem_iff, List.mem_map]
  · constructor
    · intro hf
      obtain ⟨⟨e, he, rfl⟩, rfl⟩ := hf
      exact ⟨e, he, rfl, rfl⟩
    · intro hf
      obtain ⟨e, he, rfl, rfl⟩ := hf
      exact ⟨⟨e, he, rfl⟩, rfl⟩
  · rw [(hperm.map Entity.uid).nodup_iff, map_uid_close]
    exact h

/-- What a store has to know of the ancestry of the given entities. -/
structure ClosedOver (entities : List Entity) (s : Store) : Prop where
  isSome_ancestors? (u : EntityUid) : (s.ancestors? u).isSome ↔ u ∈ entities.map Entity.uid
  mem_ancestors {u : EntityUid} {ancestors : UidSet} (h : s.ancestors? u = some ancestors)
    (x : EntityUid) : x ∈ ancestors ↔ x ≠ u ∧ IsAncestor entities u x

theorem ofList_closedOver (h : (entities.map Entity.uid).Nodup) :
    ∃ s, ofList entities = .ok s ∧ s.ClosedOver entities := by
  obtain ⟨s, hs, hfind⟩ := ofList_of_nodup h
  have hancestors (u : EntityUid) (ancestors : UidSet) : s.ancestors? u = some ancestors ↔
      ∃ e ∈ entities, e.uid = u ∧ closure entities e = ancestors := by
    simp only [ancestors?, Option.map_eq_some_iff, hfind]
    constructor
    · intro hf
      obtain ⟨f, ⟨e, he, hu, rfl⟩, rfl⟩ := hf
      exact ⟨e, he, hu, rfl⟩
    · intro he
      obtain ⟨e, he, hu, rfl⟩ := he
      exact ⟨_, ⟨e, he, hu, rfl⟩, rfl⟩
  refine ⟨s, hs, ⟨fun u => ?_, fun {u ancestors} hu x => ?_⟩⟩
  · simp only [Option.isSome_iff_exists, hancestors, List.mem_map]
    constructor
    · intro hu
      obtain ⟨_, e, he, hu, _⟩ := hu
      exact ⟨e, he, hu⟩
    · intro hu
      obtain ⟨e, he, hu⟩ := hu
      exact ⟨_, e, he, hu, rfl⟩
  · obtain ⟨e, he, rfl, rfl⟩ := (hancestors u ancestors).mp hu
    exact mem_closure_iff h

/-- A uid without an entity has no parents, so only its own path starts from it. -/
theorem ClosedOver.isWithin_iff {s : Store} (h : s.ClosedOver entities) {u x : EntityUid} :
    s.isWithin u x ↔ Relation.ReflTransGen (IsParent entities) u x := by
  rw [Relation.reflTransGen_iff_eq_or_transGen, ← isAncestor_iff_transGen, isWithin,
    Bool.or_eq_true, decide_eq_true_eq, Option.any_eq_true]
  by_cases heq : u = x
  · simp [heq]
  · have hne : x ≠ u := fun hx => heq hx.symm
    constructor
    · intro hx
      obtain ⟨ancestors, hu, hx⟩ := hx.resolve_left heq
      exact .inr ((h.mem_ancestors hu x).mp (of_decide_eq_true hx)).2
    · intro hx
      have hx := hx.resolve_left hne
      have hu : u ∈ entities.map Entity.uid := by
        cases hx with
        | parent edge | step edge _ =>
            obtain ⟨e, he, hu, _⟩ := edge
            exact hu ▸ List.mem_map_of_mem he
      obtain ⟨ancestors, hu⟩ := Option.isSome_iff_exists.mp ((h.isSome_ancestors? u).mpr hu)
      exact .inr ⟨ancestors, hu, decide_eq_true ((h.mem_ancestors hu x).mpr ⟨hne, hx⟩)⟩

/-- Building a store closes the entities under ancestry, and fails with the
first uid that has been seen where one is repeated. -/
theorem ofList_closes_ancestry (entities : List Entity) :
    ((entities.map Entity.uid).Nodup → ∃ s, ofList entities = .ok s ∧
      (∀ u, (s.ancestors? u).isSome ↔ u ∈ entities.map Entity.uid) ∧
      (∀ u ancestors, s.ancestors? u = some ancestors →
        ∀ x, x ∈ ancestors ↔ x ≠ u ∧ IsAncestor entities u x) ∧
      (∀ u x, s.isWithin u x ↔ Relation.ReflTransGen (IsParent entities) u x) ∧
      (∀ u, s.isWithin u u) ∧
      ∀ u v w, s.isWithin u v → s.isWithin v w → s.isWithin u w) ∧
    (¬ (entities.map Entity.uid).Nodup → ∃ before e after, entities = before ++ e :: after ∧
      (before.map Entity.uid).Nodup ∧ e.uid ∈ before.map Entity.uid ∧
      ofList entities = .error (.duplicateEntity e.uid)) := by
  constructor
  · intro h
    obtain ⟨s, hs, hclosed⟩ := ofList_closedOver h
    refine ⟨s, hs, hclosed.isSome_ancestors?, fun u ancestors hu => hclosed.mem_ancestors hu,
      fun u x => hclosed.isWithin_iff, fun u => hclosed.isWithin_iff.mpr .refl, ?_⟩
    intro u v w huv hvw
    rw [hclosed.isWithin_iff] at *
    exact huv.trans hvw
  · intro h
    cases hdup : firstDuplicate? [] (entities.map Entity.uid) with
    | none => exact absurd (firstDuplicate?_eq_none_iff.mp hdup).1 h
    | some u =>
        obtain ⟨before, after, hsplit, hnodup, _, hu⟩ := firstDuplicate?_eq_some hdup
        obtain ⟨es, fs, rfl, rfl, hfs⟩ := List.map_eq_append_iff.mp hsplit
        obtain ⟨e, fs, rfl, rfl, rfl⟩ := List.map_eq_cons_iff.mp hfs
        refine ⟨es, e, fs, rfl, hnodup, hu.resolve_right List.not_mem_nil, ?_⟩
        rw [ofList, hdup]

theorem ofList_closes_ancestry_cycle :
    ∃ s, ofList [⟨⟨⟨"Group"⟩, "a"⟩, [], .ofList [⟨⟨"Group"⟩, "b"⟩]⟩,
        ⟨⟨⟨"Group"⟩, "b"⟩, [], .ofList [⟨⟨"Group"⟩, "a"⟩, ⟨⟨"Org"⟩, "acme"⟩]⟩] = .ok s ∧
      s.isWithin ⟨⟨"Group"⟩, "a"⟩ ⟨⟨"Org"⟩, "acme"⟩ ∧
      ∀ ancestors, s.ancestors? ⟨⟨"Group"⟩, "a"⟩ = some ancestors →
        ⟨⟨"Group"⟩, "a"⟩ ∉ ancestors := by
  obtain ⟨s, hs, _, hmem, hwithin, _⟩ := (ofList_closes_ancestry
    [⟨⟨⟨"Group"⟩, "a"⟩, [], .ofList [⟨⟨"Group"⟩, "b"⟩]⟩,
      ⟨⟨⟨"Group"⟩, "b"⟩, [], .ofList [⟨⟨"Group"⟩, "a"⟩, ⟨⟨"Org"⟩, "acme"⟩]⟩]).1 (by decide)
  refine ⟨s, hs, (hwithin _ _).mpr (.head (b := ⟨⟨"Group"⟩, "b"⟩) ?_ (.single ?_)), ?_⟩
  · exact ⟨_, List.mem_cons_self, rfl, UidSet.mem_ofList.mpr (by decide)⟩
  · exact ⟨_, List.mem_cons_of_mem _ List.mem_cons_self, rfl, UidSet.mem_ofList.mpr (by decide)⟩
  · intro ancestors ha h
    exact ((hmem _ _ ha _).mp h).1 rfl

end Store
end AccessPolicy
