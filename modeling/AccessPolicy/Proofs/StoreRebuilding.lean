import AccessPolicy.Proofs.EntityAncestry

/-!
A store depends on the graph of its entities and on nothing else. Entities in
another order form the same store, and so do the entities of a store itself:
their edges lead to all ancestors at once, so that they have the same ancestors,
although an entity on a cycle is not among its own.
-/

namespace AccessPolicy
namespace Store

variable {es fs : List Entity} {u v : EntityUid}

/-! Entities in the order of their uids. -/

/-- The uids increase from each entity to those behind it. -/
def Increasing (es : List Entity) : Prop := es.Pairwise fun e f => e.uid < f.uid

theorem Increasing.eq_of_perm (he : Increasing es) (hf : Increasing fs) (hperm : es.Perm fs) :
    es = fs :=
  hperm.eq_of_pairwise (fun _ _ _ _ huv hvu => absurd hvu (EntityUid.lt_asymm huv)) he hf

theorem insertSorted_increasing {e : Entity} (h : Increasing es) (he : e.uid ∉ es.map Entity.uid) :
    Increasing (insertSorted e es) := by
  induction es with
  | nil => exact List.pairwise_singleton _ e
  | cons f es ih =>
      obtain ⟨hf, hes⟩ := List.pairwise_cons.mp h
      rw [List.map_cons, List.mem_cons, not_or] at he
      rw [insertSorted]
      split
      · next hlt =>
        refine List.pairwise_cons.mpr ⟨fun g hg => ?_, h⟩
        rcases List.mem_cons.mp hg with rfl | hg
        · exact hlt
        · exact EntityUid.lt_trans hlt (hf g hg)
      · next hlt =>
        refine List.pairwise_cons.mpr ⟨fun g hg => ?_, ih hes he.2⟩
        rcases List.mem_cons.mp ((insertSorted_perm e es).mem_iff.mp hg) with rfl | hg
        · exact EntityUid.lt_of_not_lt hlt he.1
        · exact hf g hg

theorem foldr_insertSorted_increasing (h : (es.map Entity.uid).Nodup) :
    Increasing (es.foldr insertSorted []) := by
  induction es with
  | nil => exact .nil
  | cons e es ih =>
      obtain ⟨he, hes⟩ := List.nodup_cons.mp h
      refine insertSorted_increasing (ih hes) ?_
      rwa [((foldr_insertSorted_perm es).map Entity.uid).mem_iff]

/-- Putting entities in order forgets the order they came in. -/
theorem foldr_insertSorted_of_perm (h : (es.map Entity.uid).Nodup) (hperm : es.Perm fs) :
    es.foldr insertSorted [] = fs.foldr insertSorted [] := by
  have hf : (fs.map Entity.uid).Nodup := (hperm.map Entity.uid).nodup_iff.mp h
  refine (foldr_insertSorted_increasing h).eq_of_perm (foldr_insertSorted_increasing hf) ?_
  exact (foldr_insertSorted_perm es).trans (hperm.trans (foldr_insertSorted_perm fs).symm)

/-! The ancestors of the same uid in two graphs. -/

theorem IsAncestor.of_edges (hedges : ∀ u v, IsParent es u v → IsAncestor fs u v)
    (h : IsAncestor es u v) : IsAncestor fs u v := by
  induction h with
  | parent edge => exact hedges _ _ edge
  | step edge _ ih => exact (hedges _ _ edge).trans ih

theorem isAncestor_of_perm (hperm : es.Perm fs) : IsAncestor es u v ↔ IsAncestor fs u v := by
  have half {es fs : List Entity} (hperm : es.Perm fs) (h : IsAncestor es u v) :
      IsAncestor fs u v := by
    refine h.of_edges fun u v hedge => .parent ?_
    obtain ⟨e, he, hu, hv⟩ := hedge
    exact ⟨e, hperm.mem_iff.mp he, hu, hv⟩
  exact ⟨half hperm, half hperm.symm⟩

theorem IsAncestor.exists_entity (h : IsAncestor es u v) : ∃ e ∈ es, e.uid = u := by
  cases h with
  | parent edge | step edge _ =>
      obtain ⟨e, he, hu, _⟩ := edge
      exact ⟨e, he, hu⟩

/-- An edge of the closed entities leads from an entity to another one that is
its ancestor. -/
theorem isParent_close_iff (h : (es.map Entity.uid).Nodup) :
    IsParent (es.map (close es)) u v ↔ v ≠ u ∧ IsAncestor es u v := by
  constructor
  · intro hedge
    obtain ⟨f, hf, rfl, hv⟩ := hedge
    obtain ⟨e, _, rfl⟩ := List.mem_map.mp hf
    exact (mem_closure_iff h).mp hv
  · intro hv
    obtain ⟨e, he, rfl⟩ := hv.2.exists_entity
    exact ⟨close es e, List.mem_map_of_mem he, rfl, (mem_closure_iff h).mpr hv⟩

/-- Closing loses no ancestor and adds none, except that an entity on a cycle
may no longer be its own. -/
theorem isAncestor_close_iff (h : (es.map Entity.uid).Nodup) (hne : v ≠ u) :
    IsAncestor (es.map (close es)) u v ↔ IsAncestor es u v := by
  constructor
  · exact fun hpath => hpath.of_edges fun _ _ hedge => ((isParent_close_iff h).mp hedge).2
  · exact fun hpath => .parent ((isParent_close_iff h).mpr ⟨hne, hpath⟩)

/-- An entity is closed in the same way where its uid has the same ancestors. -/
theorem closure_congr (he : (es.map Entity.uid).Nodup) (hf : (fs.map Entity.uid).Nodup)
    {e f : Entity} (huid : e.uid = f.uid)
    (h : ∀ v, v ≠ e.uid → (IsAncestor es e.uid v ↔ IsAncestor fs e.uid v)) :
    closure es e = closure fs f := by
  refine UidSet.ext fun v => ?_
  rw [mem_closure_iff he, mem_closure_iff hf, ← huid]
  exact and_congr_right (h v)

theorem close_of_perm (h : (es.map Entity.uid).Nodup) (hperm : es.Perm fs) (e : Entity) :
    close es e = close fs e := by
  have hf : (fs.map Entity.uid).Nodup := (hperm.map Entity.uid).nodup_iff.mp h
  rw [close, close, closure_congr h hf rfl fun v _ => isAncestor_of_perm hperm]

theorem close_close (h : (es.map Entity.uid).Nodup) (e : Entity) :
    close (es.map (close es)) (close es e) = close es e := by
  have hclosed : ((es.map (close es)).map Entity.uid).Nodup := by rwa [map_uid_close]
  have hclosure : closure (es.map (close es)) (close es e) = closure es e :=
    closure_congr hclosed h rfl fun v hne => isAncestor_close_iff h hne
  rw [close, hclosure]
  rfl

/-! Stores of rearranged and of closed entities. -/

theorem ofList_of_perm (h : (es.map Entity.uid).Nodup) (hperm : es.Perm fs) :
    ofList es = ofList fs := by
  have hf : (fs.map Entity.uid).Nodup := (hperm.map Entity.uid).nodup_iff.mp h
  have hclosed : (es.map (close es)).Perm (fs.map (close fs)) := by
    rw [List.map_congr_left fun e _ => close_of_perm h hperm e]
    exact hperm.map (close fs)
  rw [ofList_eq_ok h, ofList_eq_ok hf, foldr_insertSorted_of_perm (by rwa [map_uid_close]) hclosed]

theorem ofList_close (h : (es.map Entity.uid).Nodup) :
    ofList (es.map (close es)) = ofList es := by
  have hclosed : (es.map (close es)).map (close (es.map (close es))) = es.map (close es) := by
    rw [List.map_map]
    exact List.map_congr_left fun e _ => close_close h e
  rw [ofList_eq_ok h, ofList_eq_ok (by rwa [map_uid_close]), hclosed]

/-- The ancestors that the store of the entities knows are those that a search
finds, in whatever order it goes. -/
theorem ancestors?_eq_of_search (h : (es.map Entity.uid).Nodup) {s : Store}
    (hs : ofList es = .ok s) {e : Entity} (he : e ∈ es) {found : UidSet}
    (hsearch : Search es e.uid ∅ (parentsOf es e.uid) found) :
    s.ancestors? e.uid = some found := by
  obtain ⟨t, ht, hfind⟩ := ofList_of_nodup h
  obtain rfl : s = t := Except.ok.inj (hs.symm.trans ht)
  have hfound : closure es e = found := UidSet.ext fun v => by
    rw [mem_closure_iff h, hsearch.mem_iff h]
  rw [ancestors?, (hfind e.uid (close es e)).mpr ⟨e, he, rfl, rfl⟩, ← hfound]
  rfl

/-- Entities with distinct uids and, given again, the entities of their store
form one and the same store, in whatever order they come and whatever way the
searches for ancestors go. -/
theorem ofList_rearranged (entities : List Entity) (h : (entities.map Entity.uid).Nodup) :
    ∃ s, ofList entities = .ok s ∧
      ∀ es, es.Perm entities ∨ es.Perm s.entities → ofList es = .ok s ∧
        ∀ e ∈ es, ∀ found, Search es e.uid ∅ (parentsOf es e.uid) found →
          s.ancestors? e.uid = some found := by
  refine ⟨_, ofList_eq_ok h, fun es hes => ?_⟩
  have hclosed : ((entities.map (close entities)).map Entity.uid).Nodup := by rwa [map_uid_close]
  have hd : (es.map Entity.uid).Nodup ∧ ofList es = ofList entities := by
    rcases hes with hperm | hperm
    · have hd := (hperm.map Entity.uid).nodup_iff.mpr h
      exact ⟨hd, ofList_of_perm hd hperm⟩
    · have hperm := hperm.trans (foldr_insertSorted_perm _)
      have hd := (hperm.map Entity.uid).nodup_iff.mpr hclosed
      exact ⟨hd, (ofList_of_perm hd hperm).trans (ofList_close h)⟩
  obtain ⟨hd, hofList⟩ := hd
  have hs := hofList.trans (ofList_eq_ok h)
  exact ⟨hs, fun e he found => ancestors?_eq_of_search hd hs he⟩

theorem ofList_rearranged_cycle :
    ∃ s, ofList [⟨⟨⟨"Group"⟩, "a"⟩, [], .ofList [⟨⟨"Group"⟩, "b"⟩]⟩,
        ⟨⟨⟨"Group"⟩, "b"⟩, [], .ofList [⟨⟨"Group"⟩, "a"⟩, ⟨⟨"Org"⟩, "acme"⟩]⟩] = .ok s ∧
      ofList [⟨⟨⟨"Group"⟩, "b"⟩, [], .ofList [⟨⟨"Group"⟩, "a"⟩, ⟨⟨"Org"⟩, "acme"⟩]⟩,
        ⟨⟨⟨"Group"⟩, "a"⟩, [], .ofList [⟨⟨"Group"⟩, "b"⟩]⟩] = .ok s ∧
      ofList s.entities = .ok s := by
  obtain ⟨s, hs, hes⟩ := ofList_rearranged
    [⟨⟨⟨"Group"⟩, "a"⟩, [], .ofList [⟨⟨"Group"⟩, "b"⟩]⟩,
      ⟨⟨⟨"Group"⟩, "b"⟩, [], .ofList [⟨⟨"Group"⟩, "a"⟩, ⟨⟨"Org"⟩, "acme"⟩]⟩] (by decide)
  exact ⟨s, hs, (hes _ (.inl (.swap _ _ _))).1, (hes _ (.inr (.refl _))).1⟩

end Store
end AccessPolicy
