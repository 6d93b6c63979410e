import AccessPolicy.PolicySet
import AccessPolicy.Proofs.DistinctKeys

/-!
Policies added to a set one after the other. An addition fails only where the id is
taken, and then changes nothing, so the set holds just the policies whose additions
succeeded, in their order. A table that keeps the policies by position, and beside
them the position of each id, goes through the same additions: it gives the same
answers, and no look-up leaves the table.
-/

namespace AccessPolicy
namespace PolicySet

theorem ext_policies {s t : PolicySet} (h : s.policies = t.policies) : s = t := by
  cases s
  cases t
  cases h
  rfl

theorem foldlM_add_eq_ok_iff {policies : List Policy} {s t : PolicySet} :
    policies.foldlM add s = .ok t ↔ t.policies = s.policies ++ policies := by
  induction policies generalizing s with
  | nil =>
      rw [List.foldlM_nil, List.append_nil]
      constructor
      · intro h
        cases h
        rfl
      · intro h
        rw [ext_policies h]
        rfl
  | cons p policies ih =>
      rw [List.foldlM_cons, add]
      split
      · next hp =>
        refine ⟨nofun, fun h => ?_⟩
        -- the id of `p` is taken, so no set has the policies
        have hids := t.ids_nodup
        rw [h, List.map_append, List.map_cons, List.nodup_append] at hids
        exact absurd rfl (hids.2.2 p.id hp p.id List.mem_cons_self)
      · exact ih.trans (by rw [List.append_assoc, List.singleton_append])

theorem ofList_eq_ok_iff {policies : List Policy} {s : PolicySet} :
    ofList policies = .ok s ↔ s.policies = policies :=
  foldlM_add_eq_ok_iff

theorem ofList_of_nodup {policies : List Policy} (h : (policies.map Policy.id).Nodup) :
    ofList policies = .ok ⟨policies, h⟩ :=
  ofList_eq_ok_iff.mpr rfl

theorem add_of_mem {s : PolicySet} {p : Policy} (h : p.id ∈ s.ids) :
    s.add p = .error (.duplicatePolicyId p.id) :=
  dif_pos h

/-- The first policy whose id has been seen ends the building of a set. -/
theorem ofList_of_repeat {before after : List Policy} {p : Policy}
    (hbefore : (before.map Policy.id).Nodup) (hp : p.id ∈ before.map Policy.id) :
    ofList (before ++ p :: after) = .error (.duplicatePolicyId p.id) := by
  have hset : before.foldlM add empty = .ok ⟨before, hbefore⟩ := ofList_of_nodup hbefore
  have hadd : add ⟨before, hbefore⟩ p = .error (.duplicatePolicyId p.id) := add_of_mem hp
  rw [ofList, List.foldlM_append, hset]
  change (p :: after).foldlM add ⟨before, hbefore⟩ = _
  rw [List.foldlM_cons, hadd]
  rfl

theorem ofList_eq_error_iff {policies : List Policy} {x : PolicyError} :
    ofList policies = .error x ↔ ∃ before p after, policies = before ++ p :: after ∧
      (before.map Policy.id).Nodup ∧ p.id ∈ before.map Policy.id ∧
      x = .duplicatePolicyId p.id := by
  constructor
  · intro hx
    have hrepeat : ¬ (policies.map Policy.id).Nodup := by
      intro hnodup
      rw [ofList_of_nodup hnodup] at hx
      cases hx
    obtain ⟨before, p, after, rfl, hbefore, hp⟩ := exists_first_repeat hrepeat
    rw [ofList_of_repeat hbefore hp] at hx
    cases hx
    exact ⟨before, p, after, rfl, hbefore, hp, rfl⟩
  · rintro ⟨before, p, after, rfl, hbefore, hp, rfl⟩
    exact ofList_of_repeat hbefore hp

theorem exists_ofList_eq_error_iff {policies : List Policy} :
    (∃ x, ofList policies = .error x) ↔ ¬ (policies.map Policy.id).Nodup := by
  constructor
  · rintro ⟨x, hx⟩ hnodup
    rw [ofList_of_nodup hnodup] at hx
    cases hx
  · intro hrepeat
    obtain ⟨before, p, after, rfl, hbefore, hp⟩ := exists_first_repeat hrepeat
    exact ⟨_, ofList_of_repeat hbefore hp⟩

theorem get?_eq_some_iff {s : PolicySet} {id : PolicyId} {p : Policy} :
    s.get? id = some p ↔ p ∈ s.policies ∧ p.id = id :=
  find?_key_eq_some_iff s.ids_nodup

/-- The answer to an addition and the set after it. Where the addition fails, the
set is left as it was. -/
def tryAdd (s : PolicySet) (p : Policy) : Option PolicyError × PolicySet :=
  match s.add p with
  | .ok t => (none, t)
  | .error x => (some x, s)

theorem tryAdd_of_mem {s : PolicySet} {p : Policy} (h : p.id ∈ s.ids) :
    s.tryAdd p = (some (.duplicatePolicyId p.id), s) := by
  rw [tryAdd, add_of_mem h]

theorem tryAdd_of_not_mem {s : PolicySet} {p : Policy} (h : p.id ∉ s.ids) :
    s.tryAdd p = (none, ⟨s.policies ++ [p], ids_nodup_add h⟩) := by
  rw [tryAdd, add, dif_neg h]

instance : Hashable PolicyId := ⟨fun id => hash id.name⟩

/-- Policies by position, and the position of each id. -/
structure Table where
  policies : Array Policy
  positions : Std.HashMap PolicyId Nat

namespace Table

def empty : Table := ⟨#[], ∅⟩

/-- The answer to an addition and the table after it. A policy whose id has no
position is put behind the others. -/
def add (t : Table) (p : Policy) : Option PolicyError × Table :=
  if t.positions.contains p.id then (some (.duplicatePolicyId p.id), t)
  else (none, ⟨t.policies.push p, t.positions.insert p.id t.policies.size⟩)

/-- The policy at the position of the id, if it has one. There is no result if the
position lies outside the table. -/
def get? (t : Table) (id : PolicyId) : Option (Option Policy) :=
  match t.positions[id]? with
  | some i => t.policies[i]?.map some
  | none => some none

/-- The table stands for the set: it has its policies, and for each id the place
where it is first found among them. -/
structure Holds (t : Table) (s : PolicySet) : Prop where
  policies : t.policies.toList = s.policies
  positions (id : PolicyId) : t.positions[id]? = s.policies.findIdx? (·.id = id)

namespace Holds

variable {t : Table} {s : PolicySet}

theorem empty : Table.empty.Holds .empty := ⟨rfl, fun _ => Std.HashMap.getElem?_empty⟩

theorem contains_iff (h : t.Holds s) {id : PolicyId} : t.positions.contains id ↔ id ∈ s.ids := by
  rw [Std.HashMap.contains_eq_isSome_getElem?, h.positions, List.findIdx?_isSome,
    List.any_eq_true, ids, List.mem_map]
  simp only [decide_eq_true_eq]

theorem get?_eq (h : t.Holds s) (id : PolicyId) : t.get? id = some (s.get? id) := by
  rw [Table.get?, h.positions, PolicySet.get?, List.find?_eq_bind_findIdx?_getElem?]
  cases hi : s.policies.findIdx? (·.id = id) with
  | none => rfl
  | some i =>
      have hlt : i < s.policies.length := (List.findIdx?_eq_some_iff_findIdx_eq.mp hi).1
      have hfound : t.policies[i]? = some s.policies[i] := by
        rw [← Array.getElem?_toList, h.policies, List.getElem?_eq_getElem hlt]
      simp [hfound]

theorem add_of_mem (h : t.Holds s) {p : Policy} (hp : p.id ∈ s.ids) :
    t.add p = (some (.duplicatePolicyId p.id), t) := by
  rw [Table.add, if_pos (h.contains_iff.mpr hp)]

theorem add_of_not_mem (h : t.Holds s) {p : Policy} (hp : p.id ∉ s.ids) :
    ∃ u, t.add p = (none, u) ∧ u.Holds ⟨s.policies ++ [p], ids_nodup_add hp⟩ := by
  have hnew : ¬ t.positions.contains p.id := fun hc => hp (h.contains_iff.mp hc)
  refine ⟨_, if_neg hnew, ⟨by simp [h.policies], fun id => ?_⟩⟩
  have hsize : t.policies.size = s.policies.length := congrArg List.length h.policies
  simp only [Std.HashMap.getElem?_insert, List.findIdx?_append, List.findIdx?_singleton,
    h.positions, hsize]
  by_cases hid : p.id = id
  · have hnone : s.policies.findIdx? (·.id = id) = none := by
      rw [List.findIdx?_eq_none_iff]
      intro q hq
      exact decide_eq_false fun hqid => hp (hid.trans hqid.symm ▸ List.mem_map_of_mem hq)
    simp [hid, hnone]
  · simp [hid]

end Holds
end Table

section InTurn

variable {σ : Type}

/-- Additions made one after the other, each with its answer, and what they lead to. -/
def inTurn (add : σ → Policy → Option PolicyError × σ) :
    σ → List Policy → List (Policy × Option PolicyError) × σ
  | s, [] => ([], s)
  | s, p :: calls =>
    let (answer, next) := add s p
    let (log, last) := inTurn add next calls
    ((p, answer) :: log, last)

theorem inTurn_cons {add : σ → Policy → Option PolicyError × σ} {s next : σ} {p : Policy}
    {answer : Option PolicyError} (h : add s p = (answer, next)) (calls : List Policy) :
    inTurn add s (p :: calls) =
      ((p, answer) :: (inTurn add next calls).1, (inTurn add next calls).2) := by
  rw [inTurn, h]

/-- The policies whose additions succeeded. -/
def added (log : List (Policy × Option PolicyError)) : List Policy :=
  (log.filter (·.2.isNone)).map Prod.fst

theorem policies_inTurn (s : PolicySet) (calls : List Policy) :
    (inTurn tryAdd s calls).2.policies = s.policies ++ added (inTurn tryAdd s calls).1 := by
  induction calls generalizing s with
  | nil => exact (List.append_nil _).symm
  | cons p calls ih =>
      by_cases hp : p.id ∈ s.ids
      · rw [inTurn_cons (tryAdd_of_mem hp)]
        exact ih s
      · rw [inTurn_cons (tryAdd_of_not_mem hp)]
        exact (ih _).trans (List.append_assoc _ _ _)

/-- The table goes where the set goes, with the same answers. -/
theorem Table.Holds.inTurn {t : Table} {s : PolicySet} (h : t.Holds s) (calls : List Policy) :
    ∃ u, inTurn Table.add t calls = ((inTurn tryAdd s calls).1, u) ∧
      u.Holds (inTurn tryAdd s calls).2 := by
  induction calls generalizing t s with
  | nil => exact ⟨t, rfl, h⟩
  | cons p calls ih =>
      by_cases hp : p.id ∈ s.ids
      · obtain ⟨u, hu, hlast⟩ := ih h
        rw [inTurn_cons (tryAdd_of_mem hp), inTurn_cons (h.add_of_mem hp), hu]
        exact ⟨u, rfl, hlast⟩
      · obtain ⟨next, hadd, hnext⟩ := h.add_of_not_mem hp
        obtain ⟨u, hu, hlast⟩ := ih hnext
        rw [inTurn_cons (tryAdd_of_not_mem hp), inTurn_cons hadd, hu]
        exact ⟨u, rfl, hlast⟩

end InTurn

/-- After additions in turn the ids are distinct, set and table hold just what has
been added, in order, and both find the policy of an id. A further addition fails
just if the id is taken, and then changes nothing. A list of policies forms no set
just if an id is repeated, and the failure names the first policy whose id has been
seen. -/
theorem additions_in_turn (calls : List Policy) :
    (∃ (log : List (Policy × Option PolicyError)) (s : PolicySet) (t : Table),
      inTurn tryAdd empty calls = (log, s) ∧ inTurn Table.add .empty calls = (log, t) ∧
      ((added log).map Policy.id).Nodup ∧
      (s.policies = added log ∧ t.policies.toList = added log) ∧
      (s.size = (added log).length ∧ t.policies.size = (added log).length) ∧
      (∀ id p, s.get? id = some p ↔ p ∈ added log ∧ p.id = id) ∧
      (∀ id, t.get? id = some (s.get? id)) ∧
      (∀ p, p.id ∈ s.ids ↔ s.tryAdd p = (some (.duplicatePolicyId p.id), s) ∧
        t.add p = (some (.duplicatePolicyId p.id), t)) ∧
      ∀ p, p.id ∉ s.ids ↔ (s.tryAdd p).1 = none ∧ (t.add p).1 = none) ∧
    ((∃ x, ofList calls = .error x) ↔ ¬ (calls.map Policy.id).Nodup) ∧
    ∀ x, ofList calls = .error x ↔ ∃ before p after, calls = before ++ p :: after ∧
      (before.map Policy.id).Nodup ∧ p.id ∈ before.map Policy.id ∧
      x = .duplicatePolicyId p.id := by
  refine ⟨?_, exists_ofList_eq_error_iff, fun x => ofList_eq_error_iff⟩
  obtain ⟨t, ht, hholds⟩ := Table.Holds.empty.inTurn calls
  have hadded := policies_inTurn empty calls
  generalize inTurn tryAdd empty calls = run at *
  obtain ⟨log, s⟩ := run
  change s.policies = added log at hadded
  have hpolicies := hholds.policies.trans hadded
  refine ⟨log, s, t, rfl, ht, hadded ▸ s.ids_nodup, ⟨hadded, hpolicies⟩,
    ⟨congrArg List.length hadded, congrArg List.length hpolicies⟩, fun id p => ?_, hholds.get?_eq,
    fun p => ?_, fun p => ?_⟩
  · rw [get?_eq_some_iff, hadded]
  · constructor
    · exact fun hp => ⟨tryAdd_of_mem hp, hholds.add_of_mem hp⟩
    · intro h
      by_contra hp
      rw [tryAdd_of_not_mem hp] at h
      cases h.1
  · constructor
    · intro hp
      obtain ⟨_, hadd, _⟩ := hholds.add_of_not_mem hp
      rw [tryAdd_of_not_mem hp, hadd]
      exact ⟨rfl, rfl⟩
    · intro h hp
      rw [tryAdd_of_mem hp] at h
      cases h.1

end PolicySet
end AccessPolicy
