import AccessPolicy.Policy

/-!
Sets of policies with distinct ids, in the order in which they were added.
-/

namespace AccessPolicy

structure PolicySet where
  policies : List Policy
  ids_nodup : (policies.map Policy.id).Nodup

namespace PolicySet

def empty : PolicySet := ⟨[], .nil⟩

instance : Inhabited PolicySet := ⟨empty⟩

def size (s : PolicySet) : Nat := s.policies.length

def isEmpty (s : PolicySet) : Bool := s.policies.isEmpty

def ids (s : PolicySet) : List PolicyId := s.policies.map Policy.id

def get? (s : PolicySet) (id : PolicyId) : Option Policy :=
  s.policies.find? (·.id = id)

theorem ids_nodup_add {s : PolicySet} {p : Policy} (h : p.id ∉ s.ids) :
    ((s.policies ++ [p]).map Policy.id).Nodup := by
  rw [List.map_append, List.map_singleton]
  exact List.nodup_append.mpr ⟨s.ids_nodup, by simp, fun a ha b hb => by
    rw [List.mem_singleton.mp hb]
    rintro rfl
    exact h ha⟩

/-- Adds a policy after the others, unless its id is taken. -/
def add (s : PolicySet) (p : Policy) : Except PolicyError PolicySet :=
  if h : p.id ∈ s.ids then .error (.duplicatePolicyId p.id)
  else .ok ⟨s.policies ++ [p], ids_nodup_add h⟩

/-- The set of the given policies, whose ids have to be distinct. -/
def ofList (policies : List Policy) : Except PolicyError PolicySet :=
  policies.foldlM add empty

end PolicySet
end AccessPolicy
