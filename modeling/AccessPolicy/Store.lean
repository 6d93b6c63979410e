import AccessPolicy.Entity
import AccessPolicy.PolicyError

/-!
Entity stores. A closed store is built from entities with their direct parents
and replaces these by all ancestors, so that ancestry is a membership test. The
edges may form cycles and may lead to uids that have no entity. Its entities
are in the order of their uids, whatever order they came in.
-/

namespace AccessPolicy

structure Store where
  entities : List Entity

namespace Store

def empty : Store := ⟨[]⟩

instance : Inhabited Store := ⟨empty⟩

/-- The first entity with this uid. -/
def find? (s : Store) (uid : EntityUid) : Option Entity :=
  s.entities.find? (·.uid = uid)

/-- The ancestors of an entity of the store. -/
def ancestors? (s : Store) (uid : EntityUid) : Option UidSet :=
  (s.find? uid).map Entity.parents

/-- A uid is within itself and, if the store has an entity for it, within the
ancestors of that entity. -/
def isWithin (s : Store) (uid parent : EntityUid) : Bool :=
  decide (uid = parent) || (s.ancestors? uid).any (·.contains parent)

/-- The first uid that occurs earlier in the list. -/
def firstDuplicate? (seen : List EntityUid) : List EntityUid → Option EntityUid
  | [] => none
  | u :: us => if u ∈ seen then some u else firstDuplicate? (u :: seen) us

/-- The parents of the entity with this uid; a uid without an entity has none. -/
def parentsOf (entities : List Entity) (u : EntityUid) : List EntityUid :=
  match entities.find? (·.uid = u) with
  | some e => e.parents.toList
  | none => []

/-- The entities whose uids have not been found. -/
def unfound (entities : List Entity) (found : UidSet) : List Entity :=
  entities.filter (·.uid ∉ found)

theorem unfound_insert (entities : List Entity) (found : UidSet) (u : EntityUid) :
    unfound entities (found.insert u) = (unfound entities found).filter (·.uid ≠ u) := by
  simp [unfound, List.filter_filter]

/-- A uid that is found leaves fewer entities to find, or has no parents. -/
theorem unfound_insert_decreases (entities : List Entity) {found : UidSet} {u : EntityUid}
    (hu : u ∉ found) (work : List EntityUid) :
    Prod.Lex (· < ·) (· < ·)
      ((unfound entities (found.insert u)).length, (parentsOf entities u ++ work).length)
      ((unfound entities found).length, (u :: work).length) := by
  rw [unfound_insert]
  cases h : entities.find? (·.uid = u) with
  | none =>
    rw [parentsOf, h]
    exact Prod.Lex.right' _ (List.length_filter_le _ _) (Nat.lt_succ_self _)
  | some e =>
    have he : e.uid = u := by simpa using List.find?_some h
    refine Prod.Lex.left _ _ (List.length_filter_lt_length_iff_exists.mpr ⟨e, ?_, by simp [he]⟩)
    exact List.mem_filter.mpr ⟨List.mem_of_find?_eq_some h, by simpa [he] using hu⟩

/-- Adds to `found` what the work list leads to. Uids that have been found are
passed over, and so is the uid of the entity from which the search started. -/
def reach (entities : List Entity) (start : EntityUid) (found : UidSet) :
    List EntityUid → UidSet
  | [] => found
  | u :: work =>
    if _hu : u = start ∨ u ∈ found then reach entities start found work
    else reach entities start (found.insert u) (parentsOf entities u ++ work)
termination_by work => ((unfound entities found).length, work.length)
decreasing_by
  · exact Prod.Lex.right _ (Nat.lt_succ_self _)
  · exact unfound_insert_decreases entities (fun h => _hu (.inr h)) work

/-- Every uid to which edges lead from the entity, without the entity itself. -/
def closure (entities : List Entity) (e : Entity) : UidSet :=
  reach entities e.uid ∅ (parentsOf entities e.uid)

/-- Puts an entity among entities that are in the order of their uids. -/
def insertSorted (e : Entity) : List Entity → List Entity
  | [] => [e]
  | f :: fs => if e.uid < f.uid then e :: f :: fs else f :: insertSorted e fs

/-- The closed store of the given entities, whose uids have to be distinct. -/
def ofList (entities : List Entity) : Except PolicyError Store :=
  match firstDuplicate? [] (entities.map Entity.uid) with
  | some uid => .error (.duplicateEntity uid)
  | none =>
    let closed := entities.map fun e => { e with parents := closure entities e }
    .ok ⟨closed.foldr insertSorted []⟩

/-- A store that takes the parents of each entity as its ancestors. -/
def flat (entities : List Entity) : Store := ⟨entities⟩

end Store
end AccessPolicy
