import AccessPolicy.EntityUid

/-!
The failures of everything around evaluation: policy sets, entity stores and
the reading of uids, with the text of each.
-/

namespace AccessPolicy

/-- The identifier of a policy. -/
structure PolicyId where
  name : String
deriving DecidableEq, Repr

inductive PolicyError where
  | lock (detail : String)
  | poisonedLock (detail : String)
  | duplicatePolicyId (id : PolicyId)
  | entity (detail : String)
  | invalidFormat (detail : String)
deriving DecidableEq, Repr

namespace PolicyError

def message : PolicyError → String
  | .lock detail => "failed to lock policy set for read/write: " ++ detail
  | .poisonedLock detail => "Poisoned lock error: " ++ detail
  | .duplicatePolicyId id => "duplicate policy id: " ++ id.name
  | .entity detail => "Entity error: " ++ detail
  | .invalidFormat detail => "Invalid format: " ++ detail

/-- Two entities of a store have the same uid. -/
def duplicateEntity (uid : EntityUid) : PolicyError :=
  .entity ("duplicate entity uid: " ++ uid.text)

/-- A text is no uid. -/
def ofUidFault (text : String) (fault : EntityUid.Fault) : PolicyError :=
  .invalidFormat (fault.message text)

end PolicyError
end AccessPolicy
