import AccessPolicy.UidSet
import AccessPolicy.Value

/-!
Entities: nodes of the graph of parents, with attributes.
-/

namespace AccessPolicy

/-- Inside a store that is closed under ancestry, `parents` holds every
ancestor. -/
structure Entity where
  uid : EntityUid
  attrs : Record
  parents : UidSet

namespace Entity

def attr? (e : Entity) (name : String) : Option Value :=
  e.attrs.find? name

end Entity
end AccessPolicy
