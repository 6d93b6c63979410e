import AccessPolicy.Store

/-!
The graph of parents of a list of entities, as relations between uids. A uid
without an entity has no parents, but may be one.
-/

namespace AccessPolicy
namespace Store

/-- An entity with the first uid has the second one among its parents. -/
def IsParent (entities : List Entity) (u v : EntityUid) : Prop :=
  ∃ e ∈ entities, e.uid = u ∧ v ∈ e.parents

/-- One or more edges lead from the first uid to the second. -/
inductive IsAncestor (entities : List Entity) : EntityUid → EntityUid → Prop where
  | parent {u v : EntityUid} (edge : IsParent entities u v) : IsAncestor entities u v
  | step {u v w : EntityUid} (edge : IsParent entities u v) (rest : IsAncestor entities v w) :
      IsAncestor entities u w

theorem IsAncestor.trans {entities : List Entity} {u v w : EntityUid}
    (huv : IsAncestor entities u v) (hvw : IsAncestor entities v w) :
    IsAncestor entities u w := by
  induction huv with
  | parent edge => exact .step edge hvw
  | step edge _ ih => exact .step edge (ih hvw)

end Store
end AccessPolicy
