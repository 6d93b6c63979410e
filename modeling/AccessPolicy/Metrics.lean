/-!
What an engine reports to a metrics sink.
-/

namespace AccessPolicy
namespace Metrics

/-- An evaluation is reported with the texts of its principal and its action,
and then by its phases; a reload is reported with the size of the new set. -/
inductive Event where
  | evaluation (allowed : Bool) (principal action : String) (errors : Nat)
  | phases (allowed : Bool)
  | reload (policies : Nat)
deriving DecidableEq, Repr

/-- The milliseconds that the phases of an evaluation took. -/
structure Phases where
  lock : Float
  authorize : Float
  total : Float

/-- The time outside the measured phases. -/
def Phases.overhead (p : Phases) : Float :=
  p.total - (p.lock + p.authorize)

end Metrics
end AccessPolicy
