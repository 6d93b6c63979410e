import AccessPolicy.Outcome
import AccessPolicy.PolicySet

/-!
Listings: the policies of a set whose principal constraint admits a given
principal, each with the kind of constraint that admits it.
-/

namespace AccessPolicy

/-- The kind of principal constraint that admits a principal. -/
inductive MatchReason where
  | principalEq | principalIn | principalAny | principalIs | principalIsIn
deriving DecidableEq, Repr

namespace MatchReason

def all : List MatchReason :=
  [.principalEq, .principalIn, .principalAny, .principalIs, .principalIsIn]

def name : MatchReason → String
  | .principalEq => "principal_eq"
  | .principalIn => "principal_in"
  | .principalAny => "principal_any"
  | .principalIs => "principal_is"
  | .principalIsIn => "principal_is_in"

def ofName? (name : String) : Option MatchReason :=
  all.find? (·.name == name)

/-- The reason that a constraint gives when it admits. -/
def ofConstraint : Constraint → MatchReason
  | .any => .principalAny
  | .eq _ => .principalEq
  | .isIn _ | .inSet _ => .principalIn
  | .is _ => .principalIs
  | .isTypeIn _ _ => .principalIsIn

end MatchReason

/-- Which effects a listing is about. -/
inductive EffectFilter where
  | any | permit | forbid
deriving DecidableEq, Repr

namespace EffectFilter

def all : List EffectFilter := [.any, .permit, .forbid]

def name : EffectFilter → String
  | .any => "any"
  | .permit => "permit"
  | .forbid => "forbid"

def ofName? (name : String) : Option EffectFilter :=
  all.find? (·.name == name)

def admits : EffectFilter → Effect → Bool
  | .any, _ => true
  | .permit, e => e = .permit
  | .forbid, e => e = .forbid

end EffectFilter

structure PolicyMatch where
  policy : Policy
  reason : MatchReason

structure Listing where
  principal : EntityUid
  entries : List PolicyMatch

namespace Constraint

/-- The uids that a constraint compares with. -/
def targets : Constraint → List EntityUid
  | .eq uid | .isIn uid => [uid]
  | .inSet uids => uids
  | _ => []

end Constraint

namespace Listing

def ids (l : Listing) : List PolicyId := l.entries.map (·.policy.id)

/-- The actions that the listed policies name, as they come. -/
def namedActions (l : Listing) : List EntityUid :=
  l.entries.flatMap fun m => m.policy.scope.action.targets

/-- The named actions sorted and without the repeats, which then are neighbours. -/
def sortedActions (l : Listing) : List EntityUid :=
  (EntityUid.sort l.namedActions).eraseReps

theorem increasing_sortedActions (l : Listing) : l.sortedActions.Pairwise (· < ·) :=
  increasing_eraseReps (EntityUid.sort_ordered l.namedActions)

/-- The sorted actions as the set that they are. -/
def actions (l : Listing) : UidSet :=
  ⟨l.sortedActions, l.increasing_sortedActions⟩

end Listing

namespace PolicySet

/-- The match of a policy whose principal constraint admits the principal. -/
def match? (store : Store) (principal : EntityUid) (p : Policy) : Option PolicyMatch :=
  if p.scope.principal.admits store (some principal) then
    some ⟨p, .ofConstraint p.scope.principal⟩
  else
    none

/-- The policies for a principal, in the order of the set. -/
def listFor (s : PolicySet) (store : Store) (principal : EntityUid) (filter : EffectFilter) :
    Listing :=
  ⟨principal, (s.policies.filter (filter.admits ·.effect)).filterMap (match? store principal)⟩

end PolicySet
end AccessPolicy
