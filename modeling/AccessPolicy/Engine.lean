import AccessPolicy.Authorization
import AccessPolicy.Listing
import AccessPolicy.Metrics

/-!
Engines and their handles. An engine holds the policy set that was installed
last; all handles cloned from one another share an engine, while each has
limits of its own. The first metrics sink that is set receives every event; a
later one is ignored.
-/

namespace AccessPolicy
namespace Engine

/-- A handle names its engine by number. -/
structure Handle where
  engine : Nat
  limits : Limits
deriving DecidableEq, Repr

/-- The engines by number, the handles by name, and the sink. -/
structure State where
  installed : List PolicySet
  handles : List (String × Handle)
  sink : Option Nat

/-- What can be asked of a handle. -/
inductive Call where
  | setLimits (limits : Limits)
  | limits
  | policies
  | reload (policies : List Policy)
  | evaluate (request : Request) (store : Store)
  | evaluatePartial (request : Request) (store : Store)
  | list (principal : EntityUid) (store : Store) (filter : EffectFilter)

inductive Command where
  | create (handle : String) (policies : List Policy) (limits : Limits)
  | clone (handle source : String)
  | setSink (sink : Nat)
  | call (handle : String) (call : Call)

inductive Reply where
  | done
  | limits (limits : Limits)
  | policies (policies : List Policy)
  | response (response : Response)
  | partialResponse (response : PartialResponse)
  | listing (listing : Listing)
  | failed (error : PolicyError)
  | noHandle

/-- What a command leads to. -/
structure Step where
  state : State
  reply : Reply
  events : List Metrics.Event := []

namespace State

def empty : State := ⟨[], [], none⟩

def handle? (s : State) (name : String) : Option Handle :=
  s.handles.lookup name

/-- Gives a name to a handle, in place of an earlier one. -/
def setHandle (s : State) (name : String) (h : Handle) : State :=
  { s with handles := (name, h) :: s.handles }

/-- The policy set installed last in an engine. -/
def policySet (s : State) (engine : Nat) : PolicySet :=
  s.installed.getD engine .empty

def install (s : State) (engine : Nat) (policies : PolicySet) : State :=
  { s with installed := s.installed.set engine policies }

/-- The report of an evaluation. -/
def evaluationEvents (request : Request) (allowed : Bool) (errors : Nat) :
    List Metrics.Event :=
  [.evaluation allowed (Request.slotText request.principal) (Request.slotText request.action)
      errors,
    .phases allowed]

/-- The environment of an evaluation through a handle. -/
def env (h : Handle) (request : Request) (store : Store) : Env :=
  ⟨request, store, h.limits⟩

def runCall (s : State) (name : String) (h : Handle) : Call → Step
  | .setLimits limits => ⟨s.setHandle name { h with limits }, .done, []⟩
  | .limits => ⟨s, .limits h.limits, []⟩
  | .policies => ⟨s, .policies (s.policySet h.engine).policies, []⟩
  | .reload policies =>
    match PolicySet.ofList policies with
    | .ok set => ⟨s.install h.engine set, .done, [.reload set.size]⟩
    | .error x => ⟨s, .failed x, []⟩
  | .evaluate request store =>
    let response := authorize (env h request store) (s.policySet h.engine)
    ⟨s, .response response, evaluationEvents request response.isAllowed response.errors.length⟩
  | .evaluatePartial request store =>
    let response := authorizePartial (env h request store) (s.policySet h.engine)
    ⟨s, .partialResponse response,
      evaluationEvents request (response.decision = some .allow) response.errors.length⟩
  | .list principal store filter =>
    ⟨s, .listing ((s.policySet h.engine).listFor store principal filter), []⟩

def run (s : State) : Command → Step
  | .create name policies limits =>
    match PolicySet.ofList policies with
    | .ok set =>
      let s := { s with installed := s.installed ++ [set] }
      ⟨s.setHandle name ⟨s.installed.length - 1, limits⟩, .done, []⟩
    | .error x => ⟨s, .failed x, []⟩
  | .clone name source =>
    match s.handle? source with
    | some h => ⟨s.setHandle name h, .done, []⟩
    | none => ⟨s, .noHandle, []⟩
  | .setSink sink => ⟨{ s with sink := s.sink.or (some sink) }, .done, []⟩
  | .call name call =>
    match s.handle? name with
    | some h => s.runCall name h call
    | none => ⟨s, .noHandle, []⟩

/-- The events of a step that a sink receives. -/
def received (sink : Nat) (step : Step) : List Metrics.Event :=
  if step.state.sink = some sink then step.events else []

end State
end Engine
end AccessPolicy
