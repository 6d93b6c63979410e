import AccessPolicy.Proofs.OperationFailures
import AccessPolicy.Proofs.ResidualConditions

/-!
The depth limit and the depth of expressions. An expression that is no deeper
than the limit never runs into it, the failure of one that does names the limit,
and a larger limit changes nothing but such failures. The outcome of a policy
depends on the limit in the same way, since it evaluates its conditions in turn.
-/

namespace AccessPolicy

open Fallible (Raises)

namespace Expr

/-- Where evaluation finds an expression too deep, it names its own limit, and
the expression is at least as deep as the budget. -/
theorem evalWithin_raises (env : Env) (n : Nat) (e : Expr) :
    Raises (fun z => z.IsCutoff → z = env.tooDeep ∧ n ≤ e.depth) (evalWithin env n e) := by
  induction n generalizing e with
  | zero => exact .error fun _ => ⟨rfl, Nat.zero_le _⟩
  | succ n ih =>
      rw [evalWithin_succ]
      refine Plan.run_raises (plan_raisesOnly ?_ env.store e) fun d hd => ?_
      · exact fun z hz hcut => absurd hcut hz
      refine (ih d).imp fun z hz hcut => ?_
      obtain ⟨hlimit, hdepth⟩ := hz hcut
      exact ⟨hlimit, Nat.lt_of_le_of_lt hdepth (depth_child_lt (mem_children_of_plan hd))⟩

theorem eval_of_tooDeep {env : Env} {e : Expr} (h : TooDeep (e.eval env)) :
    e.eval env = .error env.tooDeep ∧ env.limits.maxDepth < e.depth := by
  obtain ⟨max, hmax⟩ := h
  obtain ⟨hlimit, hdepth⟩ := evalWithin_raises env env.budget e _ hmax trivial
  exact ⟨hmax.trans (congrArg Except.error hlimit), hdepth⟩

theorem evalBool_raises (env : Env) (e : Expr) :
    Raises (fun z => z.IsCutoff → z = env.tooDeep) (e.evalBool env) := by
  refine ((evalWithin_raises env env.budget e).imp fun z hz hcut => (hz hcut).1).bind fun v => ?_
  exact Value.Cast.bool.raises (fun z hz hcut => absurd hcut hz) v

end Expr

theorem Policy.outcome_of_tooDeep {env : Env} {p : Policy} (h : (p.outcome env).TooDeep) :
    p.outcome env = .errored env.tooDeep := by
  rw [outcome_eq_ofHolds] at h ⊢
  obtain ⟨max, hmax⟩ := Outcome.ofHolds_tooDeep_iff.mp h
  rw [hmax]
  split at hmax
  · have htests : Raises (fun z => z.IsCutoff → z = env.tooDeep)
        (allHold (Condition.isMet env) p.conditions) :=
      allHold_raises fun c _ => (Expr.evalBool_raises env c.body).map _
    rw [htests _ hmax trivial]
    rfl
  · cases hmax

section

variable (r : Request) (store : Store) {low high : Limits} (h : low.maxDepth ≤ high.maxDepth)
include h

theorem Expr.eval_approximates (e : Expr) :
    Approximates (e.eval ⟨r, store, low⟩) (e.eval ⟨r, store, high⟩) :=
  have hr : (Env.mk r store high).request = (Env.mk r store low).request := rfl
  evalWithin_approximates hr rfl (Nat.succ_le_succ h) e

theorem Policy.outcome_approximates {p : Policy} (hp : ¬ (p.outcome ⟨r, store, low⟩).TooDeep) :
    p.outcome ⟨r, store, high⟩ = p.outcome ⟨r, store, low⟩ := by
  have htests : Approximates (allHold (Condition.isMet ⟨r, store, low⟩) p.conditions)
      (allHold (Condition.isMet ⟨r, store, high⟩) p.conditions) := by
    refine .allHold fun c _ => Approximates.map ?_ _
    exact (c.body.eval_approximates r store h).bind fun _ _ => .refl _
  rw [outcome_eq_ofHolds, Outcome.ofHolds_tooDeep_iff] at hp
  rw [outcome_eq_ofHolds, outcome_eq_ofHolds]
  split
  · next hscope =>
    rw [if_pos hscope] at hp
    rw [htests.eq_of_not_tooDeep hp]
  · rfl

/-- The depth limit only cuts off: raising it changes no result but the failure
that names it, and an expression that fits into it has no such failure. -/
theorem depth_limit_cuts_off :
    (∀ e : Expr, ¬ TooDeep (e.eval ⟨r, store, low⟩) →
      e.eval ⟨r, store, high⟩ = e.eval ⟨r, store, low⟩) ∧
    (∀ e : Expr, e.depth ≤ low.maxDepth → ¬ TooDeep (e.eval ⟨r, store, low⟩)) ∧
    (∀ (e : Expr) (max : Nat), e.eval ⟨r, store, low⟩ = .error (.recursionLimit max) →
      max = low.maxDepth) ∧
    ∀ p : Policy, p.outcome ⟨r, store, high⟩ ≠ p.outcome ⟨r, store, low⟩ →
      p.outcome ⟨r, store, low⟩ = .errored (.recursionLimit low.maxDepth) := by
  refine ⟨fun e hlow => ?_, fun e hdepth hlow => ?_, fun e max hmax => ?_, fun p hne => ?_⟩
  · exact (e.eval_approximates r store h).eq_of_not_tooDeep hlow
  · exact Nat.not_lt.mpr hdepth (Expr.eval_of_tooDeep hlow).2
  · have hlimit := (Expr.eval_of_tooDeep ⟨max, hmax⟩).1
    rw [hmax] at hlimit
    exact EvalError.recursionLimit.inj (Except.error.inj hlimit)
  · by_cases hlow : (p.outcome ⟨r, store, low⟩).TooDeep
    · exact Policy.outcome_of_tooDeep hlow
    · exact absurd (Policy.outcome_approximates r store h hlow) hne

end

/-- A policy that one more level of depth lets through. -/
theorem depth_limit_cuts_off_negation :
    (Limits.mk 1).maxDepth ≤ (Limits.mk 2).maxDepth ∧
    Policy.outcome ⟨.unknown, .empty, ⟨2⟩⟩
        { id := ⟨"p"⟩, effect := .permit, conditions := [⟨.whenTrue, .not (.not (.bool true))⟩] } =
      .satisfied ∧
    Policy.outcome ⟨.unknown, .empty, ⟨1⟩⟩
        { id := ⟨"p"⟩, effect := .permit, conditions := [⟨.whenTrue, .not (.not (.bool true))⟩] } =
      .errored (.recursionLimit 1) := by
  have h : (Limits.mk 1).maxDepth ≤ (Limits.mk 2).maxDepth := Nat.le_succ 1
  exact ⟨h, rfl, (depth_limit_cuts_off .unknown .empty h).2.2.2 _ nofun⟩

end AccessPolicy
