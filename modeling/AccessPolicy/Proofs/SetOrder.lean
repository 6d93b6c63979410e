import AccessPolicy.Authorization
import AccessPolicy.Proofs.AlikeEvaluation

/-!
Evaluation does not see the order in which the members of a set are kept. With
literals, contexts and attributes replaced by values that equal them, an
expression fails as before or has an equal value, and a policy set has the same
answer up to the texts of its errors.
-/

namespace AccessPolicy

open Fallible (Agree)

/-- The same kind with alike bodies. -/
structure Condition.Alike (c d : Condition) : Prop where
  kind : c.kind = d.kind
  body : c.body.Alike d.body

/-- The same policy up to alike literals in the conditions. -/
structure Policy.Alike (p q : Policy) : Prop where
  id : p.id = q.id
  effect : p.effect = q.effect
  scope : p.scope = q.scope
  conditions : List.Forall₂ Condition.Alike p.conditions q.conditions

/-- The same outcome up to the error. -/
inductive Outcome.Alike : Outcome → Outcome → Prop where
  | satisfied : Alike .satisfied .satisfied
  | notSatisfied : Alike .notSatisfied .notSatisfied
  | errored (x y : EvalError) : Alike (.errored x) (.errored y)

section

variable {env env' : Env} (h : env.Alike env')
include h

theorem Condition.outcome_alike {cs ds : List Condition} (hcs : List.Forall₂ Alike cs ds) :
    (outcome env cs).Alike (outcome env' ds) := by
  induction hcs with
  | nil => exact .satisfied
  | @cons c d cs ds hc _ ih =>
      rw [outcome, outcome, hc.kind]
      refine (Expr.evalBool_agree h hc.body).casesOn (fun hb => ?_) ?_
      · subst hb
        dsimp only
        split
        · exact ih
        · exact .notSatisfied
      · exact .errored

theorem Scope.admits_eq_of_alike (scope : Scope) :
    scope.admits env.store env.request = scope.admits env'.store env'.request := by
  have hadmits (c : Constraint) (uid : Option EntityUid) :
      c.admits env.store uid = c.admits env'.store uid := by
    have hwithin : env.store.isWithin = env'.store.isWithin := by
      funext u v
      exact h.store.isWithin_eq u v
    cases uid with
    | none => cases c <;> rfl
    | some uid => cases c <;> simp only [Constraint.admits, hwithin]
  simp only [admits, hadmits, h.request.principal, h.request.action, h.request.resource]

theorem Policy.outcome_alike {p q : Policy} (hp : p.Alike q) :
    (p.outcome env).Alike (q.outcome env') := by
  rw [outcome, outcome, Scope.admits_eq_of_alike h, hp.scope]
  split
  · exact Condition.outcome_alike h hp.conditions
  · exact .notSatisfied

end

namespace Outcome.Alike

variable {o o' : Outcome} (h : o.Alike o')
include h

theorem isSatisfied_eq : o.isSatisfied = o'.isSatisfied := by
  cases h <;> rfl

theorem error?_isSome_eq : o.error?.isSome = o'.error?.isSome := by
  cases h <;> rfl

end Outcome.Alike

namespace Judged

variable {α : Type}

theorem filter_ids_congr {judged judged' : Judged α} {test : Policy × α → Bool}
    (h : List.Forall₂ (fun j k => j.1.id = k.1.id ∧ test j = test k) judged judged') :
    (judged.filter test).map (·.1.id) = (judged'.filter test).map (·.1.id) := by
  induction h with
  | nil => rfl
  | cons hjk _ ih =>
      rw [List.filter_cons, List.filter_cons, hjk.2]
      split
      · rw [List.map_cons, List.map_cons, hjk.1, ih]
      · exact ih

theorem failures_policyIds (judged : Judged α) (error? : α → Option EvalError) :
    (judged.failures error?).map PolicyFailure.policyId =
      (judged.filter fun j => (error? j.2).isSome).map (·.1.id) := by
  induction judged with
  | nil => rfl
  | cons j judged ih =>
      rw [failures] at ih ⊢
      rw [List.filterMap_cons, List.filter_cons]
      cases error? j.2 with
      | none => simpa using ih
      | some x => simpa using ih

end Judged

/-- The same policies up to alike literals, in the same order. -/
def PolicySet.Alike (s t : PolicySet) : Prop :=
  List.Forall₂ Policy.Alike s.policies t.policies

theorem PolicySet.judge_alike {env env' : Env} (h : env.Alike env') {s t : PolicySet}
    (hst : s.Alike t) :
    List.Forall₂ (fun j k => j.1.Alike k.1 ∧ j.2.Alike k.2)
      (s.judge (Policy.outcome env)) (t.judge (Policy.outcome env')) := by
  rw [judge, judge, List.forall₂_map_left_iff, List.forall₂_map_right_iff]
  exact List.Forall₂.imp (fun p q hp => ⟨hp, Policy.outcome_alike h hp⟩) hst

/-- Replacing literals, the context and attributes by values that equal them
changes no value but to an equal one, and no answer but in the texts of its
errors. -/
theorem eval_authorize_of_alike {env env' : Env} (h : env.Alike env') :
    (∀ e d : Expr, e.Alike d → Agree (fun v w => v == w) (e.eval env) (d.eval env')) ∧
    ∀ s t : PolicySet, s.Alike t →
      (authorize env s).decision = (authorize env' t).decision ∧
      (authorize env s).permits = (authorize env' t).permits ∧
      (authorize env s).forbids = (authorize env' t).forbids ∧
      (authorize env s).errors.map PolicyFailure.policyId =
        (authorize env' t).errors.map PolicyFailure.policyId := by
  refine ⟨fun e d he => (Expr.eval_agree h he).imp fun v w hv => hv.equal, fun s t hst => ?_⟩
  have hjudged := PolicySet.judge_alike h hst
  have hids (effect : Effect) :
      (s.judge (Policy.outcome env)).idsWhere effect Outcome.isSatisfied =
        (t.judge (Policy.outcome env')).idsWhere effect Outcome.isSatisfied := by
    refine Judged.filter_ids_congr (hjudged.imp fun j k hjk => ⟨hjk.1.id, ?_⟩)
    rw [hjk.1.effect, hjk.2.isSatisfied_eq]
  have herrors : ((s.judge (Policy.outcome env)).failures Outcome.error?).map
        PolicyFailure.policyId =
      ((t.judge (Policy.outcome env')).failures Outcome.error?).map PolicyFailure.policyId := by
    rw [Judged.failures_policyIds, Judged.failures_policyIds]
    exact Judged.filter_ids_congr (hjudged.imp fun j k hjk =>
      ⟨hjk.1.id, hjk.2.error?_isSome_eq⟩)
  simp only [authorize, hids, herrors, and_self]

/-- The context and the literal with their members turned round. -/
theorem eval_authorize_of_alike_turned :
    Agree (fun v w => v == w)
      (Expr.eval
        ⟨⟨none, none, none, some [("tags", .set [.string "a", .string "b"])]⟩, .empty, ⟨8⟩⟩
        (.binary .eq (.getAttr (.var .context) "tags")
          (.literal (.set [.string "a", .string "b"]))))
      (Expr.eval
        ⟨⟨none, none, none, some [("tags", .set [.string "b", .string "a"])]⟩, .empty, ⟨8⟩⟩
        (.binary .eq (.getAttr (.var .context) "tags")
          (.literal (.set [.string "b", .string "a"])))) ∧
    (authorize
      ⟨⟨none, none, none, some [("tags", .set [.string "a", .string "b"])]⟩, .empty, ⟨8⟩⟩
      ⟨[{ id := ⟨"tagged"⟩, effect := .permit
          conditions := [⟨.whenTrue, .binary .eq (.getAttr (.var .context) "tags")
            (.literal (.set [.string "a", .string "b"]))⟩] }], by decide⟩).decision =
      (authorize
        ⟨⟨none, none, none, some [("tags", .set [.string "b", .string "a"])]⟩, .empty, ⟨8⟩⟩
        ⟨[{ id := ⟨"tagged"⟩, effect := .permit
            conditions := [⟨.whenTrue, .binary .eq (.getAttr (.var .context) "tags")
              (.literal (.set [.string "b", .string "a"]))⟩] }], by decide⟩).decision := by
  have hset (vs : List Value) (h : ∀ v ∈ vs, v.isScalar) : (Value.setOf vs).SetsDistinct :=
    Value.setOf_setsDistinct fun v hv => .of_isScalar (h v hv)
  have htags : (Value.set [.string "a", .string "b"]).Alike (.set [.string "b", .string "a"]) :=
    ⟨by decide, hset [.string "a", .string "b"] (by decide),
      hset [.string "b", .string "a"] (by decide)⟩
  have henv : Env.Alike
      ⟨⟨none, none, none, some [("tags", .set [.string "a", .string "b"])]⟩, .empty, ⟨8⟩⟩
      ⟨⟨none, none, none, some [("tags", .set [.string "b", .string "a"])]⟩, .empty, ⟨8⟩⟩ :=
    ⟨⟨rfl, rfl, rfl, .some (.cons ⟨rfl, htags⟩ .nil)⟩, fun _ => .none, rfl⟩
  have hbody : Expr.Alike
      (.binary .eq (.getAttr (.var .context) "tags")
        (.literal (.set [.string "a", .string "b"])))
      (.binary .eq (.getAttr (.var .context) "tags")
        (.literal (.set [.string "b", .string "a"]))) :=
    .binary .eq (.getAttr (.var .context) "tags") (.literal htags)
  refine ⟨(eval_authorize_of_alike henv).1 _ _ hbody, ?_⟩
  refine ((eval_authorize_of_alike henv).2 _ _ ?_).1
  exact .cons ⟨rfl, rfl, rfl, .cons ⟨rfl, hbody⟩ .nil⟩ .nil

end AccessPolicy
