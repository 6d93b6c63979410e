import Mathlib.Data.Set.List
import AccessPolicy.Proofs.EvaluationDepth
import AccessPolicy.Proofs.PolicyOutcome
import AccessPolicy.Proofs.ValueEquality

/-!
What the expressions say that a residual condition is made of. The expression
of a constraint is true of an entity that meets the constraint, the clause of a
condition is true of a body that meets the condition, and a conjunction goes
through its members in turn and stops at the first that is false or fails.
-/

namespace AccessPolicy

/-- Tests the members of a list in turn, up to the first that does not pass. -/
def allHold {α : Type} (test : α → Except EvalError Bool) : List α → Except EvalError Bool
  | [] => .ok true
  | a :: as => do if ← test a then allHold test as else return false

section

variable {α β : Type} {f : α → Except EvalError Bool} {g : β → Except EvalError Bool}

theorem allHold_singleton (a : α) : allHold f [a] = f a := by
  rw [allHold]
  cases f a with
  | error x => rfl
  | ok b => cases b <;> rfl

theorem allHold_append (as bs : List α) :
    allHold f (as ++ bs) = do if ← allHold f as then allHold f bs else return false := by
  induction as with
  | nil => rfl
  | cons a as ih =>
      rw [List.cons_append, allHold, allHold, ih]
      cases f a with
      | error x => rfl
      | ok b => cases b <;> rfl

theorem Approximates.allHold_cons {a : α} {b : β} {as : List α} {bs : List β}
    (hab : Approximates (f a) (g b)) (h : Approximates (allHold f as) (allHold g bs)) :
    Approximates (allHold f (a :: as)) (allHold g (b :: bs)) := by
  apply hab.bind
  intro t _
  cases t with
  | true => exact h
  | false => exact .refl _

theorem Approximates.allHold {g : α → Except EvalError Bool} {as : List α}
    (h : ∀ a ∈ as, Approximates (f a) (g a)) : Approximates (allHold f as) (allHold g as) := by
  induction as with
  | nil => exact .refl _
  | cons a as ih =>
      obtain ⟨ha, has⟩ := List.forall_mem_cons.mp h
      exact ha.allHold_cons (ih has)

theorem allHold_raises {P : EvalError → Prop} {as : List α}
    (h : ∀ a ∈ as, Fallible.Raises P (f a)) : Fallible.Raises P (allHold f as) := by
  induction as with
  | nil => exact .ok _
  | cons a as ih =>
      obtain ⟨ha, has⟩ := List.forall_mem_cons.mp h
      refine ha.bind fun t => ?_
      cases t with
      | true => exact ih has
      | false => exact .ok _

end

namespace Value

theorem contains_entity_iff {us : List EntityUid} {u : EntityUid} :
    contains (us.map entity) (.entity u) ↔ u ∈ us := by
  have hbeq (v : EntityUid) : (Value.entity u == .entity v) = decide (u = v) := by
    change (u == v) = _
    exact Bool.beq_eq_decide_eq u v
  simp [contains, hbeq]

theorem distinct_entities (us : List EntityUid) :
    ∃ vs : List EntityUid, distinct (us.map entity) = vs.map entity ∧ ∀ u, u ∈ vs ↔ u ∈ us := by
  have hrange : distinct (us.map entity) ∈ Set.range (List.map entity) := by
    rw [Set.range_list_map]
    intro v hv
    obtain ⟨u, -, hu⟩ := List.mem_map.mp (mem_of_mem_distinct hv)
    exact ⟨u, hu⟩
  obtain ⟨vs, hvs⟩ := hrange
  refine ⟨vs, hvs.symm, fun u => ?_⟩
  rw [← contains_entity_iff, hvs, contains_distinct_iff, contains_entity_iff]

theorem mapM_asEntity (us : List EntityUid) : (us.map entity).mapM asEntity = .ok us := by
  rw [Fallible.mapM_eq_ok_iff, List.forall₂_map_left_iff]
  exact List.forall₂_same.mpr fun u _ => rfl

theorem entityIn_setOf (store : Store) (uid : EntityUid) (us : List EntityUid) :
    entityIn store (.entity uid) (setOf (us.map entity)) = .ok (us.any (store.isWithin uid)) := by
  obtain ⟨vs, hvs, hmem⟩ := distinct_entities us
  have hany : vs.any (store.isWithin uid) = us.any (store.isWithin uid) := by
    rw [Bool.eq_iff_iff]
    simp only [List.any_eq_true, hmem]
  rw [setOf, hvs, entityIn, asEntity, Fallible.ok_bind]
  dsimp only
  rw [mapM_asEntity, Fallible.ok_bind, hany]
  rfl

end Value

namespace Expr

/-- The value, under a depth budget, of an expression that has to be Boolean. -/
def evalBoolWithin (env : Env) (n : Nat) (e : Expr) : Except EvalError Bool := do
  (← e.evalWithin env n).asBool

theorem evalBoolWithin_approximates {env env' : Env} (hr : env'.request = env.request)
    (hs : env'.store = env.store) {n m : Nat} (h : n ≤ m) (e : Expr) :
    Approximates (evalBoolWithin env n e) (evalBoolWithin env' m e) :=
  (evalWithin_approximates hr hs h e).bind fun _ _ => .refl _

theorem evalBoolWithin_and (env : Env) (n : Nat) (d e : Expr) :
    evalBoolWithin env (n + 1) (.and d e) = allHold (evalBoolWithin env n) [d, e] := by
  simp only [evalBoolWithin, evalWithin, allHold, bind_assoc]
  cases evalWithin env n d with
  | error x => rfl
  | ok v =>
      simp only [Fallible.ok_bind]
      cases v.asBool with
      | error x => rfl
      | ok b =>
          cases b with
          | false => rfl
          | true =>
              cases evalWithin env n e with
              | error x => rfl
              | ok w =>
                  simp only [Fallible.ok_bind]
                  cases w.asBool with
                  | error x => rfl
                  | ok b => cases b <;> rfl

theorem evalBoolWithin_not (env : Env) (n : Nat) (e : Expr) :
    evalBoolWithin env (n + 1) e.not = (!·) <$> evalBoolWithin env n e := by
  simp only [evalBoolWithin, not, evalWithin, Value.applyUnary]
  cases evalWithin env n e with
  | error x => rfl
  | ok v =>
      simp only [Fallible.ok_bind]
      cases v.asBool <;> rfl

theorem allHold_and_approximates (env : Env) (n : Nat) (d e : Expr) (es : List Expr) :
    Approximates (allHold (evalBoolWithin env n) (.and d e :: es))
      (allHold (evalBoolWithin env n) (d :: e :: es)) := by
  cases n with
  | zero => exact .inl ⟨_, rfl⟩
  | succ n =>
      have hmember (c : Expr) :
          Approximates (evalBoolWithin env n c) (evalBoolWithin env (n + 1) c) :=
        evalBoolWithin_approximates rfl rfl n.le_succ c
      have hpair : Approximates (allHold (evalBoolWithin env n) [d, e])
          (allHold (evalBoolWithin env (n + 1)) [d, e]) :=
        .allHold_cons (hmember d) (.allHold_cons (hmember e) (.refl _))
      have hlist : d :: e :: es = [d, e] ++ es := rfl
      rw [allHold, evalBoolWithin_and, hlist, allHold_append]
      exact hpair.bind fun b _ => .refl _

/-- The members may run out of budget later than the conjunction does. -/
theorem conjunction_approximates (env env' : Env) (hr : env'.request = env.request)
    (hs : env'.store = env.store) {n m : Nat} (h : n ≤ m) (es : List Expr) :
    Approximates (evalBoolWithin env n (conjunction es)) (allHold (evalBoolWithin env' m) es) := by
  cases es with
  | nil =>
      cases n with
      | zero => exact .inl ⟨_, rfl⟩
      | succ n => exact .refl _
  | cons e es =>
      rw [conjunction]
      induction es generalizing e with
      | nil =>
          rw [List.foldl_nil, allHold_singleton]
          exact evalBoolWithin_approximates hr hs h e
      | cons d es ih =>
          rw [List.foldl_cons]
          exact (ih (.and e d)).trans (allHold_and_approximates env' m e d es)

end Expr
/-- The expression of a constraint says that the constraint is met. -/
theorem Constraint.evalBoolWithin_toExpr? {env : Env} {var : Var} {uid : EntityUid}
    (hslot : env.request.entitySlot var = some uid) {c : Constraint} {e : Expr}
    (h : c.toExpr? var = some e) (n : Nat) :
    Expr.evalBoolWithin env (n + 2) e = .ok (c.admits env.store (some uid)) := by
  have hvar : Expr.evalWithin env (n + 1) (.var var) = .ok (.entity uid) := by
    rw [Expr.evalWithin, Request.lookup, Request.get?_of_entitySlot hslot]
  have hliteral (v : Value) : Expr.evalWithin env (n + 1) (.literal v) = .ok v := rfl
  cases c with
  | any => cases h
  | eq target | isIn target =>
      cases h
      rw [Expr.evalBoolWithin, Expr.evalWithin, hvar]
      rfl
  | inSet targets =>
      cases h
      rw [Expr.evalBoolWithin, Expr.evalWithin, hvar, hliteral, Fallible.ok_bind, Fallible.ok_bind,
        Value.applyBinary, Value.entityIn_setOf]
      rfl
  | is type =>
      cases h
      rw [Expr.evalBoolWithin, Expr.evalWithin, hvar]
      rfl
  | isTypeIn type target =>
      cases h
      have htype : (Value.entity uid).isType type = .ok (uid.type == type) := rfl
      rw [Expr.evalBoolWithin, Expr.evalWithin, hvar, Fallible.ok_bind, htype, admits]
      cases uid.type == type <;> rfl

/-- Wherever the slot is known, the expression of a constraint has a value, which
says whether the entity meets the constraint. The only constraint without an
expression is the one that every slot meets, known or not. -/
theorem Constraint.toExpr?_denotes {env : Env} {var : Var} {uid : EntityUid}
    (hslot : env.request.entitySlot var = some uid) (hdepth : 1 ≤ env.limits.maxDepth)
    (c : Constraint) :
    (∀ e, c.toExpr? var = some e → e.eval env = .ok (.bool (c.admits env.store (some uid)))) ∧
    (c.toExpr? var = none ↔ c = .any) ∧
    ∀ slot, Constraint.any.admits env.store slot := by
  refine ⟨fun e he => ?_, toExpr?_eq_none_iff, fun slot => rfl⟩
  have hbudget : env.budget = env.limits.maxDepth - 1 + 2 := by
    rw [Env.budget]
    omega
  have hbool : Expr.evalBoolWithin env env.budget e = .ok (c.admits env.store (some uid)) := by
    rw [hbudget]
    exact evalBoolWithin_toExpr? hslot he _
  obtain ⟨v, hv, hb⟩ := Fallible.eq_ok_of_bind hbool
  rw [Expr.eval, hv, Value.asBool_eq_ok_iff.mp hb]

/-- A member of one team against a list that names another team twice. -/
theorem Constraint.toExpr?_denotes_inSet :
    Expr.eval ⟨⟨some ⟨⟨"User"⟩, "alice"⟩, none, none, none⟩,
        .flat [⟨⟨⟨"User"⟩, "alice"⟩, [], .ofList [⟨⟨"Team"⟩, "ops"⟩]⟩], ⟨1⟩⟩
        (.binary .isIn (.var .principal) (.literal (.setOf
          [.entity ⟨⟨"Team"⟩, "web"⟩, .entity ⟨⟨"Team"⟩, "web"⟩, .entity ⟨⟨"Team"⟩, "ops"⟩]))) =
      .ok (.bool true) := by
  have hslot : (Env.mk ⟨some ⟨⟨"User"⟩, "alice"⟩, none, none, none⟩
      (.flat [⟨⟨⟨"User"⟩, "alice"⟩, [], .ofList [⟨⟨"Team"⟩, "ops"⟩]⟩]) ⟨1⟩).request.entitySlot
        .principal = some ⟨⟨"User"⟩, "alice"⟩ := rfl
  exact (toExpr?_denotes hslot (Nat.le_refl 1)
    (.inSet [⟨⟨"Team"⟩, "web"⟩, ⟨⟨"Team"⟩, "web"⟩, ⟨⟨"Team"⟩, "ops"⟩])).1 _ rfl

theorem Condition.clause_approximates (env : Env) (n : Nat) (c : Condition) (e : Expr) :
    Approximates ((· == c.kind.required) <$> Expr.evalBoolWithin env n e)
      (Expr.evalBoolWithin env (n + 1) (c.clause e)) := by
  obtain ⟨kind, body⟩ := c
  cases kind with
  | whenTrue =>
      have hid : ((· == true) : Bool → Bool) = id := by funext b; cases b <;> rfl
      change Approximates ((· == true) <$> Expr.evalBoolWithin env n e)
        (Expr.evalBoolWithin env (n + 1) e)
      rw [hid, id_map]
      exact Expr.evalBoolWithin_approximates rfl rfl n.le_succ e
  | whenFalse =>
      have hnot : ((· == false) : Bool → Bool) = (!·) := by funext b; cases b <;> rfl
      change Approximates ((· == false) <$> Expr.evalBoolWithin env n e)
        (Expr.evalBoolWithin env (n + 1) e.not)
      rw [hnot, Expr.evalBoolWithin_not]
      exact .refl _

end AccessPolicy
