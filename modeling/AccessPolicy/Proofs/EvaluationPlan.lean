import AccessPolicy.Expr.Shape
import AccessPolicy.PartialEvaluate
import AccessPolicy.Proofs.Fallible

/-!
What evaluation does at the root of an expression, whatever stands below it.
There are three kinds of inner nodes: those whose function is unknown, those
that evaluate all children and combine the values, and those whose first child
decides on the rest. Evaluation and reduction both follow the plan of the root
(`evalWithin_succ`, `reduceWithin_succ`), so a property of either needs one case
for each kind of node and not one for each constructor.
-/

namespace AccessPolicy

/-- What comes after the guard: a value, or a child whose value is combined with
that of the guard. -/
inductive Branch where
  | stop (value : Value)
  | go (child : Expr) (finish : Value → Value → Except EvalError Value)

inductive Plan where
  | value (v : Value)
  | slot (x : Var)
  | fail (x : EvalError)
  | strict (args : List Expr) (op : List Value → Except EvalError Value)
  | branch (guard : Expr) (test : Value → Except EvalError Bool) (next : Bool → Branch)

namespace Branch

def run (f : Expr → Except EvalError Value) (v : Value) : Branch → Except EvalError Value
  | .stop w => .ok w
  | .go d finish => do finish v (← f d)

open PartialValue (known residual) in
def reduce (f : Expr → Except EvalError PartialValue) (v : Value) (resume : Expr → Expr) :
    Branch → Except EvalError PartialValue
  | .stop w => .ok (known w)
  | .go d finish => do
    match ← f d with
    | .known w => return known (← finish v w)
    | .residual d => return residual (resume d)

/-- The branch with another child. -/
def map (f : Expr → Expr) : Branch → Branch
  | .stop w => .stop w
  | .go d finish => .go (f d) finish

def children : Branch → List Expr
  | .stop _ => []
  | .go d _ => [d]

end Branch

namespace Expr

/-- The expression with other arguments, as many as it has. -/
def withArgs : Expr → List Expr → Expr
  | .getAttr _ attr, [base] => .getAttr base attr
  | .hasAttr _ attr, [base] => .hasAttr base attr
  | .unary op _, [arg] => .unary op arg
  | .binary op _ _, [left, right] => .binary op left right
  | .is _ type, [base] => .is base type
  | .like _ pattern, [base] => .like base pattern
  | .set _, members => .set members
  | .record fields, es => .ofFields ((fields.map Prod.fst).zip es)
  | .call function _, args => .call function args
  | e, _ => e

/-- The expression with another guard, and with the children changed that the
guard decides on. -/
def withGuard : Expr → Expr → (Expr → Expr) → Expr
  | .and _ right, guard, f => .and guard (f right)
  | .or _ right, guard, f => .or guard (f right)
  | .ite _ thenExpr elseExpr, guard, f => .ite guard (f thenExpr) (f elseExpr)
  | .isIn _ type parent, guard, f => .isIn guard type (f parent)
  | e, _, _ => e

/-- What is left of the expression once its guard has a value and the child that
this value selects is reduced. -/
def resume : Expr → Value → Expr → Expr
  | .and _ _, _, rest => .and (.bool true) rest
  | .or _ _, _, rest => .or (.bool false) rest
  | .isIn _ type _, v, rest => .isIn (.literal v) type rest
  | _, _, rest => rest

end Expr

namespace Value

theorem asBool_eq_ok_iff {v : Value} {b : Bool} : v.asBool = .ok b ↔ v = .bool b := by
  cases v <;> simp [asBool, mismatch]

end Value

namespace Plan

/-- An operation on one value, where there is one argument. -/
def unaryOp (f : Value → Except EvalError Value) : List Value → Except EvalError Value
  | [v] => f v
  | _ => .error (.typeMismatch [] .bool)

/-- An operation on two values, where there are two arguments. -/
def binaryOp (f : Value → Value → Except EvalError Value) : List Value → Except EvalError Value
  | [v, w] => f v w
  | _ => .error (.typeMismatch [] .bool)

def run (r : Request) (f : Expr → Except EvalError Value) : Plan → Except EvalError Value
  | .value v => .ok v
  | .slot x => r.lookup x
  | .fail x => .error x
  | .strict args op => do op (← args.mapM f)
  | .branch guard test next => do
    let v ← f guard
    (next (← test v)).run f v

open PartialValue (known residual) in
/-- The reduction of an expression `e` with the plan. -/
def reduce (r : Request) (e : Expr) (f : Expr → Except EvalError PartialValue) :
    Plan → Except EvalError PartialValue
  | .value v => .ok (known v)
  | .slot x =>
    match r.get? x with
    | some v => .ok (known v)
    | none => .ok (residual (.var x))
  | .fail x => .error x
  | .strict args op => do
    let ps ← args.mapM f
    match PartialValue.values? ps with
    | some vs => return known (← op vs)
    | none => return residual (e.withArgs (ps.map PartialValue.toExpr))
  | .branch guard test next => do
    match ← f guard with
    | .known v => (next (← test v)).reduce f v (e.resume v)
    | .residual g => return residual (e.withGuard g fun d => d.simplifiedOr (f d))

/-- The expressions that evaluation may continue with. -/
def children : Plan → List Expr
  | .value _ | .slot _ | .fail _ => []
  | .strict args _ => args
  | .branch guard _ next => guard :: ((next true).children ++ (next false).children)

end Plan

namespace Expr

def plan (store : Store) : Expr → Plan
  | .literal v => .value v
  | .var x => .slot x
  | .getAttr base attr => .strict [base] (Plan.unaryOp (·.getAttr store attr))
  | .hasAttr base attr => .strict [base] (Plan.unaryOp (.bool <$> ·.hasAttr store attr))
  | .and left right => .branch left Value.asBool fun
    | true => .go right fun _ w => .bool <$> w.asBool
    | false => .stop (.bool false)
  | .or left right => .branch left Value.asBool fun
    | true => .stop (.bool true)
    | false => .go right fun _ w => .bool <$> w.asBool
  | .ite cond thenExpr elseExpr => .branch cond Value.asBool fun
    | true => .go thenExpr fun _ w => .ok w
    | false => .go elseExpr fun _ w => .ok w
  | .unary op arg => .strict [arg] (Plan.unaryOp (·.applyUnary op))
  | .binary op left right => .strict [left, right] (Plan.binaryOp (Value.applyBinary store op))
  | .is base type => .strict [base] (Plan.unaryOp (.bool <$> ·.isType type))
  | .isIn base type parent => .branch base (·.isType type) fun
    | true => .go parent fun v p => .bool <$> v.entityIn store p
    | false => .stop (.bool false)
  | .like base pattern => .strict [base] (Plan.unaryOp (.bool <$> ·.like pattern))
  | .set members => .strict members fun vs => .ok (.setOf vs)
  | .record fields => .strict (fields.map Prod.snd) fun vs =>
      .ok (.record (Record.ofList ((fields.map Prod.fst).zip vs)))
  | .call function args =>
    match ExtensionFunction.lookup function with
    | .ok f => .strict args f.call
    | .error x => .fail x

theorem evalWithin_succ (env : Env) (n : Nat) (e : Expr) :
    evalWithin env (n + 1) e = (e.plan env.store).run env.request (evalWithin env n) := by
  cases e with
  | literal | var | set => rfl
  | getAttr | hasAttr | is | like | unary | binary =>
      simp [evalWithin, plan, Plan.run, Plan.unaryOp, Plan.binaryOp]
  | and | or | ite | isIn =>
      simp only [evalWithin, plan, Plan.run]
      refine bind_congr fun v => bind_congr fun b => ?_
      cases b <;> simp [Branch.run]
  | record fields =>
      rw [evalWithin, Fallible.mapM_fields, bind_assoc]
      rfl
  | call function args =>
      rw [evalWithin, plan]
      cases ExtensionFunction.lookup function <;> rfl

/-- Named values are known when the values are. -/
theorem fieldValues?_zip {names : List String} {ps : List PartialValue}
    (h : names.length = ps.length) :
    PartialValue.fieldValues? (names.zip ps) = (PartialValue.values? ps).map names.zip := by
  induction names generalizing ps with
  | nil =>
      cases List.length_eq_zero_iff.mp h.symm
      rfl
  | cons name names ih =>
      cases ps with
      | nil => cases h
      | cons p ps =>
          have hs := ih (Nat.succ.inj h)
          simp only [PartialValue.fieldValues?, PartialValue.values?] at hs ⊢
          rw [List.zip_cons_cons, List.mapM_cons, List.mapM_cons, hs]
          cases p.value? <;> cases ps.mapM PartialValue.value? <;> rfl

theorem reduceWithin_succ (env : Env) (n : Nat) (e : Expr) :
    reduceWithin env (n + 1) e =
      (e.plan env.store).reduce env.request e (reduceWithin env n) := by
  cases e with
  | literal | var | set => rfl
  | getAttr | hasAttr | is | like | unary =>
      simp only [reduceWithin, plan, Plan.reduce, List.mapM_cons, List.mapM_nil, pure_bind,
        bind_assoc]
      refine bind_congr fun p => ?_
      cases p <;> simp [PartialValue.values?, PartialValue.value?, PartialValue.toExpr,
        Plan.unaryOp, withArgs]
  | binary =>
      simp only [reduceWithin, plan, Plan.reduce, List.mapM_cons, List.mapM_nil, pure_bind,
        bind_assoc]
      refine bind_congr fun p => bind_congr fun q => ?_
      cases p <;> cases q <;> simp [PartialValue.values?, PartialValue.value?,
        PartialValue.toExpr, Plan.binaryOp, withArgs]
  | and | or | isIn =>
      simp only [reduceWithin, plan, Plan.reduce]
      refine bind_congr fun p => ?_
      cases p with
      | residual => rfl
      | known v =>
          dsimp only
          refine bind_congr fun b => ?_
          -- one of the branches stops, the other goes on with a child
          cases b
          all_goals first
            | rfl
            | exact bind_congr fun q => by cases q <;> simp [resume]
  | ite =>
      simp only [reduceWithin, plan, Plan.reduce]
      refine bind_congr fun p => ?_
      cases p with
      | residual => rfl
      | known v =>
          dsimp only
          refine bind_congr fun b => ?_
          cases b <;>
            exact (Fallible.bind_ok_self _).symm.trans (bind_congr fun q => by cases q <;> rfl)
  | record fields =>
      simp only [reduceWithin, Fallible.mapM_fields, bind_assoc, plan, Plan.reduce]
      cases hps : (fields.map Prod.snd).mapM (reduceWithin env n) with
      | error x => rfl
      | ok ps =>
          have hlen : (fields.map Prod.fst).length = ps.length := by
            simpa using (Fallible.mapM_eq_ok_iff.mp hps).length_eq
          simp only [Fallible.ok_bind, Fallible.pure_eq_ok, fieldValues?_zip hlen]
          cases PartialValue.values? ps with
          | some vs => rfl
          | none =>
              simp only [withArgs, List.zip_map_right]
              rfl
  | call function args =>
      rw [reduceWithin, plan]
      cases ExtensionFunction.lookup function <;> rfl

theorem mem_children_of_plan {store : Store} {e d : Expr} (h : d ∈ (e.plan store).children) :
    d ∈ e.children := by
  cases e with
  | literal | var => cases h
  | getAttr | hasAttr | is | like | unary | binary | set | record => exact h
  | and | or | ite | isIn => simpa [plan, Plan.children, Branch.children, children] using h
  | call function args =>
      rw [plan] at h
      cases hf : ExtensionFunction.lookup function with
      | ok f => rwa [hf] at h
      | error x => rw [hf] at h; cases h

theorem setField_of_not_mem {name : String} {e : Expr} {fields : List (String × Expr)}
    (h : name ∉ fields.map Prod.fst) : setField name e fields = fields ++ [(name, e)] := by
  induction fields with
  | nil => rfl
  | cons f fields ih =>
      rw [List.map_cons, List.mem_cons, not_or] at h
      rw [setField, if_neg (Ne.symm h.1), ih h.2, List.cons_append]

/-- Fields with distinct names stay as they are. -/
theorem ofFields_of_nodup {fields : List (String × Expr)} (h : (fields.map Prod.fst).Nodup) :
    ofFields fields = .record fields := by
  suffices step : ∀ kept, ((kept ++ fields).map Prod.fst).Nodup →
      fields.foldl (fun fs f => setField f.1 f.2 fs) kept = kept ++ fields by
    rw [ofFields, step [] (by simpa using h), List.nil_append]
  induction fields with
  | nil => simp
  | cons f fields ih =>
      intro kept hk
      have hf : f.1 ∉ kept.map Prod.fst := by
        rw [List.map_append, List.map_cons, List.nodup_append] at hk
        intro hmem
        exact hk.2.2 _ hmem _ List.mem_cons_self rfl
      rw [List.foldl_cons, setField_of_not_mem hf, ih (List.nodup_cons.mp h).2]
      · simp
      · simpa using hk

theorem withArgs_record {fields : List (String × Expr)} {cs : List Expr}
    (hd : (fields.map Prod.fst).Nodup) (hlen : (fields.map Prod.fst).length = cs.length) :
    (record fields).withArgs cs = .record ((fields.map Prod.fst).zip cs) := by
  rw [withArgs, ofFields_of_nodup]
  rwa [List.map_fst_zip (Nat.le_of_eq hlen)]

theorem plan_withArgs {store : Store} {e : Expr} {args cs : List Expr}
    {op : List Value → Except EvalError Value} (he : e.plan store = .strict args op)
    (hd : ∀ fields, e = .record fields → (fields.map Prod.fst).Nodup)
    (hlen : cs.length = args.length) : (e.withArgs cs).plan store = .strict cs op := by
  cases e with
  | literal | var | and | or | ite | isIn => simp [plan] at he
  | getAttr | hasAttr | is | like | unary =>
      obtain ⟨rfl, rfl⟩ := Plan.strict.inj he
      obtain ⟨c, rfl⟩ := List.length_eq_one_iff.mp hlen
      rfl
  | binary =>
      obtain ⟨rfl, rfl⟩ := Plan.strict.inj he
      obtain ⟨c, d, rfl⟩ := List.length_eq_two.mp hlen
      rfl
  | set =>
      obtain ⟨rfl, rfl⟩ := Plan.strict.inj he
      rfl
  | record fields =>
      obtain ⟨rfl, rfl⟩ := Plan.strict.inj he
      have hlen : (fields.map Prod.fst).length = cs.length := by simpa using hlen.symm
      rw [withArgs_record (hd _ rfl) hlen, plan, List.map_fst_zip (Nat.le_of_eq hlen),
        List.map_snd_zip (Nat.le_of_eq hlen.symm)]
  | call function =>
      rw [plan] at he
      rw [withArgs, plan]
      cases hf : ExtensionFunction.lookup function with
      | ok f =>
          rw [hf] at he
          obtain ⟨rfl, rfl⟩ := Plan.strict.inj he
          rfl
      | error x =>
          rw [hf] at he
          cases he

theorem plan_withGuard {store : Store} {e g : Expr} {guard : Expr}
    {test : Value → Except EvalError Bool} {next : Bool → Branch} {f : Expr → Expr}
    (he : e.plan store = .branch guard test next) :
    (e.withGuard g f).plan store = .branch g test fun b => (next b).map f := by
  cases e with
  | literal | var | getAttr | hasAttr | is | like | unary | binary | set | record =>
      simp [plan] at he
  | and | or | ite | isIn =>
      obtain ⟨rfl, rfl, rfl⟩ := Plan.branch.inj he
      simp only [withGuard, plan, Plan.branch.injEq, true_and]
      funext b
      cases b <;> rfl
  | call function =>
      rw [plan] at he
      split at he <;> cases he

/-- What is left of a branching expression either asks the known guard again and
goes on with the reduced child, or is the reduced child. -/
theorem plan_resume {store : Store} {e guard d : Expr} {test : Value → Except EvalError Bool}
    {next : Bool → Branch} {b : Bool} {finish : Value → Value → Except EvalError Value}
    {v : Value} (he : e.plan store = .branch guard test next) (hv : test v = .ok b)
    (hb : next b = .go d finish) (d' : Expr) :
    (∃ next', (e.resume v d').plan store = .branch (.literal v) test next' ∧
        next' b = .go d' finish) ∨
      (e.resume v d' = d' ∧ finish v = .ok) := by
  cases e with
  | literal | var | getAttr | hasAttr | is | like | unary | binary | set | record =>
      simp [plan] at he
  | and | or =>
      obtain ⟨rfl, rfl, rfl⟩ := Plan.branch.inj he
      cases Value.asBool_eq_ok_iff.mp hv
      cases b <;> cases hb
      exact .inl ⟨_, rfl, rfl⟩
  | isIn =>
      obtain ⟨rfl, rfl, rfl⟩ := Plan.branch.inj he
      cases b <;> cases hb
      exact .inl ⟨_, rfl, rfl⟩
  | ite =>
      obtain ⟨rfl, rfl, rfl⟩ := Plan.branch.inj he
      cases b <;> cases hb <;> exact .inr ⟨rfl, rfl⟩
  | call function =>
      rw [plan] at he
      split at he <;> cases he

end Expr
end AccessPolicy
