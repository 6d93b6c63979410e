import AccessPolicy.Proofs.EvaluationDepth

/-!
The failures that operations on values report. An operation fails because of its
operands, and never because the expression is too deep; that is left to the
evaluation around it.
-/

namespace AccessPolicy

/-- The error says that an expression is too deep. -/
def EvalError.IsCutoff : EvalError → Prop
  | .recursionLimit _ => True
  | _ => False

/-- The readings of a value as a value of one type. -/
inductive Value.Cast : {α : Type} → (Value → Except EvalError α) → Prop where
  | bool : Cast asBool
  | long : Cast asLong
  | string : Cast asString
  | set : Cast asSet
  | entity : Cast asEntity
  | ip : Cast asIp
  | decimal : Cast asDecimal
  | datetime : Cast asDatetime
  | duration : Cast asDuration

open Fallible (Raises)

section

variable {P : EvalError → Prop} (hP : ∀ z : EvalError, ¬ z.IsCutoff → P z)
include hP

namespace Value

theorem mismatch_raises {α : Type} (expected : ValueType) (v : Value) :
    Raises P (mismatch expected v : Except EvalError α) :=
  .error (hP _ id)

theorem Cast.raises {α : Type} {cast : Value → Except EvalError α} (h : Cast cast) (v : Value) :
    Raises P (cast v) := by
  cases h <;> cases v <;> first | exact .ok _ | exact mismatch_raises hP _ _

theorem getAttr_raises (store : Store) (v : Value) (attr : String) :
    Raises P (v.getAttr store attr) := by
  unfold getAttr
  repeat' split
  all_goals first | exact .ok _ | exact .error (hP _ id)

theorem hasAttr_raises (store : Store) (v : Value) (attr : String) :
    Raises P (v.hasAttr store attr) := by
  unfold hasAttr
  split
  · exact .ok _
  · exact .ok _
  · exact .error (hP _ id)

theorem entityIn_raises (store : Store) (v w : Value) : Raises P (entityIn store v w) := by
  refine (Cast.entity.raises hP v).bind fun uid => ?_
  cases w with
  | entity target => exact .ok _
  | set members =>
      exact (Raises.mapM fun m _ => Cast.entity.raises hP m).bind fun targets => .ok _
  | _ => exact .error (hP _ id)

theorem isType_raises (v : Value) (type : EntityType) : Raises P (v.isType type) :=
  (Cast.entity.raises hP v).bind fun _ => .ok _

theorem like_raises (v : Value) (pattern : Pattern) : Raises P (v.like pattern) :=
  (Cast.string.raises hP v).bind fun _ => .ok _

theorem checked_raises (operation : String) (n : Option Long) :
    Raises P (checked operation n) := by
  cases n with
  | some n => exact .ok _
  | none => exact .error (hP _ id)

theorem arithmetic_raises (op : BinaryOp) (compute : Long → Long → Option Long) (v w : Value) :
    Raises P (arithmetic op compute v w) :=
  (Cast.long.raises hP v).bind fun _ => (Cast.long.raises hP w).bind fun _ => checked_raises hP _ _

theorem compareBy_raises (test : Long → Long → Bool) (v w : Value) :
    Raises P (compareBy test v w) := by
  have hkeys : Raises P (orderKeys v w) := by
    unfold orderKeys
    repeat' split
    all_goals first | exact .ok _ | exact .error (hP _ id)
  exact hkeys.bind fun _ => .ok _

theorem applyUnary_raises (op : UnaryOp) (v : Value) : Raises P (v.applyUnary op) := by
  cases op with
  | not => exact (Cast.bool.raises hP v).bind fun _ => .ok _
  | neg => exact (Cast.long.raises hP v).bind fun _ => checked_raises hP _ _
  | isEmpty => exact (Cast.set.raises hP v).bind fun _ => .ok _

theorem applyBinary_raises (store : Store) (op : BinaryOp) (v w : Value) :
    Raises P (applyBinary store op v w) := by
  cases op with
  | eq | notEq => exact .ok _
  | less | lessEq | greater | greaterEq =>
      rw [applyBinary]
      exact compareBy_raises hP _ v w
  | add | sub | mul =>
      rw [applyBinary]
      exact arithmetic_raises hP _ _ v w
  | isIn => exact (entityIn_raises hP store v w).bind fun _ => .ok _
  | contains => exact (Cast.set.raises hP v).bind fun _ => .ok _
  | containsAll | containsAny =>
      exact (Cast.set.raises hP v).bind fun _ => (Cast.set.raises hP w).bind fun _ => .ok _

end Value

namespace ExtensionFunction

variable (f : ExtensionFunction)

theorem lookup_raises (name : String) : Raises P (lookup name) := by
  rw [lookup]
  split
  · exact .ok _
  · exact .error (hP _ id)

theorem readLiteral_raises {α φ : Type} (read : String → Except φ α)
    (message : String → φ → String) (v : Value) : Raises P (f.readLiteral read message v) := by
  refine (Value.Cast.string.raises hP v).bind fun text => ?_
  cases read text with
  | ok a => exact .ok a
  | error fault => exact .error (hP _ id)

theorem orOverflow_raises {α : Type} (message : String) (x : Option α) :
    Raises P (f.orOverflow message x) := by
  cases x with
  | some a => exact .ok a
  | none => exact .error (hP _ id)

theorem wrongCount_raises {α : Type} (count : Nat) :
    Raises P (f.wrongCount count : Except EvalError α) :=
  .error (hP _ id)

theorem call₁_raises (v : Value) : Raises P (f.call₁ v) := by
  cases f with
  | ip | decimal | datetime | duration =>
      exact (readLiteral_raises hP _ _ _ v).bind fun _ => .ok _
  | isIpv4 | isIpv6 | isLoopback | isMulticast =>
      exact (Value.Cast.ip.raises hP v).bind fun _ => .ok _
  | toDate =>
      exact (Value.Cast.datetime.raises hP v).bind fun _ =>
        (orOverflow_raises hP _ _ _).bind fun _ => .ok _
  | toTime => exact (Value.Cast.datetime.raises hP v).bind fun _ => .ok _
  | toMilliseconds | toSeconds | toMinutes | toHours | toDays =>
      exact (Value.Cast.duration.raises hP v).bind fun _ => .ok _
  | _ => exact wrongCount_raises hP _ _

theorem call₂_raises (v w : Value) : Raises P (f.call₂ v w) := by
  cases f with
  | isInRange =>
      exact (Value.Cast.ip.raises hP v).bind fun _ => (Value.Cast.ip.raises hP w).bind fun _ => .ok _
  | lessThan | lessThanOrEqual | greaterThan | greaterThanOrEqual =>
      exact (Value.Cast.decimal.raises hP v).bind fun _ =>
        (Value.Cast.decimal.raises hP w).bind fun _ => .ok _
  | offset =>
      exact (Value.Cast.datetime.raises hP v).bind fun _ =>
        (Value.Cast.duration.raises hP w).bind fun _ =>
          (orOverflow_raises hP _ _ _).bind fun _ => .ok _
  | durationSince =>
      exact (Value.Cast.datetime.raises hP v).bind fun _ =>
        (Value.Cast.datetime.raises hP w).bind fun _ =>
          (orOverflow_raises hP _ _ _).bind fun _ => .ok _
  | _ => exact wrongCount_raises hP _ _

theorem call_raises (vs : List Value) : Raises P (f.call vs) := by
  match vs with
  | [v] => exact f.call₁_raises hP v
  | [v, w] => exact f.call₂_raises hP v w
  | [] | _ :: _ :: _ :: _ => exact wrongCount_raises hP _ _

end ExtensionFunction

end

/-- The branch combines values without other failures than those with the
property. -/
def Branch.RaisesOnly (P : EvalError → Prop) : Branch → Prop
  | .stop _ => True
  | .go _ finish => ∀ v w, Raises P (finish v w)

theorem Branch.run_raises {P : EvalError → Prop} {f : Expr → Except EvalError Value}
    {next : Branch} (hnext : next.RaisesOnly P) (h : ∀ d ∈ next.children, Raises P (f d))
    (v : Value) : Raises P (next.run f v) := by
  cases next with
  | stop w => exact .ok w
  | go d finish => exact (h d List.mem_cons_self).bind (hnext v)

namespace Plan

/-- The plan tests and combines values without other failures than those with
the property. -/
def RaisesOnly (P : EvalError → Prop) : Plan → Prop
  | .value _ => True
  | .slot x => P (.unboundVariable x)
  | .fail x => P x
  | .strict _ op => ∀ vs, Raises P (op vs)
  | .branch _ test next => (∀ v, Raises P (test v)) ∧ ∀ b, (next b).RaisesOnly P

theorem run_raises {P : EvalError → Prop} {r : Request} {f : Expr → Except EvalError Value}
    {p : Plan} (hp : p.RaisesOnly P) (h : ∀ d ∈ p.children, Raises P (f d)) :
    Raises P (p.run r f) := by
  cases p with
  | value v => exact .ok v
  | fail x => exact .error hp
  | slot x =>
      rw [run, Request.lookup]
      split
      · exact .ok _
      · exact .error hp
  | strict args op => exact (Raises.mapM h).bind hp
  | branch guard test next =>
      refine (h guard List.mem_cons_self).bind fun v => (hp.1 v).bind fun b => ?_
      apply Branch.run_raises (hp.2 b)
      intro d hd
      exact h d (Branch.children_subset guard test next b hd)

end Plan

section

variable {P : EvalError → Prop} (hP : ∀ z : EvalError, ¬ z.IsCutoff → P z)
include hP

theorem Plan.unaryOp_raises {f : Value → Except EvalError Value} (h : ∀ v, Raises P (f v))
    (vs : List Value) : Raises P (unaryOp f vs) := by
  match vs with
  | [v] => exact h v
  | [] | _ :: _ :: _ => exact .error (hP _ id)

theorem Plan.binaryOp_raises {f : Value → Value → Except EvalError Value}
    (h : ∀ v w, Raises P (f v w)) (vs : List Value) : Raises P (binaryOp f vs) := by
  match vs with
  | [v, w] => exact h v w
  | [] | [_] | _ :: _ :: _ :: _ => exact .error (hP _ id)

/-- No node of an expression reports of itself that the expression is too deep. -/
theorem Expr.plan_raisesOnly (store : Store) (e : Expr) : (e.plan store).RaisesOnly P := by
  have tests : ∀ v : Value, Raises P v.asBool := Value.Cast.bool.raises hP
  cases e with
  | literal v => trivial
  | var x => exact hP _ id
  | getAttr base attr => exact Plan.unaryOp_raises hP fun v => v.getAttr_raises hP store attr
  | hasAttr base attr =>
      exact Plan.unaryOp_raises hP fun v => (v.hasAttr_raises hP store attr).map _
  | unary op arg => exact Plan.unaryOp_raises hP (Value.applyUnary_raises hP op)
  | binary op left right => exact Plan.binaryOp_raises hP (Value.applyBinary_raises hP store op)
  | is base type => exact Plan.unaryOp_raises hP fun v => (v.isType_raises hP type).map _
  | like base pattern => exact Plan.unaryOp_raises hP fun v => (v.like_raises hP pattern).map _
  | set members => exact fun vs => .ok _
  | record fields => exact fun vs => .ok _
  | and left right | or left right =>
      refine ⟨tests, fun b => ?_⟩
      cases b with
      | true => first | trivial | exact fun _ w => (tests w).map _
      | false => first | trivial | exact fun _ w => (tests w).map _
  | ite cond thenExpr elseExpr =>
      refine ⟨tests, fun b => ?_⟩
      cases b <;> exact fun _ w => .ok w
  | isIn base type parent =>
      refine ⟨fun v => v.isType_raises hP type, fun b => ?_⟩
      cases b with
      | true => exact fun v w => (Value.entityIn_raises hP store v w).map _
      | false => trivial
  | call function args =>
      have hlookup : Raises P (ExtensionFunction.lookup function) :=
        ExtensionFunction.lookup_raises hP function
      rw [plan]
      cases hf : ExtensionFunction.lookup function with
      | ok f => exact f.call_raises hP
      | error x => exact hlookup x hf

end
end AccessPolicy
