import AccessPolicy.Evaluate

/-!
Evaluation of expressions against requests with unknown slots. What depends on
known slots only is folded into a value; the rest stays behind as a residual
expression, to be evaluated once the slots are known. A child that may never be
evaluated is kept as it is if it fails.
-/

namespace AccessPolicy

/-- A value, or what is left to evaluate. -/
inductive PartialValue where
  | known (value : Value)
  | residual (expr : Expr)

namespace PartialValue

def isKnown : PartialValue → Bool
  | .known _ => true
  | .residual _ => false

def value? : PartialValue → Option Value
  | .known v => some v
  | .residual _ => none

/-- As an expression, in which a value is a literal. -/
def toExpr : PartialValue → Expr
  | .known v => .literal v
  | .residual e => e

/-- The values, if all are known. -/
def values? (ps : List PartialValue) : Option (List Value) :=
  ps.mapM value?

/-- The named values, if all are known. -/
def fieldValues? (fs : List (String × PartialValue)) : Option (List (String × Value)) :=
  fs.mapM fun f => f.2.value?.map (f.1, ·)

end PartialValue

namespace Expr

open PartialValue (known residual)

/-- What a child that may never be evaluated is replaced by, given the result
of evaluating it. -/
def simplifiedOr (original : Expr) : Except EvalError PartialValue → Expr
  | .ok p => p.toExpr
  | .error _ => original

/-- The value or the residual of an expression under a depth budget. -/
def reduceWithin (env : Env) : Nat → Expr → Except EvalError PartialValue
  | 0, _ => .error env.tooDeep
  | n + 1, e =>
    match e with
    | .literal v => .ok (known v)
    | .var x =>
      match env.request.get? x with
      | some v => .ok (known v)
      | none => .ok (residual (.var x))
    | .getAttr base attr => do
      match ← reduceWithin env n base with
      | .known v => return known (← v.getAttr env.store attr)
      | .residual base => return residual (.getAttr base attr)
    | .hasAttr base attr => do
      match ← reduceWithin env n base with
      | .known v => return known (.bool (← v.hasAttr env.store attr))
      | .residual base => return residual (.hasAttr base attr)
    | .and left right => do
      match ← reduceWithin env n left with
      | .known v =>
        if ← v.asBool then
          match ← reduceWithin env n right with
          | .known w => return known (.bool (← w.asBool))
          | .residual right => return residual (.and (.bool true) right)
        else
          return known (.bool false)
      | .residual left =>
        return residual (.and left (right.simplifiedOr (reduceWithin env n right)))
    | .or left right => do
      match ← reduceWithin env n left with
      | .known v =>
        if ← v.asBool then
          return known (.bool true)
        else
          match ← reduceWithin env n right with
          | .known w => return known (.bool (← w.asBool))
          | .residual right => return residual (.or (.bool false) right)
      | .residual left =>
        return residual (.or left (right.simplifiedOr (reduceWithin env n right)))
    | .ite cond thenExpr elseExpr => do
      match ← reduceWithin env n cond with
      | .known v =>
        if ← v.asBool then
          reduceWithin env n thenExpr
        else
          reduceWithin env n elseExpr
      | .residual cond =>
        return residual (.ite cond
          (thenExpr.simplifiedOr (reduceWithin env n thenExpr))
          (elseExpr.simplifiedOr (reduceWithin env n elseExpr)))
    | .unary op arg => do
      match ← reduceWithin env n arg with
      | .known v => return known (← v.applyUnary op)
      | .residual arg => return residual (.unary op arg)
    | .binary op left right => do
      let l ← reduceWithin env n left
      let r ← reduceWithin env n right
      match l, r with
      | .known v, .known w => return known (← Value.applyBinary env.store op v w)
      | l, r => return residual (.binary op l.toExpr r.toExpr)
    | .is base type => do
      match ← reduceWithin env n base with
      | .known v => return known (.bool (← v.isType type))
      | .residual base => return residual (.is base type)
    | .isIn base type parent => do
      match ← reduceWithin env n base with
      | .known v =>
        if ← v.isType type then
          match ← reduceWithin env n parent with
          | .known p => return known (.bool (← v.entityIn env.store p))
          | .residual parent => return residual (.isIn (.literal v) type parent)
        else
          return known (.bool false)
      | .residual base =>
        return residual (.isIn base type (parent.simplifiedOr (reduceWithin env n parent)))
    | .like base pattern => do
      match ← reduceWithin env n base with
      | .known v => return known (.bool (← v.like pattern))
      | .residual base => return residual (.like base pattern)
    | .set members => do
      let ps ← members.mapM (reduceWithin env n)
      match PartialValue.values? ps with
      | some vs => return known (.setOf vs)
      | none => return residual (.set (ps.map PartialValue.toExpr))
    | .record fields => do
      let fs ← fields.mapM fun f => return (f.1, ← reduceWithin env n f.2)
      match PartialValue.fieldValues? fs with
      | some values => return known (.record (Record.ofList values))
      | none => return residual (.ofFields (fs.map fun f => (f.1, f.2.toExpr)))
    | .call function args => do
      let f ← ExtensionFunction.lookup function
      let ps ← args.mapM (reduceWithin env n)
      match PartialValue.values? ps with
      | some vs => return known (← f.call vs)
      | none => return residual (.call function (ps.map PartialValue.toExpr))

/-- The value or the residual of an expression. -/
def reduce (env : Env) (e : Expr) : Except EvalError PartialValue :=
  e.reduceWithin env env.budget

end Expr
end AccessPolicy
