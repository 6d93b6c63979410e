import AccessPolicy.Expr
import AccessPolicy.ExtensionFunction
import AccessPolicy.Operation
import AccessPolicy.Request

/-!
Evaluation of expressions against one request and one store. Children are
evaluated from left to right; only `&&`, `||`, conditionals and `is … in` leave
a child out. A depth budget is handed down: an expression that is met with no
budget left is too deep.
-/

namespace AccessPolicy

/-- Bounds on an evaluation. -/
structure Limits where
  maxDepth : Nat := 256
deriving DecidableEq, Repr

instance : Inhabited Limits := ⟨{}⟩

/-- What an expression is evaluated against. -/
structure Env where
  request : Request
  store : Store
  limits : Limits

namespace Env

/-- The budget of a whole expression. -/
def budget (env : Env) : Nat := env.limits.maxDepth + 1

/-- The error for an expression that is met with no budget left. -/
def tooDeep (env : Env) : EvalError := .recursionLimit env.limits.maxDepth

end Env

namespace Expr

/-- The value of an expression under a depth budget. -/
def evalWithin (env : Env) : Nat → Expr → Except EvalError Value
  | 0, _ => .error env.tooDeep
  | n + 1, e =>
    match e with
    | .literal v => .ok v
    | .var x => env.request.lookup x
    | .getAttr base attr => do
      let v ← evalWithin env n base
      v.getAttr env.store attr
    | .hasAttr base attr => do
      let v ← evalWithin env n base
      return .bool (← v.hasAttr env.store attr)
    | .and left right => do
      if ← (← evalWithin env n left).asBool then
        return .bool (← (← evalWithin env n right).asBool)
      else
        return .bool false
    | .or left right => do
      if ← (← evalWithin env n left).asBool then
        return .bool true
      else
        return .bool (← (← evalWithin env n right).asBool)
    | .ite cond thenExpr elseExpr => do
      if ← (← evalWithin env n cond).asBool then
        evalWithin env n thenExpr
      else
        evalWithin env n elseExpr
    | .unary op arg => do
      let v ← evalWithin env n arg
      v.applyUnary op
    | .binary op left right => do
      let l ← evalWithin env n left
      let r ← evalWithin env n right
      Value.applyBinary env.store op l r
    | .is base type => do
      let v ← evalWithin env n base
      return .bool (← v.isType type)
    | .isIn base type parent => do
      let v ← evalWithin env n base
      if ← v.isType type then
        let p ← evalWithin env n parent
        return .bool (← v.entityIn env.store p)
      else
        return .bool false
    | .like base pattern => do
      let v ← evalWithin env n base
      return .bool (← v.like pattern)
    | .set members => do
      return .setOf (← members.mapM (evalWithin env n))
    | .record fields => do
      let values ← fields.mapM fun f => return (f.1, ← evalWithin env n f.2)
      return .record (Record.ofList values)
    | .call function args => do
      let f ← ExtensionFunction.lookup function
      f.call (← args.mapM (evalWithin env n))

/-- The value of an expression. -/
def eval (env : Env) (e : Expr) : Except EvalError Value :=
  e.evalWithin env env.budget

/-- The value of an expression that has to be Boolean. -/
def evalBool (env : Env) (e : Expr) : Except EvalError Bool := do
  (← e.eval env).asBool

end Expr
end AccessPolicy
