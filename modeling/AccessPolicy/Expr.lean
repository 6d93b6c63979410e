import AccessPolicy.EvalError
import AccessPolicy.Operator
import AccessPolicy.Pattern

/-!
Condition expressions.
-/

namespace AccessPolicy

/-- A record expression may give a name twice; its value then has the last
one. In `isIn e T p` the parent `p` is looked at only if `e` is of type `T`. -/
inductive Expr where
  | literal (value : Value)
  | var (var : Var)
  | getAttr (base : Expr) (attr : String)
  | hasAttr (base : Expr) (attr : String)
  | and (left right : Expr)
  | or (left right : Expr)
  | ite (cond thenExpr elseExpr : Expr)
  | unary (op : UnaryOp) (arg : Expr)
  | binary (op : BinaryOp) (left right : Expr)
  | is (base : Expr) (type : EntityType)
  | isIn (base : Expr) (type : EntityType) (parent : Expr)
  | like (base : Expr) (pattern : Pattern)
  | set (members : List Expr)
  | record (fields : List (String × Expr))
  | call (function : String) (args : List Expr)

namespace Expr

instance : Inhabited Expr := ⟨.literal default⟩

def long (n : Long) : Expr := .literal (.long n)

def string (s : String) : Expr := .literal (.string s)

def bool (b : Bool) : Expr := .literal (.bool b)

def entity (uid : EntityUid) : Expr := .literal (.entity uid)

def not (e : Expr) : Expr := .unary .not e

/-- Gives a name an expression, in the place of an earlier one. -/
def setField (name : String) (e : Expr) : List (String × Expr) → List (String × Expr)
  | [] => [(name, e)]
  | (k, d) :: fields =>
    if k = name then (k, e) :: fields else (k, d) :: setField name e fields

/-- A record expression in which no name occurs twice. The last expression
given for a name counts, at the place of the first. -/
def ofFields (fields : List (String × Expr)) : Expr :=
  .record (fields.foldl (fun fs f => setField f.1 f.2 fs) [])

/-- A call in which the receiver is the first argument. -/
def method (receiver : Expr) (function : String) (args : List Expr) : Expr :=
  .call function (receiver :: args)

/-- All of the given expressions hold, joined from the left. -/
def conjunction : List Expr → Expr
  | [] => bool true
  | e :: es => es.foldl .and e

end Expr
end AccessPolicy
