import AccessPolicy.Operator
import AccessPolicy.Pattern
import AccessPolicy.Store
import AccessPolicy.Value.Cast

/-!
What the operators do to values. Operands are checked from left to right, and a
set that is compared with an entity is checked to its last member, so that no
answer depends on the order of its members.
-/

namespace AccessPolicy
namespace Value

/-- The types whose values are ordered. -/
def orderedTypes : List ValueType := [.long, .decimal, .datetime, .duration]

/-- What orders a value among the values of its type. -/
def orderKey? : Value → Option Long
  | .long n => some n
  | .decimal d => some d.raw
  | .datetime t => some t.millis
  | .duration d => some d.millis
  | _ => none

/-- The keys of two values of one ordered type. -/
def orderKeys (left right : Value) : Except EvalError (Long × Long) :=
  match left.orderKey?, right.orderKey? with
  | none, _ => .error (.typeMismatch orderedTypes left.type)
  | some a, some b =>
    if left.type = right.type then .ok (a, b)
    else .error (.typeMismatch [left.type] right.type)
  | some _, none => .error (.typeMismatch [left.type] right.type)

/-- Compares two values of one ordered type. -/
def compareBy (test : Long → Long → Bool) (left right : Value) : Except EvalError Value := do
  let (a, b) ← orderKeys left right
  return .bool (test a b)

/-- The result of an operation on integers, unless it is out of range. -/
def checked (operation : String) : Option Long → Except EvalError Value
  | some n => .ok (.long n)
  | none => .error (.integerOverflow operation)

def arithmetic (op : BinaryOp) (compute : Long → Long → Option Long) (left right : Value) :
    Except EvalError Value := do
  let a ← left.asLong
  let b ← right.asLong
  checked (a.text ++ " " ++ op.symbol ++ " " ++ b.text) (compute a b)

/-- An entity is in another entity, or in some member of a set of entities. -/
def entityIn (store : Store) (left right : Value) : Except EvalError Bool := do
  let uid ← left.asEntity
  match right with
  | .entity target => return store.isWithin uid target
  | .set members =>
    let targets ← members.mapM asEntity
    return targets.any (store.isWithin uid)
  | v => .error (.typeMismatch [.entity, .set] v.type)

def getAttr (store : Store) (base : Value) (attr : String) : Except EvalError Value :=
  match base with
  | .record fields =>
    match Record.find? fields attr with
    | some v => .ok v
    | none => .error (.attributeAccess attr "record does not have this attribute")
  | .entity uid =>
    match store.find? uid with
    | none => .error (.entityNotFound uid)
    | some e =>
      match e.attr? attr with
      | some v => .ok v
      | none => .error (.attributeAccess attr (uid.text ++ " does not have this attribute"))
  | v => .error (.attributeAccess attr ("expected a record or entity, got " ++ v.type.name))

/-- An entity that is not in the store has no attributes. -/
def hasAttr (store : Store) (base : Value) (attr : String) : Except EvalError Bool :=
  match base with
  | .record fields => .ok (Record.find? fields attr).isSome
  | .entity uid => .ok ((store.find? uid).any fun e => (e.attr? attr).isSome)
  | v => .error (.typeMismatch [.record, .entity] v.type)

def isType (v : Value) (type : EntityType) : Except EvalError Bool := do
  return (← v.asEntity).type == type

def like (v : Value) (pattern : Pattern) : Except EvalError Bool := do
  return pattern.matchesText (← v.asString)

def applyUnary (op : UnaryOp) (arg : Value) : Except EvalError Value :=
  match op with
  | .not => return .bool (!(← arg.asBool))
  | .neg => do
    let n ← arg.asLong
    checked ("-(" ++ n.text ++ ")") n.neg?
  | .isEmpty => return .bool (← arg.asSet).isEmpty

def applyBinary (store : Store) (op : BinaryOp) (left right : Value) : Except EvalError Value :=
  match op with
  | .eq => return .bool (left == right)
  | .notEq => return .bool (left != right)
  | .less => compareBy (· < ·) left right
  | .lessEq => compareBy (· ≤ ·) left right
  | .greater => compareBy (· > ·) left right
  | .greaterEq => compareBy (· ≥ ·) left right
  | .add => arithmetic op Long.add? left right
  | .sub => arithmetic op Long.sub? left right
  | .mul => arithmetic op Long.mul? left right
  | .isIn => return .bool (← entityIn store left right)
  | .contains => return .bool (contains (← left.asSet) right)
  | .containsAll => do
    let members ← left.asSet
    return .bool (allIn (← right.asSet) members)
  | .containsAny => do
    let members ← left.asSet
    return .bool (meets members (← right.asSet))

end Value
end AccessPolicy
