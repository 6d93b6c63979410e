import AccessPolicy.Codec.Value
import AccessPolicy.Expr

/-!
The JSON encoding of expressions and of the names and patterns inside them.
-/

namespace AccessPolicy

namespace Var

def toJson (v : Var) : Json := .string v.name

def ofJson? (j : Json) : Option Var := do
  ofName? (← j.unit?)

end Var

namespace UnaryOp

def tag : UnaryOp → String
  | .not => "Not"
  | .neg => "Neg"
  | .isEmpty => "IsEmpty"

def toJson (op : UnaryOp) : Json := .string op.tag

def ofJson? (j : Json) : Option UnaryOp := do
  let tag ← j.unit?
  all.find? (·.tag == tag)

end UnaryOp

namespace BinaryOp

def tag : BinaryOp → String
  | .eq => "Eq"
  | .notEq => "NotEq"
  | .less => "Less"
  | .lessEq => "LessEq"
  | .greater => "Greater"
  | .greaterEq => "GreaterEq"
  | .add => "Add"
  | .sub => "Sub"
  | .mul => "Mul"
  | .isIn => "In"
  | .contains => "Contains"
  | .containsAll => "ContainsAll"
  | .containsAny => "ContainsAny"

def toJson (op : BinaryOp) : Json := .string op.tag

def ofJson? (j : Json) : Option BinaryOp := do
  let tag ← j.unit?
  all.find? (·.tag == tag)

end BinaryOp

namespace PatternElem

def toJson : PatternElem → Json
  | .wildcard => .string "Wildcard"
  | .literal c => .variant "Literal" (.string (String.singleton c))

/-- A literal holds exactly one character. -/
def ofJson? (j : Json) : Option PatternElem :=
  match j.variant? with
  | some ("Literal", .string s) =>
    match s.toList with
    | [c] => some (.literal c)
    | _ => none
  | _ => if j.unit? = some "Wildcard" then some .wildcard else none

end PatternElem

namespace Pattern

def toJson (p : Pattern) : Json := .ofList PatternElem.toJson p.elems

def ofJson? (j : Json) : Option Pattern :=
  (j.list? PatternElem.ofJson?).map Pattern.mk

end Pattern

namespace Expr

mutual

def toJson : Expr → Json
  | .literal v => .variant "Literal" v.toJson
  | .var x => .variant "Var" x.toJson
  | .getAttr base attr =>
    .variant "GetAttr" (.object [("expr", toJson base), ("attr", .string attr)])
  | .hasAttr base attr =>
    .variant "HasAttr" (.object [("expr", toJson base), ("attr", .string attr)])
  | .and left right =>
    .variant "And" (.object [("left", toJson left), ("right", toJson right)])
  | .or left right =>
    .variant "Or" (.object [("left", toJson left), ("right", toJson right)])
  | .ite cond thenExpr elseExpr =>
    .variant "If" (.object [("cond", toJson cond), ("then_expr", toJson thenExpr),
      ("else_expr", toJson elseExpr)])
  | .unary op arg => .variant "UnaryApp" (.object [("op", op.toJson), ("arg", toJson arg)])
  | .binary op left right =>
    .variant "BinaryApp" (.object [("op", op.toJson), ("left", toJson left),
      ("right", toJson right)])
  | .is base type =>
    .variant "Is" (.object [("expr", toJson base), ("entity_type", type.toJson)])
  | .isIn base type parent =>
    .variant "IsIn" (.object [("expr", toJson base), ("entity_type", type.toJson),
      ("parent", toJson parent)])
  | .like base pattern =>
    .variant "Like" (.object [("expr", toJson base), ("pattern", pattern.toJson)])
  | .set members => .variant "Set" (.array (toJsons members))
  | .record fields => .variant "Record" (.array (fieldsToJson fields))
  | .call function args =>
    .variant "ExtensionCall"
      (.object [("function", .string function), ("args", .array (toJsons args))])

def toJsons : List Expr → List Json
  | [] => []
  | e :: es => toJson e :: toJsons es

/-- Fields are pairs of a name and an expression, since a name may occur
twice. -/
def fieldsToJson : List (String × Expr) → List Json
  | [] => []
  | f :: fs => .array [.string f.1, toJson f.2] :: fieldsToJson fs

end

/-- A member of an encoded node, with what it is as an expression and as a list
of expressions. -/
structure Member where
  json : Json
  expr? : Option Expr
  exprs? : Option (List Expr)

/-- The members of a node, by name. -/
abbrev Members := List (String × Member)

namespace Members

def expr? (ms : Members) (name : String) : Option Expr := do
  (← ms.lookup name).expr?

def exprs? (ms : Members) (name : String) : Option (List Expr) := do
  (← ms.lookup name).exprs?

def read? {α : Type} (ms : Members) (name : String) (read : Json → Option α) : Option α := do
  read (← ms.lookup name).json

end Members

/-- The node with the given name and members. -/
def node? (name : String) (ms : Members) : Option Expr :=
  match name with
  | "GetAttr" => do some (.getAttr (← ms.expr? "expr") (← ms.read? "attr" Json.string?))
  | "HasAttr" => do some (.hasAttr (← ms.expr? "expr") (← ms.read? "attr" Json.string?))
  | "And" => do some (.and (← ms.expr? "left") (← ms.expr? "right"))
  | "Or" => do some (.or (← ms.expr? "left") (← ms.expr? "right"))
  | "If" => do
    some (.ite (← ms.expr? "cond") (← ms.expr? "then_expr") (← ms.expr? "else_expr"))
  | "UnaryApp" => do some (.unary (← ms.read? "op" UnaryOp.ofJson?) (← ms.expr? "arg"))
  | "BinaryApp" => do
    some (.binary (← ms.read? "op" BinaryOp.ofJson?) (← ms.expr? "left") (← ms.expr? "right"))
  | "Is" => do some (.is (← ms.expr? "expr") (← ms.read? "entity_type" EntityType.ofJson?))
  | "IsIn" => do
    some (.isIn (← ms.expr? "expr") (← ms.read? "entity_type" EntityType.ofJson?)
      (← ms.expr? "parent"))
  | "Like" => do some (.like (← ms.expr? "expr") (← ms.read? "pattern" Pattern.ofJson?))
  | "ExtensionCall" => do
    some (.call (← ms.read? "function" Json.string?) (← ms.exprs? "args"))
  | _ => none

mutual

def ofJson? : Json → Option Expr
  | .object [(name, .object fields)] =>
    if name = "Literal" then (Value.ofJson? (.object fields)).map .literal
    else if name = "Var" then (Var.ofJson? (.object fields)).map .var
    else node? name (membersOfFields fields)
  | .object [(name, .array items)] =>
    if name = "Set" then (ofJsons? items).map .set
    else if name = "Record" then (fieldsOfJsons? items).map .record
    else none
  | .object [("Var", content)] => (Var.ofJson? content).map .var
  | _ => none

def ofJsons? : List Json → Option (List Expr)
  | [] => some []
  | j :: js => do some ((← ofJson? j) :: (← ofJsons? js))

def fieldsOfJsons? : List Json → Option (List (String × Expr))
  | [] => some []
  | .array [.string name, j] :: js => do
    some ((name, ← ofJson? j) :: (← fieldsOfJsons? js))
  | _ :: _ => none

/-- The expressions in an array. -/
def listOfJson? : Json → Option (List Expr)
  | .array items => ofJsons? items
  | _ => none

def membersOfFields : List (String × Json) → Members
  | [] => []
  | f :: fs => (f.1, ⟨f.2, ofJson? f.2, listOfJson? f.2⟩) :: membersOfFields fs

end

end Expr
end AccessPolicy
