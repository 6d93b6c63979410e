/-!
The operators of the expression language and their symbols.
-/

namespace AccessPolicy

inductive UnaryOp where
  | not | neg | isEmpty
deriving DecidableEq, Repr

namespace UnaryOp

def all : List UnaryOp := [.not, .neg, .isEmpty]

def symbol : UnaryOp → String
  | .not => "!"
  | .neg => "-"
  | .isEmpty => "isEmpty"

def ofSymbol? (symbol : String) : Option UnaryOp :=
  all.find? (·.symbol == symbol)

end UnaryOp

inductive BinaryOp where
  | eq | notEq | less | lessEq | greater | greaterEq
  | add | sub | mul
  | isIn | contains | containsAll | containsAny
deriving DecidableEq, Repr

namespace BinaryOp

def all : List BinaryOp :=
  [.eq, .notEq, .less, .lessEq, .greater, .greaterEq, .add, .sub, .mul,
    .isIn, .contains, .containsAll, .containsAny]

def symbol : BinaryOp → String
  | .eq => "=="
  | .notEq => "!="
  | .less => "<"
  | .lessEq => "<="
  | .greater => ">"
  | .greaterEq => ">="
  | .add => "+"
  | .sub => "-"
  | .mul => "*"
  | .isIn => "in"
  | .contains => "contains"
  | .containsAll => "containsAll"
  | .containsAny => "containsAny"

def ofSymbol? (symbol : String) : Option BinaryOp :=
  all.find? (·.symbol == symbol)

end BinaryOp
end AccessPolicy
