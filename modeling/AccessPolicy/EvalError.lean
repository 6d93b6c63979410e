import AccessPolicy.Value

/-!
The failures of evaluation, with the text of each.
-/

namespace AccessPolicy

/-- The variables of a request. -/
inductive Var where
  | principal | action | resource | context
deriving DecidableEq, Repr

namespace Var

def all : List Var := [.principal, .action, .resource, .context]

def name : Var → String
  | .principal => "principal"
  | .action => "action"
  | .resource => "resource"
  | .context => "context"

def ofName? (name : String) : Option Var :=
  all.find? (·.name == name)

end Var

inductive EvalError where
  | typeMismatch (expected : List ValueType) (actual : ValueType)
  | attributeAccess (attr detail : String)
  | entityNotFound (uid : EntityUid)
  | integerOverflow (operation : String)
  | extensionError (function message : String)
  | unboundVariable (var : Var)
  | recursionLimit (max : Nat)
deriving DecidableEq, Repr

namespace EvalError

def message : EvalError → String
  | .typeMismatch expected actual =>
    "type error: expected " ++ Text.joinWith " or " (expected.map ValueType.name) ++
      ", got " ++ actual.name
  | .attributeAccess attr detail => "cannot access attribute `" ++ attr ++ "`: " ++ detail
  | .entityNotFound uid => "entity does not exist: " ++ uid.text
  | .integerOverflow operation => "integer overflow: " ++ operation
  | .extensionError function message =>
    "error in extension function `" ++ function ++ "`: " ++ message
  | .unboundVariable var => "unbound variable: " ++ var.name
  | .recursionLimit max => "expression exceeds maximum nesting depth of " ++ max.repr

end EvalError

end AccessPolicy
