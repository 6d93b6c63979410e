import AccessPolicy.EvalError

/-!
Reading a value as a value of one type, with an error that names the type
expected and the type found.
-/

namespace AccessPolicy
namespace Value

/-- The error for a value that is not of the one type expected. -/
def mismatch {α : Type} (expected : ValueType) (v : Value) : Except EvalError α :=
  .error (.typeMismatch [expected] v.type)

def asBool : Value → Except EvalError Bool
  | .bool b => .ok b
  | v => mismatch .bool v

def asLong : Value → Except EvalError Long
  | .long n => .ok n
  | v => mismatch .long v

def asString : Value → Except EvalError String
  | .string s => .ok s
  | v => mismatch .string v

def asSet : Value → Except EvalError (List Value)
  | .set members => .ok members
  | v => mismatch .set v

def asEntity : Value → Except EvalError EntityUid
  | .entity uid => .ok uid
  | v => mismatch .entity v

def asIp : Value → Except EvalError IpRange
  | .ip range => .ok range
  | v => mismatch .ipaddr v

def asDecimal : Value → Except EvalError Decimal
  | .decimal d => .ok d
  | v => mismatch .decimal v

def asDatetime : Value → Except EvalError Datetime
  | .datetime t => .ok t
  | v => mismatch .datetime v

def asDuration : Value → Except EvalError Duration
  | .duration d => .ok d
  | v => mismatch .duration v

end Value
end AccessPolicy
