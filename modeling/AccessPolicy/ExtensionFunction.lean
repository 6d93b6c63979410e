import AccessPolicy.Value.Cast

/-!
The functions on the extension types, called by name. A call checks the number
of its arguments first and then the type of each from left to right.
-/

namespace AccessPolicy

inductive ExtensionFunction where
  | ip | isIpv4 | isIpv6 | isLoopback | isMulticast | isInRange
  | decimal | lessThan | lessThanOrEqual | greaterThan | greaterThanOrEqual
  | datetime | duration | offset | durationSince | toDate | toTime
  | toMilliseconds | toSeconds | toMinutes | toHours | toDays
deriving DecidableEq, Repr

namespace ExtensionFunction

/-- The functions in the order of their declaration. -/
def all : List ExtensionFunction :=
  [.ip, .isIpv4, .isIpv6, .isLoopback, .isMulticast, .isInRange,
    .decimal, .lessThan, .lessThanOrEqual, .greaterThan, .greaterThanOrEqual,
    .datetime, .duration, .offset, .durationSince, .toDate, .toTime,
    .toMilliseconds, .toSeconds, .toMinutes, .toHours, .toDays]

def name : ExtensionFunction → String
  | .ip => "ip"
  | .isIpv4 => "isIpv4"
  | .isIpv6 => "isIpv6"
  | .isLoopback => "isLoopback"
  | .isMulticast => "isMulticast"
  | .isInRange => "isInRange"
  | .decimal => "decimal"
  | .lessThan => "lessThan"
  | .lessThanOrEqual => "lessThanOrEqual"
  | .greaterThan => "greaterThan"
  | .greaterThanOrEqual => "greaterThanOrEqual"
  | .datetime => "datetime"
  | .duration => "duration"
  | .offset => "offset"
  | .durationSince => "durationSince"
  | .toDate => "toDate"
  | .toTime => "toTime"
  | .toMilliseconds => "toMilliseconds"
  | .toSeconds => "toSeconds"
  | .toMinutes => "toMinutes"
  | .toHours => "toHours"
  | .toDays => "toDays"

/-- The place in the order of declaration. -/
def index (f : ExtensionFunction) : Nat := all.idxOf f

def lookup (name : String) : Except EvalError ExtensionFunction :=
  match all.find? (·.name == name) with
  | some f => .ok f
  | none => .error (.extensionError name "unknown extension function")

def arity : ExtensionFunction → Nat
  | .isInRange | .lessThan | .lessThanOrEqual | .greaterThan | .greaterThanOrEqual
  | .offset | .durationSince => 2
  | _ => 1

/-- A failure of the function itself. -/
def fail (f : ExtensionFunction) {α : Type} (message : String) : Except EvalError α :=
  .error (.extensionError f.name message)

/-- A call with a number of arguments that is not the arity. -/
def wrongCount (f : ExtensionFunction) {α : Type} (count : Nat) : Except EvalError α :=
  f.fail ("expected " ++ f.arity.repr ++ " argument(s), got " ++ count.repr)

/-- Reads the literal in a string argument. -/
def readLiteral (f : ExtensionFunction) {α φ : Type} (read : String → Except φ α)
    (message : String → φ → String) (arg : Value) : Except EvalError α := do
  let text ← arg.asString
  match read text with
  | .ok a => return a
  | .error fault => f.fail (message text fault)

/-- A result that may be out of range. -/
def orOverflow (f : ExtensionFunction) {α : Type} (message : String) :
    Option α → Except EvalError α
  | some a => .ok a
  | none => f.fail message

/-- Compares two decimals. -/
def compareDecimals (test : Long → Long → Bool) (left right : Value) :
    Except EvalError Value := do
  let a ← left.asDecimal
  let b ← right.asDecimal
  return .bool (test a.raw b.raw)

/-- The whole units in a duration. -/
def wholeUnits (unit : TimeUnit) (arg : Value) : Except EvalError Value := do
  return .long ((← arg.asDuration).inUnits unit)

def call₁ (f : ExtensionFunction) (arg : Value) : Except EvalError Value :=
  match f with
  | .ip => return .ip (← f.readLiteral IpRange.ofText IpRange.Fault.message arg)
  | .isIpv4 => return .bool (← arg.asIp).isV4
  | .isIpv6 => return .bool (← arg.asIp).isV6
  | .isLoopback => return .bool (← arg.asIp).isLoopback
  | .isMulticast => return .bool (← arg.asIp).isMulticast
  | .decimal => return .decimal (← f.readLiteral Decimal.ofText Decimal.Fault.message arg)
  | .datetime => return .datetime (← f.readLiteral Datetime.ofText Datetime.Fault.message arg)
  | .duration => return .duration (← f.readLiteral Duration.ofText Duration.Fault.message arg)
  | .toDate => return .datetime (← f.orOverflow "datetime overflow" (← arg.asDatetime).toDate?)
  | .toTime => return .duration (← arg.asDatetime).toTime
  | .toMilliseconds => wholeUnits .millisecond arg
  | .toSeconds => wholeUnits .second arg
  | .toMinutes => wholeUnits .minute arg
  | .toHours => wholeUnits .hour arg
  | .toDays => wholeUnits .day arg
  | _ => f.wrongCount 1

def call₂ (f : ExtensionFunction) (left right : Value) : Except EvalError Value :=
  match f with
  | .isInRange => do
    let r ← left.asIp
    return .bool (r.isInRange (← right.asIp))
  | .lessThan => compareDecimals (· < ·) left right
  | .lessThanOrEqual => compareDecimals (· ≤ ·) left right
  | .greaterThan => compareDecimals (· > ·) left right
  | .greaterThanOrEqual => compareDecimals (· ≥ ·) left right
  | .offset => do
    let t ← left.asDatetime
    let d ← right.asDuration
    return .datetime (← f.orOverflow "datetime overflow" (t.offset? d))
  | .durationSince => do
    let later ← left.asDatetime
    let earlier ← right.asDatetime
    return .duration (← f.orOverflow "duration overflow" (later.durationSince? earlier))
  | _ => f.wrongCount 2

def call (f : ExtensionFunction) : List Value → Except EvalError Value
  | [arg] => f.call₁ arg
  | [left, right] => f.call₂ left right
  | args => f.wrongCount args.length

end ExtensionFunction
end AccessPolicy
