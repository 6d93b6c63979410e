import AccessPolicy.Value

/-!
The text of a value. Strings and names of fields are quoted; the values of the
extension types are written as calls of the functions that construct them.
-/

namespace AccessPolicy
namespace Value

mutual

def text : Value → String
  | .bool b => if b then "true" else "false"
  | .long n => n.text
  | .string s => Text.quote s
  | .set members => "[" ++ Text.joinWith ", " (texts members) ++ "]"
  | .record fields => "\x7b" ++ Text.joinWith ", " (fieldTexts fields) ++ "\x7d"
  | .entity uid => uid.text
  | .ip range => "ip(\"" ++ range.text ++ "\")"
  | .decimal d => "decimal(\"" ++ d.text ++ "\")"
  | .datetime t => "datetime(\"" ++ t.text ++ "\")"
  | .duration d => "duration(\"" ++ d.text ++ "\")"

def texts : List Value → List String
  | [] => []
  | v :: vs => text v :: texts vs

def fieldTexts : List (String × Value) → List String
  | [] => []
  | f :: fs => (Text.quote f.1 ++ ": " ++ text f.2) :: fieldTexts fs

end

end Value
end AccessPolicy
