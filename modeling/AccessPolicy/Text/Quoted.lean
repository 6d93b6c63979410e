import AccessPolicy.Text.Printable

/-!
Quoted text: a text between double quotes, in which quotes, backslashes and
hidden characters are written as escapes.
-/

namespace AccessPolicy
namespace Text

/-- How one character is written between the quotes. NUL, tab, line feed and
carriage return have short escapes; any other hidden character is written as
its code point in lower-case hexadecimal without padding. -/
def escapeChar (c : Char) : List Char :=
  if c = '"' ∨ c = '\\' then ['\\', c]
  else if c = '\x00' then ['\\', '0']
  else if c = '\t' then ['\\', 't']
  else if c = '\n' then ['\\', 'n']
  else if c = '\r' then ['\\', 'r']
  else if isPrintable c then [c]
  else ['\\', 'u', '\x7b'] ++ Nat.toDigits 16 c.toNat ++ ['\x7d']

def escapeChars (text : List Char) : List Char :=
  text.flatMap escapeChar

/-- What stands between the quotes. -/
def escape (text : String) : String :=
  String.ofList (escapeChars text.toList)

/-- The text between double quotes, with its escapes. -/
def quote (text : String) : String :=
  String.ofList ('"' :: escapeChars text.toList ++ ['"'])

end Text
end AccessPolicy
