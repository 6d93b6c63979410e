import AccessPolicy.Text.Numeral
import AccessPolicy.Text.Pieces

/-!
Internet addresses of both families and their texts. An address of the fourth
version is written as four decimal octets. One of the sixth version is written
as groups of four hexadecimal digits, where `::` stands for a run of zero
groups and the last two groups may be written as octets.
-/

namespace AccessPolicy

inductive Address where
  | v4 (bits : BitVec 32)
  | v6 (bits : BitVec 128)
deriving DecidableEq, Repr

namespace Address

def isV4 : Address → Bool
  | .v4 _ => true
  | .v6 _ => false

/-- The number of bits in an address of this family. -/
def width : Address → Nat
  | .v4 _ => 32
  | .v6 _ => 128

/-- The bits, read as one number. -/
def toNat : Address → Nat
  | .v4 bits => bits.toNat
  | .v6 bits => bits.toNat

/-- The bits by their position, the highest first. -/
def bit : Address → Nat → Bool
  | .v4 bits, i => bits.getMsbD i
  | .v6 bits, i => bits.getMsbD i

/-- The last `count` digits of a number in the given base, the highest first. -/
def places (base : Nat) : Nat → Nat → List Nat
  | 0, _ => []
  | count + 1, n => places base count (n / base) ++ [n % base]

/-- The number with the given digits, the highest first. -/
def ofPlaces (base : Nat) (digits : List Nat) : Nat :=
  digits.foldl (fun n d => base * n + d) 0

def octets (n : Nat) : List Nat := places 256 4 n

def groups (n : Nat) : List Nat := places 65536 8 n

/-- Up to three decimal digits without a leading zero, at most 255. -/
def octet? (text : List Char) : Option Nat :=
  if text ≠ [] ∧ text.length ≤ 3 ∧ text.all Char.isDigit ∧
      (text.head? ≠ some '0' ∨ text.length = 1) ∧ Text.natOfDigits text ≤ 255 then
    some (Text.natOfDigits text)
  else
    none

/-- Four octets with points between them. -/
def dotted? (text : List Char) : Option Nat :=
  match Text.pieces '.' text with
  | [a, b, c, d] => do
    some (ofPlaces 256 [← octet? a, ← octet? b, ← octet? c, ← octet? d])
  | _ => none

/-- One to four hexadecimal digits. -/
def group? (text : List Char) : Option Nat :=
  if text ≠ [] ∧ text.length ≤ 4 then
    (text.mapM Text.hexDigit?).map (ofPlaces 16)
  else
    none

/-- Groups from the pieces between colons. If `dots` is set, the last piece may
be four octets, which make two groups. -/
def groupsOfPieces? (dots : Bool) : List (List Char) → Option (List Nat)
  | [] => some []
  | [piece] =>
    match group? piece with
    | some g => some [g]
    | none =>
      if dots then (dotted? piece).map (places 65536 2) else none
  | piece :: rest => do some ((← group? piece) :: (← groupsOfPieces? dots rest))

/-- Groups with colons between them; the empty text has none. -/
def groupsOfText? (dots : Bool) (text : List Char) : Option (List Nat) :=
  if text = [] then some [] else groupsOfPieces? dots (Text.pieces ':' text)

/-- Eight groups, of which a run of at least one zero may be written `::`. -/
def eightGroups? (text : List Char) : Option (List Nat) :=
  match Text.breakFirst? [':', ':'] text with
  | none => do
    let gs ← groupsOfText? true text
    if gs.length = 8 then some gs else none
  | some (before, after) => do
    let front ← groupsOfText? false before
    let back ← groupsOfText? true after
    if front.length + back.length < 8 then
      some (front ++ List.replicate (8 - front.length - back.length) 0 ++ back)
    else
      none

def ofChars? (text : List Char) : Option Address :=
  match dotted? text with
  | some n => some (.v4 (BitVec.ofNat 32 n))
  | none => (eightGroups? text).map fun gs => .v6 (BitVec.ofNat 128 (ofPlaces 65536 gs))

def ofText? (text : String) : Option Address :=
  ofChars? text.toList

def dottedText (n : Nat) : String :=
  Text.joinWith "." ((octets n).map Nat.repr)

def groupText (g : Nat) : String :=
  String.ofList (Nat.toDigits 16 g)

def groupsText (gs : List Nat) : String :=
  Text.joinWith ":" (gs.map groupText)

/-- The start and the length of the first of the longest runs of zeros. -/
def longestZeros : List Nat → Nat × Nat
  | [] => (0, 0)
  | g :: gs =>
    let here := ((g :: gs).takeWhile (· == 0)).length
    let (start, length) := longestZeros gs
    if length ≤ here then (0, here) else (start + 1, length)

/-- The longest run of at least two zero groups is written `::`. An address of
the fourth version inside the sixth keeps its octets. -/
def v6Text (n : Nat) : String :=
  if n / 4294967296 = 65535 then "::ffff:" ++ dottedText (n % 4294967296)
  else
    let gs := groups n
    let (start, length) := longestZeros gs
    if 1 < length then
      groupsText (gs.take start) ++ "::" ++ groupsText (gs.drop (start + length))
    else
      groupsText gs

def text : Address → String
  | .v4 bits => dottedText bits.toNat
  | .v6 bits => v6Text bits.toNat

end Address
end AccessPolicy
