import AccessPolicy.Address

/-!
Address ranges: an address with the number of leading bits that its members
share. A lone address is a range of one member. The bits after those leading
bits are kept as written, so two ranges with the same members may differ.
-/

namespace AccessPolicy

structure IpRange where
  address : Address
  prefixLength : UInt8
deriving DecidableEq, Repr

namespace IpRange

/-- The members are the addresses of the family that have the leading bits of
the range's own address. -/
instance : Membership Address IpRange :=
  ⟨fun r a => a.isV4 = r.address.isV4 ∧
    ∀ i < r.prefixLength.toNat, a.bit i = r.address.bit i⟩

def widthByte (r : IpRange) : UInt8 := UInt8.ofNat r.address.width

/-- The number shared by the members: the leading bits of the address, in a word of 128
bits. For a length beyond the width the difference of bytes wraps around, and a shift
counts modulo the size of the word. -/
def network (r : IpRange) (length : UInt8) : Nat :=
  if length = 0 then 0
  else r.address.toNat >>> ((r.widthByte - length).toNat % 128)

def isV4 (r : IpRange) : Bool := r.address.isV4

def isV6 (r : IpRange) : Bool := !r.address.isV4

/-- Every member of `r` is a member of `s`. Ranges of different families have no
common members. -/
def isInRange (r s : IpRange) : Bool :=
  r.isV4 == s.isV4 && s.prefixLength ≤ r.prefixLength &&
    r.network s.prefixLength == s.network s.prefixLength

/-- 127.0.0.0/8. -/
def loopbackV4 : IpRange := ⟨.v4 0x7f000000, 8⟩

/-- The range of the one address ::1. -/
def loopbackV6 : IpRange := ⟨.v6 1, 128⟩

/-- 224.0.0.0/4. -/
def multicastV4 : IpRange := ⟨.v4 0xe0000000, 4⟩

/-- ff00::/8. -/
def multicastV6 : IpRange := ⟨.v6 0xff000000000000000000000000000000, 8⟩

def isLoopback (r : IpRange) : Bool :=
  r.isInRange loopbackV4 || r.isInRange loopbackV6

def isMulticast (r : IpRange) : Bool :=
  r.isInRange multicastV4 || r.isInRange multicastV6

/-- Why a text denotes no range. -/
inductive Fault where
  | noAddress
  | badPrefix
  | tooLong (length : Nat) (address : String)
deriving DecidableEq, Repr

def Fault.message (text : String) : Fault → String
  | .noAddress => "invalid IP address `" ++ text ++ "`"
  | .badPrefix => "invalid prefix in `" ++ text ++ "`"
  | .tooLong length address =>
    "prefix /" ++ length.repr ++ " is too long for `" ++ address ++ "`"

/-- One to three digits for a number below 256. -/
def prefixLength? (text : List Char) : Option Nat :=
  if text ≠ [] ∧ text.length ≤ 3 ∧ text.all Char.isDigit ∧ Text.natOfDigits text < 256 then
    some (Text.natOfDigits text)
  else
    none

/-- The range of one address. -/
def single (a : Address) : IpRange := ⟨a, UInt8.ofNat a.width⟩

/-- An address, or an address and a prefix length with a slash between them. -/
def ofText (text : String) : Except Fault IpRange :=
  let (addressText, lengthText) :=
    match Text.breakFirst? ['/'] text.toList with
    | some (before, after) => (before, some after)
    | none => (text.toList, none)
  match Address.ofChars? addressText with
  | none => .error .noAddress
  | some address =>
    match lengthText with
    | none => .ok (single address)
    | some digits =>
      match prefixLength? digits with
      | none => .error .badPrefix
      | some length =>
        if address.width < length then .error (.tooLong length (String.ofList addressText))
        else .ok ⟨address, UInt8.ofNat length⟩

/-- The prefix length is left out when it is the whole width. -/
def text (r : IpRange) : String :=
  if r.prefixLength.toNat = r.address.width then r.address.text
  else r.address.text ++ "/" ++ r.prefixLength.toNat.repr

end IpRange
end AccessPolicy
