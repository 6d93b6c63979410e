import AccessPolicy.Text.Pieces
import AccessPolicy.Text.Quoted

/-!
Names of entities: a type name, whose segments are separated by `::`, and an
identifier of which nothing is interpreted. Uids are ordered by type name and
then by identifier, both compared by code point.
-/

namespace AccessPolicy

theorem Text.lt_of_not_lt {a b : String} (hlt : ¬ a < b) (hne : a ≠ b) : b < a :=
  Decidable.byContradiction fun hba =>
    hne (String.le_antisymm (String.not_lt.mp hba) (String.not_lt.mp hlt))

/-- The name of an entity type, such as `User` or `Infra::Host`. -/
structure EntityType where
  name : String
deriving DecidableEq, Repr

namespace EntityType

def separator : List Char := [':', ':']

/-- The segments of a name, separated from the left. -/
def segments : List Char → List (List Char)
  | [] => [[]]
  | ':' :: ':' :: text => [] :: segments text
  | c :: text =>
    match segments text with
    | segment :: rest => (c :: segment) :: rest
    | [] => [[c]]

/-- What follows the last separator, or the whole name. -/
def basename (t : EntityType) : String :=
  match Text.breakLast? separator t.name.toList with
  | some (_, after) => String.ofList after
  | none => t.name

/-- What precedes the last separator; empty for a name without one. -/
def outerPath (t : EntityType) : String :=
  match Text.breakLast? separator t.name.toList with
  | some (before, _) => String.ofList before
  | none => ""

/-- The types in the order of their names. -/
def sort (types : List EntityType) : List EntityType :=
  types.mergeSort fun a b => decide (a.name ≤ b.name)

end EntityType

structure EntityUid where
  type : EntityType
  id : String
deriving DecidableEq, Repr

namespace EntityUid

/-- The type name as it is, and the identifier in quotes. -/
def text (u : EntityUid) : String :=
  u.type.name ++ "::" ++ Text.quote u.id

instance : LT EntityUid :=
  ⟨fun u v => u.type.name < v.type.name ∨ (u.type.name = v.type.name ∧ u.id < v.id)⟩

theorem lt_def {u v : EntityUid} :
    u < v ↔ u.type.name < v.type.name ∨ (u.type.name = v.type.name ∧ u.id < v.id) :=
  Iff.rfl

instance (u v : EntityUid) : Decidable (u < v) :=
  decidable_of_iff _ lt_def.symm

theorem lt_irrefl (u : EntityUid) : ¬ u < u := by
  simp [lt_def]

theorem lt_trans {u v w : EntityUid} (huv : u < v) (hvw : v < w) : u < w := by
  rw [lt_def] at *
  rcases huv with h | ⟨h, hi⟩ <;> rcases hvw with k | ⟨k, ki⟩
  · exact .inl (String.lt_trans h k)
  · exact .inl (k ▸ h)
  · exact .inl (h ▸ k)
  · exact .inr ⟨h.trans k, String.lt_trans hi ki⟩

theorem ne_of_lt {u v : EntityUid} (h : u < v) : u ≠ v := by
  rintro rfl
  exact lt_irrefl u h

theorem lt_asymm {u v : EntityUid} (h : u < v) : ¬ v < u :=
  fun h' => lt_irrefl u (lt_trans h h')

theorem lt_of_not_lt {u v : EntityUid} (h : ¬ u < v) (hne : u ≠ v) : v < u := by
  rw [lt_def] at *
  by_cases ht : u.type.name = v.type.name
  · refine .inr ⟨ht.symm, Text.lt_of_not_lt (fun hid => h (.inr ⟨ht, hid⟩)) fun hid => hne ?_⟩
    obtain ⟨⟨_⟩, _⟩ := u
    obtain ⟨⟨_⟩, _⟩ := v
    simp_all
  · exact .inl (Text.lt_of_not_lt (fun hlt => h (.inl hlt)) ht)

theorem lt_of_lt_of_not_lt {u v w : EntityUid} (huv : u < v) (hwv : ¬ w < v) : u < w := by
  by_cases hvw : v = w
  · exact hvw ▸ huv
  · exact lt_trans huv (lt_of_not_lt hwv (Ne.symm hvw))

/-- The uids in their order; equal ones stay and come to stand side by side. -/
def sort (us : List EntityUid) : List EntityUid :=
  us.mergeSort fun u v => !decide (v < u)

@[simp] theorem mem_sort {us : List EntityUid} {u : EntityUid} : u ∈ sort us ↔ u ∈ us :=
  List.mem_mergeSort

theorem sort_ordered (us : List EntityUid) : (sort us).Pairwise fun u v => ¬ v < u := by
  have htrans (u v w : EntityUid) (hvu : ¬ v < u) (hwv : ¬ w < v) : ¬ w < u :=
    fun hwu => hwv (lt_of_lt_of_not_lt hwu hvu)
  have htotal (u v : EntityUid) : ¬ v < u ∨ ¬ u < v :=
    Decidable.or_iff_not_imp_left.mpr fun h => lt_asymm (Decidable.not_not.mp h)
  have hsorted : (sort us).Pairwise fun u v => !decide (v < u) :=
    List.pairwise_mergeSort (by simpa using htrans) (by simpa using htotal) us
  simpa using hsorted

/-- Why a text denotes no uid. -/
inductive Fault where
  | unterminatedId
  | missingType
  | emptySegment
deriving DecidableEq, Repr

def Fault.message (text : String) : Fault → String
  | .unterminatedId =>
    "Failed to parse entity uid: unterminated quoted id in '" ++ text ++ "'"
  | .missingType =>
    "Failed to parse entity uid: missing type in '" ++ text ++
      "' (expected format: [Namespace::]*Type::\"id\")"
  | .emptySegment =>
    "Failed to parse entity uid: empty type segment in '" ++ text ++ "'"

/-- The text without a closing quote at its end. -/
def dropClosingQuote? (text : List Char) : Option (List Char) :=
  if text.getLast? = some '"' then some text.dropLast else none

/-- The type name and the identifier. A quoted identifier starts at the first
`::` before a quote and is taken as it is written; without such a quote the
identifier follows the last `::`. -/
def parts (text : List Char) : Except Fault (List Char × List Char) :=
  match Text.breakFirst? [':', ':', '"'] text with
  | some (type, rest) =>
    match dropClosingQuote? rest with
    | some id => .ok (type, id)
    | none => .error .unterminatedId
  | none =>
    match Text.breakLast? EntityType.separator text with
    | some parts => .ok parts
    | none => .error .missingType

def ofText (text : String) : Except Fault EntityUid :=
  match parts text.toList with
  | .error fault => .error fault
  | .ok (type, id) =>
    if [] ∈ EntityType.segments type then .error .emptySegment
    else .ok ⟨⟨String.ofList type⟩, String.ofList id⟩

end EntityUid
end AccessPolicy
