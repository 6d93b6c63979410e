import AccessPolicy.Value

/-!
Well-formed values: the members of every set are unequal, the fields of every
record are in increasing order of their names, and no address range has a
prefix that is longer than its address.
-/

namespace AccessPolicy

/-- The prefix fits into the address. -/
def IpRange.WellFormed (r : IpRange) : Prop :=
  r.prefixLength.toNat ≤ r.address.width

namespace Value

mutual

def WellFormed : Value → Prop
  | .set members => members.Pairwise (fun v w => (v == w) = false) ∧ ListWellFormed members
  | .record fields => (fields.map Prod.fst).Pairwise (· < ·) ∧ FieldsWellFormed fields
  | .ip range => range.WellFormed
  | _ => True

def ListWellFormed : List Value → Prop
  | [] => True
  | v :: vs => v.WellFormed ∧ ListWellFormed vs

def FieldsWellFormed : List (String × Value) → Prop
  | [] => True
  | f :: fs => f.2.WellFormed ∧ FieldsWellFormed fs

end

theorem listWellFormed_iff {vs : List Value} :
    ListWellFormed vs ↔ ∀ v ∈ vs, v.WellFormed := by
  induction vs with
  | nil => simp [ListWellFormed]
  | cons v vs ih => simp [ListWellFormed, ih]

theorem fieldsWellFormed_iff {fs : List (String × Value)} :
    FieldsWellFormed fs ↔ ∀ f ∈ fs, f.2.WellFormed := by
  induction fs with
  | nil => simp [FieldsWellFormed]
  | cons f fs ih => simp only [FieldsWellFormed, List.forall_mem_cons, ih]

end Value

/-- The record is a well-formed value. -/
def Record.WellFormed (r : Record) : Prop :=
  (Value.record r).WellFormed

end AccessPolicy
