/-!
The integers of the language are 64-bit words. Arithmetic is done on the exact
integers and gives an answer only when the exact result is a word, so nothing
wraps.
-/

namespace AccessPolicy

abbrev Long := Int64

namespace Long

/-- An integer that some word denotes. -/
def InRange (n : Int) : Prop := -9223372036854775808 ≤ n ∧ n ≤ 9223372036854775807

instance (n : Int) : Decidable (InRange n) :=
  inferInstanceAs (Decidable (_ ∧ _))

/-- The word for an integer, if there is one. -/
def ofInt? (n : Int) : Option Long :=
  if InRange n then some (Int64.ofInt n) else none

theorem inRange_toInt (a : Long) : InRange a.toInt :=
  ⟨a.le_toInt, Int.le_of_lt_add_one a.toInt_lt⟩

theorem toInt_ofInt {n : Int} (h : InRange n) : (Int64.ofInt n).toInt = n :=
  Int64.toInt_ofInt_of_le h.1 (Int.lt_add_one_of_le h.2)

theorem ofInt?_eq_some_iff {n : Int} {a : Long} : ofInt? n = some a ↔ a.toInt = n := by
  unfold ofInt?
  split
  · next h =>
    rw [Option.some.injEq]
    constructor
    · rintro rfl
      exact toInt_ofInt h
    · rintro rfl
      exact a.ofInt_toInt
  · next h =>
    constructor
    · intro hs
      exact absurd hs (by simp)
    · rintro rfl
      exact absurd (inRange_toInt a) h

theorem ofInt?_eq_none_iff {n : Int} : ofInt? n = none ↔ ¬ InRange n := by
  unfold ofInt?
  split <;> simp_all

def add? (a b : Long) : Option Long := ofInt? (a.toInt + b.toInt)

def sub? (a b : Long) : Option Long := ofInt? (a.toInt - b.toInt)

def mul? (a b : Long) : Option Long := ofInt? (a.toInt * b.toInt)

def neg? (a : Long) : Option Long := ofInt? (-a.toInt)

/-- The decimal numeral, with a minus sign in front of a negative number. -/
def text (a : Long) : String :=
  (if a.toInt < 0 then "-" else "") ++ a.toInt.natAbs.repr

end Long
end AccessPolicy
