/-!
Patterns of the `like` operator: literal characters and wildcards, each of which
stands for any text. Matching walks along the pattern and the text at once.
Where the two part it returns to the last wildcard it has passed, and lets that
one stand for one more character; no earlier wildcard is tried again.
-/

namespace AccessPolicy

inductive PatternElem where
  | literal (c : Char)
  | wildcard
deriving DecidableEq, Repr

structure Pattern where
  elems : List PatternElem
deriving DecidableEq, Repr

namespace Pattern

/-- A star is a wildcard and a star after a backslash a literal star. Any other
character stands for itself, a backslash before it included. -/
def elemsOfSource : List Char → List PatternElem
  | '\\' :: '*' :: source => .literal '*' :: elemsOfSource source
  | '*' :: source => .wildcard :: elemsOfSource source
  | c :: source => .literal c :: elemsOfSource source
  | [] => []

def ofSource (source : String) : Pattern :=
  ⟨elemsOfSource source.toList⟩

/-- How an element is written in source form. -/
def elemSource : PatternElem → List Char
  | .wildcard => ['*']
  | .literal c => if c = '*' then ['\\', '*'] else [c]

/-- The source form. -/
def text (p : Pattern) : String :=
  String.ofList (p.elems.flatMap elemSource)

/-- A wildcard that has been passed, and the place in the text up to which it
stands for characters. -/
structure Mark where
  elem : Nat
  place : Nat
deriving DecidableEq, Repr

/-- Where the matcher stands: before an element of the pattern and a place of
the text, with the last wildcard it has passed. -/
structure Cursor where
  elem : Nat
  place : Nat
  mark : Option Mark
  mark_before : ∀ m ∈ mark, m.elem < elem ∧ m.place ≤ place
deriving DecidableEq, Repr

/-- What a step of the matcher leads to. -/
inductive Move where
  | answer (matched : Bool)
  | go (cursor : Cursor)
deriving DecidableEq, Repr

/-- The elements from an index on, which may be the end but not lie behind it. -/
def elemsFrom? (elems : Array PatternElem) (i : Nat) : Option (List PatternElem) :=
  if i ≤ elems.size then some (elems.toList.drop i) else none

namespace Cursor

def start : Cursor := ⟨0, 0, none, nofun⟩

/-- Right behind a wildcard. -/
def behind (m : Mark) : Cursor := ⟨m.elem + 1, m.place, some m, by simp⟩

/-- Beyond a literal and its character. -/
def advance (c : Cursor) : Cursor where
  elem := c.elem + 1
  place := c.place + 1
  mark := c.mark
  mark_before m hm :=
    have h := c.mark_before m hm
    ⟨Nat.lt_succ_of_lt h.1, Nat.le_succ_of_le h.2⟩

/-- Beyond a wildcard, which stands for nothing so far. -/
def pass (c : Cursor) : Cursor := behind ⟨c.elem, c.place⟩

/-- Behind the last wildcard again, which stands for one more character. -/
def fallBack (c : Cursor) : Move :=
  match c.mark with
  | some m => .go (behind ⟨m.elem, m.place + 1⟩)
  | none => .answer false

/-- One step; nothing if it reads outside the pattern or the text. -/
def step? (elems : Array PatternElem) (text : Array Char) (c : Cursor) : Option Move :=
  if c.place < text.size then
    match elems[c.elem]? with
    | some (.literal d) => do
      if d = (← text[c.place]?) then return .go c.advance else return c.fallBack
    | some .wildcard => some (.go c.pass)
    | none => some c.fallBack
  else do
    let rest ← elemsFrom? elems c.elem
    return .answer (rest.all (· == .wildcard))

/-- What is left to do, which no step leads back to: wildcards to mark, then
places to try for the marked one, then characters. -/
def left (elems : Array PatternElem) (text : Array Char) (c : Cursor) : Nat × Nat × Nat :=
  match c.mark with
  | none => (elems.size + 1, 0, text.size - c.place)
  | some m => (elems.size - m.elem, text.size - m.place, text.size - c.place)

/-- The first cursor has less left to do than the second. -/
def Less (elems : Array PatternElem) (text : Array Char) (c d : Cursor) : Prop :=
  Prod.Lex (· < ·) (Prod.Lex (· < ·) (· < ·)) (c.left elems text) (d.left elems text)

variable {elems : Array PatternElem} {text : Array Char} {c next : Cursor}

theorem advance_less (h : c.place < text.size) : c.advance.Less elems text c := by
  have hplace : text.size - (c.place + 1) < text.size - c.place := by omega
  obtain ⟨elem, place, mark, _⟩ := c
  cases mark with
  | none | some m => exact .right _ (.right _ hplace)

theorem pass_less (h : c.elem < elems.size) : c.pass.Less elems text c := by
  obtain ⟨elem, place, mark, hmark⟩ := c
  cases mark with
  | none => exact .left _ _ (Nat.lt_succ_of_le (Nat.sub_le _ _))
  | some m =>
    have hm : m.elem < elem := (hmark m rfl).1
    exact .left _ _ (Nat.sub_lt_sub_left (Nat.lt_trans hm h) hm)

theorem fallBack_less (h : c.place < text.size) (hnext : c.fallBack = .go next) :
    next.Less elems text c := by
  obtain ⟨elem, place, mark, hmark⟩ := c
  cases mark with
  | none => cases hnext
  | some m =>
    cases hnext
    have hm : m.place < text.size := Nat.lt_of_le_of_lt (hmark m rfl).2 h
    exact .right _ (.left _ _ (Nat.sub_lt_sub_left hm (Nat.lt_succ_self _)))

theorem step?_less (hnext : c.step? elems text = some (.go next)) : next.Less elems text c := by
  rw [step?] at hnext
  split at hnext
  · next hplace =>
    split at hnext
    · rw [Array.getElem?_eq_getElem hplace, Option.bind_eq_bind, Option.bind_some] at hnext
      split at hnext
      · cases hnext
        exact advance_less hplace
      · exact fallBack_less hplace (Option.some.inj hnext)
    · next helem =>
      cases hnext
      exact pass_less (Array.getElem?_eq_some_iff.mp helem).1
    · exact fallBack_less hplace (Option.some.inj hnext)
  · cases helems : elemsFrom? elems c.elem <;> simp [helems] at hnext

/-- The answer at the end of all steps; nothing if a step reads outside. -/
def run? (elems : Array PatternElem) (text : Array Char) (c : Cursor) : Option Bool :=
  match _hnext : c.step? elems text with
  | some (.go next) => next.run? elems text
  | some (.answer matched) => some matched
  | none => none
termination_by c.left elems text
decreasing_by exact step?_less _hnext

theorem run?_of_go (h : c.step? elems text = some (.go next)) :
    c.run? elems text = next.run? elems text := by
  rw [run?]
  split <;> simp_all

theorem run?_of_answer {matched : Bool} (h : c.step? elems text = some (.answer matched)) :
    c.run? elems text = some matched := by
  rw [run?]
  split <;> simp_all

end Cursor

def matches? (p : Pattern) (text : String) : Option Bool :=
  Cursor.start.run? p.elems.toArray text.toList.toArray

/-- The whole text matches. -/
def matchesText (p : Pattern) (text : String) : Bool :=
  (p.matches? text).getD false

end Pattern
end AccessPolicy
