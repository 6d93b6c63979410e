import AccessPolicy.Pattern.Matching

/-!
The matcher is exact. At every step the elements behind the last wildcard have
taken the characters before the place one by one (`StandsAt`), so whatever an
earlier wildcard could still stand for, the last one can as well. Each step
therefore answers rightly or goes on to where this is so again, without reading
outside the pattern or the text; and no step leads back.
-/

namespace AccessPolicy
namespace Pattern

section Matches

variable {es : List PatternElem} {text : List Char}

theorem matches_literals_iff {passed : List Char} :
    Matches (passed.map .literal ++ es) text ↔ ∃ rest, text = passed ++ rest ∧ Matches es rest := by
  induction passed generalizing text with
  | nil => simp
  | cons c passed ih =>
      simp only [List.map_cons, List.cons_append, matches_literal_iff, ih]
      constructor
      · intro h
        obtain ⟨_, rfl, rest, rfl, hrest⟩ := h
        exact ⟨rest, rfl, hrest⟩
      · intro h
        obtain ⟨rest, rfl, hrest⟩ := h
        exact ⟨passed ++ rest, rfl, rest, rfl, hrest⟩

theorem matches_literals_append_iff (passed : List Char) :
    Matches (passed.map .literal ++ es) (passed ++ text) ↔ Matches es text := by
  simp [matches_literals_iff]

/-- Only wildcards match the empty text. -/
theorem matches_empty_iff : Matches es [] ↔ es.all (· == .wildcard) := by
  induction es with
  | nil => simp [matches_nil_iff]
  | cons e es ih =>
      cases e with
      | literal c => simp [matches_literal_iff]
      | wildcard =>
          rw [matches_wildcard_iff, List.all_cons, beq_self_eq_true, Bool.true_and, ← ih]
          simp [and_assoc]

/-- A wildcard stands for nothing, or for the first character and maybe more. -/
theorem matches_wildcard_cons_iff {c : Char} :
    Matches (.wildcard :: es) (c :: text) ↔
      Matches es (c :: text) ∨ Matches (.wildcard :: es) text := by
  constructor
  · intro h
    obtain ⟨piece, rest, htext, hrest⟩ := matches_wildcard_iff.mp h
    cases piece with
    | nil => exact .inl (htext ▸ hrest)
    | cons d piece =>
        obtain ⟨rfl, rfl⟩ := List.cons.inj htext
        exact .inr (.wildcard piece hrest)
  · intro h
    rcases h with h | h
    · exact .wildcard [] h
    · obtain ⟨piece, rest, rfl, hrest⟩ := matches_wildcard_iff.mp h
      exact .wildcard (c :: piece) hrest

theorem matches_wildcard_twice_iff :
    Matches (.wildcard :: .wildcard :: es) text ↔ Matches (.wildcard :: es) text := by
  constructor
  · intro h
    obtain ⟨piece, more, rfl, hmore⟩ := matches_wildcard_iff.mp h
    obtain ⟨next, rest, rfl, hrest⟩ := matches_wildcard_iff.mp hmore
    rw [← List.append_assoc]
    exact .wildcard (piece ++ next) hrest
  · exact .wildcard []

/-- Literals that fit right behind a wildcard fit nowhere better: what follows
them then matches up to the characters that the wildcard would stand for. -/
theorem Matches.skip_literals {passed : List Char}
    (h : Matches (.wildcard :: (passed.map .literal ++ es)) (passed ++ text)) :
    Matches (.wildcard :: es) text := by
  obtain ⟨piece, more, htext, hmore⟩ := matches_wildcard_iff.mp h
  obtain ⟨rest, rfl, hrest⟩ := matches_literals_iff.mp hmore
  have hlen : rest.length ≤ text.length := by
    have := congrArg List.length htext
    simp only [List.length_append] at this
    omega
  have hsuffix : rest <:+ passed ++ text := ⟨piece ++ passed, by rw [htext, List.append_assoc]⟩
  obtain ⟨before, rfl⟩ := List.suffix_of_suffix_length_le hsuffix (List.suffix_append _ _) hlen
  exact .wildcard before hrest

end Matches

/-- The cursor that has taken as many literals with their characters. -/
def Cursor.along (c : Cursor) : Nat → Cursor
  | 0 => c
  | n + 1 => (c.along n).advance

namespace Cursor

variable {c : Cursor} {n : Nat}

@[simp] theorem along_elem : (c.along n).elem = c.elem + n := by
  induction n with
  | zero => rfl
  | succ n ih => exact congrArg (· + 1) ih

@[simp] theorem along_place : (c.along n).place = c.place + n := by
  induction n with
  | zero => rfl
  | succ n ih => exact congrArg (· + 1) ih

theorem fallBack_along : (c.along n).fallBack = c.fallBack := by
  induction n with
  | zero => rfl
  | succ n ih => exact ih

end Cursor

/-- The matcher stands before the elements `es` and the characters `cs`. Without
a mark, all that lies before are literals and their characters. With a mark, the
text matches just if it does so from the marked wildcard on, and literals and
their characters lie between there and here. -/
inductive StandsAt (elems : List PatternElem) (text : List Char) :
    Cursor → List PatternElem → List Char → Prop where
  | unmarked (passed : List Char) {es : List PatternElem} {cs : List Char}
      (helems : elems = passed.map .literal ++ es) (htext : text = passed ++ cs) :
      StandsAt elems text (Cursor.start.along passed.length) es cs
  | marked (before : List PatternElem) (taken passed : List Char) {es : List PatternElem}
      {cs : List Char} (helems : elems = before ++ .wildcard :: (passed.map .literal ++ es))
      (htext : text = taken ++ (passed ++ cs))
      (settled : Matches elems text ↔
        Matches (.wildcard :: (passed.map .literal ++ es)) (passed ++ cs)) :
      StandsAt elems text
        ((Cursor.behind ⟨before.length, taken.length⟩).along passed.length) es cs

/-- The move answers rightly or goes on to where the matcher may stand. -/
def Move.Sound (elems : List PatternElem) (text : List Char) : Move → Prop
  | .answer matched => matched = true ↔ Matches elems text
  | .go next => ∃ es cs, StandsAt elems text next es cs

namespace StandsAt

variable {elems es : List PatternElem} {text cs : List Char} {c : Cursor} {d : Char}

theorem start : StandsAt elems text Cursor.start elems text :=
  .unmarked [] rfl rfl

/-- The elements and the characters before the cursor. -/
theorem exists_append (h : StandsAt elems text c es cs) :
    ∃ before seen, elems = before ++ es ∧ before.length = c.elem ∧
      text = seen ++ cs ∧ seen.length = c.place := by
  cases h with
  | unmarked passed helems htext =>
      refine ⟨passed.map .literal, passed, helems, ?_, htext, ?_⟩
      · simp [Cursor.start]
      · simp [Cursor.start]
  | marked before taken passed helems htext _ =>
      refine ⟨before ++ .wildcard :: passed.map .literal, taken ++ passed, ?_, ?_, ?_, ?_⟩
      · rw [helems, List.append_assoc, List.cons_append]
      · simp only [List.length_append, List.length_cons, List.length_map, Cursor.along_elem,
          Cursor.behind]
        omega
      · rw [htext, List.append_assoc]
      · simp [Cursor.behind]

/-- If what is left matches, so does the whole. -/
theorem matches_of_rest (h : StandsAt elems text c es cs) (hrest : Matches es cs) :
    Matches elems text := by
  cases h with
  | unmarked passed helems htext =>
      rw [helems, htext]
      exact (matches_literals_append_iff passed).mpr hrest
  | marked before taken passed _ _ settled =>
      exact settled.mpr (.wildcard [] ((matches_literals_append_iff passed).mpr hrest))

/-- If the whole matches, then what is left does, or would if the last wildcard
stood for more. -/
theorem rest_of_matches (h : StandsAt elems text c es cs) (hwhole : Matches elems text) :
    Matches es cs ∨ Matches (.wildcard :: es) cs := by
  cases h with
  | unmarked passed helems htext =>
      rw [helems, htext] at hwhole
      exact .inl ((matches_literals_append_iff passed).mp hwhole)
  | marked before taken passed _ _ settled => exact .inr (settled.mp hwhole).skip_literals

theorem matches_iff_of_empty (h : StandsAt elems text c es []) :
    Matches elems text ↔ Matches es [] := by
  refine ⟨fun hwhole => ?_, h.matches_of_rest⟩
  rcases h.rest_of_matches hwhole with hrest | hrest
  · exact hrest
  · rwa [matches_empty_iff, List.all_cons, beq_self_eq_true, Bool.true_and,
      ← matches_empty_iff] at hrest

/-- Another wildcard can stand for whatever the last one would. -/
theorem matches_iff_of_wildcard (h : StandsAt elems text c (.wildcard :: es) cs) :
    Matches elems text ↔ Matches (.wildcard :: es) cs := by
  refine ⟨fun hwhole => ?_, h.matches_of_rest⟩
  rcases h.rest_of_matches hwhole with hrest | hrest
  · exact hrest
  · exact matches_wildcard_twice_iff.mp hrest

theorem advance (h : StandsAt elems text c (.literal d :: es) (d :: cs)) :
    StandsAt elems text c.advance es cs := by
  have helem (passed : List Char) : passed.map PatternElem.literal ++ .literal d :: es =
      (passed ++ [d]).map .literal ++ es := by
    simp
  have hplace (passed : List Char) : passed ++ d :: cs = passed ++ [d] ++ cs :=
    List.append_cons passed d cs
  cases h with
  | unmarked passed helems htext =>
      rw [helem] at helems
      rw [hplace] at htext
      have := StandsAt.unmarked (passed ++ [d]) helems htext
      rwa [List.length_append] at this
  | marked before taken passed helems htext settled =>
      rw [helem] at helems settled
      rw [hplace] at htext settled
      have := StandsAt.marked before taken (passed ++ [d]) helems htext settled
      rwa [List.length_append] at this

theorem pass (h : StandsAt elems text c (.wildcard :: es) cs) :
    StandsAt elems text c.pass es cs := by
  obtain ⟨before, seen, helems, hbefore, htext, hseen⟩ := h.exists_append
  rw [Cursor.pass, ← hbefore, ← hseen]
  exact .marked before seen [] helems htext h.matches_iff_of_wildcard

/-- What is left does not match, so the last wildcard has to stand for more. -/
theorem fallBack_sound (h : StandsAt elems text c es (d :: cs)) (hes : ¬ Matches es (d :: cs)) :
    c.fallBack.Sound elems text := by
  cases h with
  | unmarked passed helems htext =>
      rw [Cursor.fallBack_along]
      refine ⟨nofun, fun hwhole => ?_⟩
      rw [helems, htext, matches_literals_append_iff] at hwhole
      exact absurd hwhole hes
  | marked before taken passed helems htext settled =>
      rw [← matches_literals_append_iff passed] at hes
      -- the wildcard takes the first character after its place, literal or not
      obtain ⟨t, ts, hts⟩ := List.exists_cons_of_ne_nil (l := passed ++ d :: cs) (by simp)
      rw [hts, List.append_cons] at htext
      rw [hts] at hes
      rw [hts, matches_wildcard_cons_iff, or_iff_right hes] at settled
      have hnext := StandsAt.marked before (taken ++ [t]) [] helems htext settled
      rw [List.length_append] at hnext
      rw [Cursor.fallBack_along]
      exact ⟨_, _, hnext⟩

/-- The matcher reads what it stands before. -/
theorem getElem?_elem (h : StandsAt elems text c es cs) :
    elems.toArray[c.elem]? = es.head? := by
  obtain ⟨before, _, rfl, hbefore, _⟩ := h.exists_append
  rw [List.getElem?_toArray, ← hbefore, List.getElem?_append_right (Nat.le_refl _),
    Nat.sub_self, List.head?_eq_getElem?]

theorem getElem?_place (h : StandsAt elems text c es cs) :
    text.toArray[c.place]? = cs.head? := by
  obtain ⟨_, seen, _, _, rfl, hseen⟩ := h.exists_append
  rw [List.getElem?_toArray, ← hseen, List.getElem?_append_right (Nat.le_refl _),
    Nat.sub_self, List.head?_eq_getElem?]

theorem elemsFrom?_elem (h : StandsAt elems text c es cs) :
    elemsFrom? elems.toArray c.elem = some es := by
  obtain ⟨before, _, rfl, hbefore, _⟩ := h.exists_append
  simp [elemsFrom?, ← hbefore]

theorem place_lt_iff (h : StandsAt elems text c es cs) :
    c.place < text.toArray.size ↔ cs ≠ [] := by
  obtain ⟨_, seen, _, _, rfl, hseen⟩ := h.exists_append
  simp [← hseen, List.length_pos_iff]

/-- A step reads nothing outside and leads to something sound. -/
theorem exists_step? (h : StandsAt elems text c es cs) :
    ∃ m, c.step? elems.toArray text.toArray = some m ∧ m.Sound elems text := by
  cases cs with
  | nil =>
      refine ⟨.answer (es.all (· == .wildcard)), ?_, ?_⟩
      · rw [Cursor.step?, if_neg fun hlt => h.place_lt_iff.mp hlt rfl, h.elemsFrom?_elem]
        rfl
      · rw [Move.Sound, h.matches_iff_of_empty, matches_empty_iff]
  | cons d cs =>
      rw [Cursor.step?, if_pos (h.place_lt_iff.mpr (List.cons_ne_nil d cs)), h.getElem?_elem,
        h.getElem?_place]
      cases es with
      | nil => exact ⟨_, rfl, h.fallBack_sound (by simp [matches_nil_iff])⟩
      | cons e es =>
          cases e with
          | wildcard => exact ⟨_, rfl, es, _, h.pass⟩
          | literal e =>
              by_cases heq : e = d
              · subst heq
                exact ⟨.go c.advance, by simp, es, cs, h.advance⟩
              · refine ⟨c.fallBack, by simp [heq], h.fallBack_sound ?_⟩
                rw [matches_literal_iff]
                intro hmatch
                obtain ⟨_, hcons, _⟩ := hmatch
                exact heq (List.cons.inj hcons).1.symm

/-- All steps together end with the right answer. -/
theorem exists_run? {c : Cursor} {es : List PatternElem} {cs : List Char}
    (h : StandsAt elems text c es cs) :
    ∃ matched, c.run? elems.toArray text.toArray = some matched ∧
      (matched = true ↔ Matches elems text) := by
  obtain ⟨m, hm, hsound⟩ := h.exists_step?
  cases m with
  | answer matched => exact ⟨matched, Cursor.run?_of_answer hm, hsound⟩
  | go next =>
      obtain ⟨es', cs', hnext⟩ := hsound
      rw [Cursor.run?_of_go hm]
      exact hnext.exists_run?
termination_by c.left elems.toArray text.toArray
decreasing_by exact Cursor.step?_less hm

end StandsAt

theorem Cursor.less_wellFounded (elems : Array PatternElem) (text : Array Char) :
    WellFounded (Less elems text) :=
  InvImage.wf (left elems text) WellFoundedRelation.wf

/-- Matching comes to an end wherever it starts, reads nothing outside the
pattern and the text, and finds a match just if the text falls into pieces, one
for each element. -/
theorem matches?_exact (p : Pattern) (text : String) :
    (WellFounded fun next c : Cursor =>
      c.step? p.elems.toArray text.toList.toArray = some (.go next)) ∧
    p.matches? text = some (p.matchesText text) ∧
      (p.matchesText text ↔ Matches p.elems text.toList) := by
  have hstart : StandsAt p.elems text.toList .start p.elems text.toList := .start
  obtain ⟨matched, hrun, hmatched⟩ := hstart.exists_run?
  have hanswer : p.matches? text = some matched := hrun
  rw [matchesText, hanswer]
  exact ⟨Subrelation.wf Cursor.step?_less (Cursor.less_wellFounded _ _), rfl, hmatched⟩

end Pattern
end AccessPolicy
