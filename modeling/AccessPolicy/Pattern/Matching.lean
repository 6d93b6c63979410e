import AccessPolicy.Pattern

/-!
What it means for a text to match a pattern: it falls into pieces, one for each
element in order.
-/

namespace AccessPolicy
namespace Pattern

/-- A literal takes its character, and a wildcard any characters. -/
inductive Matches : List PatternElem → List Char → Prop where
  | nil : Matches [] []
  | literal (c : Char) {es : List PatternElem} {text : List Char} (rest : Matches es text) :
      Matches (.literal c :: es) (c :: text)
  | wildcard (piece : List Char) {es : List PatternElem} {text : List Char}
      (rest : Matches es text) : Matches (.wildcard :: es) (piece ++ text)

theorem matches_nil_iff {text : List Char} : Matches [] text ↔ text = [] :=
  ⟨fun h => by cases h; rfl, fun h => h ▸ .nil⟩

theorem matches_literal_iff {c : Char} {es : List PatternElem} {text : List Char} :
    Matches (.literal c :: es) text ↔ ∃ rest, text = c :: rest ∧ Matches es rest :=
  ⟨fun h => by cases h with | literal _ rest => exact ⟨_, rfl, rest⟩,
    fun ⟨_, h, rest⟩ => h ▸ .literal c rest⟩

theorem matches_wildcard_iff {es : List PatternElem} {text : List Char} :
    Matches (.wildcard :: es) text ↔ ∃ piece rest, text = piece ++ rest ∧ Matches es rest :=
  ⟨fun h => by cases h with | wildcard piece rest => exact ⟨piece, _, rfl, rest⟩,
    fun ⟨piece, _, h, rest⟩ => h ▸ .wildcard piece rest⟩

end Pattern
end AccessPolicy
