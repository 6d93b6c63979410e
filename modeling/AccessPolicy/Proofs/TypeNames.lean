import AccessPolicy.EntityUid
import AccessPolicy.Proofs.TextCutting

/-!
The names of entity types. The segments of a name are cut off from the left, each at the
first separator in what is left of the name, so that a run of more than two colons has a
separator at its start. A uid that is read from a text has a well-formed name.
-/

namespace AccessPolicy
namespace EntityType

/-- A name and what it is cut into from the left. -/
inductive CutInto : List Char → List (List Char) → Prop where
  | last {text : List Char} (h : ¬ separator <:+: text) : CutInto text [text]
  | first {before after : List Char} {rest : List (List Char)}
      (h : ¬ separator <:+: before ++ [':']) (hrest : CutInto after rest) :
      CutInto (before ++ (separator ++ after)) (before :: rest)

theorem segments_cons {c : Char} {text segment : List Char} {rest : List (List Char)}
    (h : ¬ separator <+: c :: text) (hsegments : segments text = segment :: rest) :
    segments (c :: text) = (c :: segment) :: rest := by
  rw [segments.eq_3 c text fun after hc htext => ?_, hsegments]
  subst hc htext
  exact h (List.prefix_append separator after)

theorem segments_of_unseparated {text : List Char} (h : ¬ separator <:+: text) :
    segments text = [text] := by
  induction text with
  | nil => rfl
  | cons c text ih =>
      rw [List.infix_cons_iff, not_or] at h
      exact segments_cons h.1 (ih h.2)

theorem segments_append {before : List Char} (h : ¬ separator <:+: before ++ [':'])
    (after : List Char) :
    segments (before ++ (separator ++ after)) = before :: segments after := by
  induction before with
  | nil => rfl
  | cons c before ih =>
      rw [List.cons_append, List.infix_cons_iff, not_or] at h
      have hstart : ¬ separator <+: c :: before ++ (separator ++ after) :=
        mt (Text.prefix_append_dropLast_iff (List.cons_ne_nil c before) after).mpr h.1
      exact segments_cons hstart (ih h.2)

theorem cutInto_segments (text : List Char) : CutInto text (segments text) := by
  cases hbreak : Text.breakFirst? separator text with
  | none =>
      have hnone := (Text.breakFirst?_eq_none_iff (by decide)).mp hbreak
      rw [segments_of_unseparated hnone]
      exact .last hnone
  | some cut =>
      obtain ⟨before, after⟩ := cut
      obtain ⟨htext, hfirst⟩ := (Text.breakFirst?_eq_some_iff (by decide)).mp hbreak
      have hshorter : after.length < text.length := by
        have hpos : 0 < separator.length := by decide
        rw [htext, List.length_append, List.length_append]
        omega
      rw [htext, segments_append hfirst]
      exact .first hfirst (cutInto_segments after)
termination_by text.length
decreasing_by exact hshorter

theorem cutInto_iff {text : List Char} {parts : List (List Char)} :
    CutInto text parts ↔ segments text = parts := by
  refine ⟨fun h => ?_, fun h => h ▸ cutInto_segments text⟩
  induction h with
  | last h => exact segments_of_unseparated h
  | first h _ ih => rw [segments_append h, ih]

/-- What separates a type name from a quoted identifier, with the opening quote. -/
def opening : List Char := [':', ':', '"']

/-- A type name that can be read back: it and each of its segments have characters, and
nothing in it looks like the start of a quoted identifier. -/
structure WellFormed (t : EntityType) : Prop where
  name_ne : t.name ≠ ""
  segment_ne : ∀ parts, CutInto t.name.toList parts → [] ∉ parts
  no_opening : ¬ opening <:+: t.name.toList

theorem nil_not_mem_segments_iff {text : List Char} :
    [] ∉ segments text ↔ ∀ parts, CutInto text parts → [] ∉ parts := by
  simp [cutInto_iff]

end EntityType
end AccessPolicy
