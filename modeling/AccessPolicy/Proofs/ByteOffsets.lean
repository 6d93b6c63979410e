import AccessPolicy.Proofs.TextCutting

/-!
Texts addressed by the offsets of their bytes. A text can be cut out between two
offsets only where characters start, and the offset at which another text is first
found is such a place, as is any offset that has whole characters before it.
-/

namespace AccessPolicy
namespace Text

open String.Slice.Pattern.Model

/-- The text between two byte offsets. There is none if they are not in order, or if
one of them lies beyond the end or inside a character. -/
def between? (text : String) (first last : Nat) : Option String := do
  let start ← text.pos? ⟨first⟩
  let stop ← text.pos? ⟨last⟩
  let slice ← text.slice? start stop
  some slice.copy

theorem exists_pos?_of_append {text before after : String} (h : text = before ++ after) :
    ∃ p : text.Pos, text.pos? ⟨before.utf8ByteSize⟩ = some p ∧ p.Splits before after := by
  have hvalid : (⟨before.utf8ByteSize⟩ : String.Pos.Raw).IsValid text :=
    String.Pos.Raw.isValid_iff_exists_append.mpr ⟨before, after, h, rfl⟩
  refine ⟨text.pos _ hvalid, ?_, ⟨h, rfl⟩⟩
  rw [String.pos?, String.Slice.pos?, dif_pos (by simpa using hvalid.toSlice)]
  rfl

theorem between?_append {whole before text after : String}
    (h : whole = before ++ (text ++ after)) :
    between? whole before.utf8ByteSize (before.utf8ByteSize + text.utf8ByteSize) = some text := by
  have hend : whole = before ++ text ++ after := h.trans String.append_assoc.symm
  obtain ⟨start, hstart, hbefore⟩ := exists_pos?_of_append h
  obtain ⟨stop, hstop, hafter⟩ := exists_pos?_of_append hend
  obtain ⟨hle, hslice⟩ := String.copy_slice_eq_iff_splits.mpr ⟨before, after, hbefore, hafter⟩
  rw [String.utf8ByteSize_append] at hstop
  rw [between?, hstart, hstop]
  simp [String.slice?, hle, hslice]

theorem find?_eq_none_iff {pattern text : String} :
    text.find? pattern = none ↔ ¬ pattern.toList <:+: text.toList := by
  rw [String.find?_eq_find?_toSlice, Option.map_eq_none_iff, String.Slice.find?_eq_none_iff,
    String.Slice.contains_string_eq_false_iff, String.copy_toSlice]

/-- A text is found where it is first cut out. -/
theorem exists_find?_of_breakFirst? {pattern text : String} {before after : List Char}
    (hne : pattern ≠ "")
    (h : breakFirst? pattern.toList text.toList = some (before, after)) :
    ∃ p : text.Pos, text.find? pattern = some p ∧
      p.Splits (String.ofList before) (pattern ++ String.ofList after) := by
  have := ForwardStringSearcher.strictPatternModel hne
  have := ForwardStringSearcher.lawfulToForwardSearcherModel hne
  obtain ⟨htext, hfirst⟩ := (breakFirst?_eq_some_iff (by simpa using hne)).mp h
  have hsplit : text = String.ofList before ++ (pattern ++ String.ofList after) := by
    rw [← String.toList_inj]
    simpa using htext
  have hp := String.Pos.splits_ofEqAppend hsplit
  refine ⟨.ofEqAppend hsplit, ?_, hp⟩
  rw [String.find?_eq_find?_toSlice, Option.map_eq_some_iff]
  refine ⟨(String.Pos.ofEqAppend hsplit).toSlice, ?_, by simp⟩
  rw [find?_eq_some_iff]
  refine ⟨ForwardStringSearcher.matchesAt_iff_splits.mpr ⟨_, _, hp.toSlice⟩, fun q hlt hq => ?_⟩
  -- a place before this one would reach into the pattern from the text before it
  obtain ⟨_, after', hq⟩ := ForwardStringSearcher.matchesAt_iff_splits.mp hq
  obtain ⟨gap, hgap, hbefore, hafter⟩ := (hq.lt_iff_exists_eq_append hp.toSlice).mp hlt
  have hprefix : pattern.toList <+: gap.toList ++ (pattern.toList ++ after) :=
    ⟨after'.toList, by simpa using congrArg String.toList hafter⟩
  have hstart := (prefix_append_dropLast_iff (by simpa using hgap) after).mpr hprefix
  have hbefore := congrArg String.toList hbefore
  rw [String.toList_ofList, String.toList_append] at hbefore
  rw [hbefore, List.append_assoc] at hfirst
  exact hfirst (hstart.isInfix.trans (List.suffix_append _ _).isInfix)

end Text
end AccessPolicy
