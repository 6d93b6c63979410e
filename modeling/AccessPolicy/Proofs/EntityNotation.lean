import AccessPolicy.Proofs.ByteOffsets
import AccessPolicy.Proofs.QuotedText
import AccessPolicy.Proofs.TypeNames

/-!
The texts of uids. A text is read as a uid just if it spells the uid and the type name
is well-formed, and reading cuts it at places where characters start. The text of a uid
with such a name is read back, with the escapes of the identifier taken as they stand.
Type names may have separators and quotes in them, and still no two uids share a text:
no quote between the quotes follows a colon, so the last opening is where the name ends.
-/

namespace AccessPolicy
namespace EntityUid

open EntityType (separator opening)

/-- A text denotes a uid: it has the type name, and behind it the identifier in quotes,
as it stands there, or else the bare identifier behind the last separator, if no quote
follows a separator anywhere. -/
inductive SpelledBy (u : EntityUid) : List Char → Prop where
  | quoted : SpelledBy u (u.type.name.toList ++ (opening ++ (u.id.toList ++ ['"'])))
  | bare (hopening : ¬ opening <:+: u.type.name.toList ++ (separator ++ u.id.toList))
      (hlast : ¬ separator <:+: ':' :: u.id.toList) :
      SpelledBy u (u.type.name.toList ++ (separator ++ u.id.toList))

section

variable {text type id rest : List Char}

theorem dropClosingQuote?_eq_some_iff :
    dropClosingQuote? rest = some id ↔ rest = id ++ ['"'] := by
  rw [dropClosingQuote?]
  constructor
  · intro h
    split at h
    · next hlast =>
      obtain ⟨front, rfl⟩ := List.getLast?_eq_some_iff.mp hlast
      rw [List.dropLast_concat, Option.some.injEq] at h
      rw [h]
    · cases h
  · rintro rfl
    rw [if_pos List.getLast?_concat, List.dropLast_concat]

/-- No opening reaches into another one, since only its last character is a quote. -/
theorem breakFirst?_opening_eq_some_iff :
    Text.breakFirst? [':', ':', '"'] text = some (type, rest) ↔
      text = type ++ (opening ++ rest) ∧ ¬ opening <:+: type := by
  have hreach : [':', ':'] ++ ['"'] <:+: type ++ [':', ':'] ↔ [':', ':'] ++ ['"'] <:+: type :=
    Text.infix_append_iff (by decide)
  exact (Text.breakFirst?_eq_some_iff (by decide)).trans
    (and_congr_right fun _ => not_congr hreach)

theorem breakFirst?_opening_eq_none_iff :
    Text.breakFirst? [':', ':', '"'] text = none ↔ ¬ opening <:+: text :=
  Text.breakFirst?_eq_none_iff (by decide)

theorem breakLast?_separator_eq_some_iff :
    Text.breakLast? separator text = some (type, id) ↔
      text = type ++ (separator ++ id) ∧ ¬ separator <:+: ':' :: id :=
  Text.breakLast?_eq_some_iff (by decide)

theorem parts_eq_ok_iff {u : EntityUid} :
    parts text = .ok (u.type.name.toList, u.id.toList) ↔
      ¬ opening <:+: u.type.name.toList ∧ u.SpelledBy text := by
  rw [parts]
  constructor
  · intro h
    split at h
    · next hbreak =>
      split at h
      · next hclose =>
        cases h
        obtain ⟨rfl, htype⟩ := breakFirst?_opening_eq_some_iff.mp hbreak
        rw [dropClosingQuote?_eq_some_iff.mp hclose]
        exact ⟨htype, .quoted⟩
      · cases h
    · next hbreak =>
      split at h
      · next hlast =>
        cases h
        obtain ⟨rfl, hrest⟩ := breakLast?_separator_eq_some_iff.mp hlast
        have hopening := breakFirst?_opening_eq_none_iff.mp hbreak
        exact ⟨fun h => hopening (h.trans (List.prefix_append _ _).isInfix), .bare hopening hrest⟩
      · cases h
  · rintro ⟨htype, hspelled⟩
    cases hspelled with
    | quoted =>
        have hclose : dropClosingQuote? (u.id.toList ++ ['"']) = some u.id.toList :=
          dropClosingQuote?_eq_some_iff.mpr rfl
        simp only [breakFirst?_opening_eq_some_iff.mpr ⟨rfl, htype⟩, hclose]
    | bare hopening hlast =>
        simp only [breakFirst?_opening_eq_none_iff.mpr hopening,
          breakLast?_separator_eq_some_iff.mpr ⟨rfl, hlast⟩]

end

theorem toList_text (u : EntityUid) :
    u.text.toList =
      u.type.name.toList ++ (opening ++ (Text.escapeChars u.id.toList ++ ['"'])) := by
  simp [text, Text.quote, opening]

/-- A text is read as a uid exactly if it denotes the uid and the type name is such. -/
theorem ofText_eq_ok_iff {text : String} {u : EntityUid} :
    ofText text = .ok u ↔ u.type.WellFormed ∧ u.SpelledBy text.toList := by
  constructor
  · intro h
    rw [ofText] at h
    split at h
    · cases h
    · next type id hparts =>
      split at h
      · cases h
      · next hsegments =>
        cases h
        have hname : type ≠ [] := by
          rintro rfl
          exact hsegments List.mem_cons_self
        rw [← String.toList_ofList (l := type), ← String.toList_ofList (l := id)] at hparts
        obtain ⟨htype, hspelled⟩ := parts_eq_ok_iff (u := ⟨⟨_⟩, _⟩).mp hparts
        rw [EntityType.nil_not_mem_segments_iff, ← String.toList_ofList (l := type)] at hsegments
        exact ⟨⟨by simpa using hname, hsegments, htype⟩, hspelled⟩
  · rintro ⟨htype, hspelled⟩
    have hparts := parts_eq_ok_iff.mpr ⟨htype.no_opening, hspelled⟩
    have hsegments := EntityType.nil_not_mem_segments_iff.mpr htype.segment_ne
    simp only [ofText, hparts, if_neg hsegments, String.ofList_toList]

/-- The text of a uid denotes it, but for the escapes, which are taken as they stand. -/
theorem ofText_text {u : EntityUid} (h : u.type.WellFormed) :
    ofText u.text = .ok ⟨u.type, Text.escape u.id⟩ := by
  refine ofText_eq_ok_iff.mpr ⟨h, ?_⟩
  have hid : Text.escapeChars u.id.toList = (Text.escape u.id).toList :=
    String.toList_ofList.symm
  rw [toList_text, hid]
  exact .quoted

theorem escape_eq_self_iff {id : String} :
    Text.escape id = id ↔ ∀ c ∈ id.toList, Text.IsPlain c := by
  rw [← Text.escapeChars_eq_self_iff, Text.escape, ← String.toList_inj, String.toList_ofList]

/-- The parts of a text, cut out between byte offsets: a quoted identifier starts three
bytes behind the first opening and ends one byte before the end of the text. There is
no answer if one of them cannot be cut out. -/
def partsSliced? (text : String) : Option (Except Fault (String × String)) :=
  match text.find? "::\"" with
  | some start =>
    let offset := start.offset.byteIdx
    if text.endsWith '"' ∧ offset + 3 < text.utf8ByteSize then do
      let type ← Text.between? text 0 offset
      let id ← Text.between? text (offset + 3) (text.utf8ByteSize - 1)
      some (.ok (type, id))
    else
      some (.error .unterminatedId)
  | none =>
    match Text.breakLast? separator text.toList with
    | some (type, id) => some (.ok (String.ofList type, String.ofList id))
    | none => some (.error .missingType)

/-- The reading of a uid by byte offsets. -/
def ofTextSliced? (text : String) : Option (Except Fault EntityUid) := do
  match ← partsSliced? text with
  | .error fault => some (.error fault)
  | .ok (type, id) =>
    if type = "" ∨ (EntityType.segments type.toList).any List.isEmpty then
      some (.error .emptySegment)
    else some (.ok ⟨⟨type⟩, id⟩)

theorem utf8ByteSize_of_opening {text type rest : String} (h : text = type ++ ("::\"" ++ rest)) :
    text.utf8ByteSize = type.utf8ByteSize + 3 + rest.utf8ByteSize := by
  have hopening : "::\"".utf8ByteSize = 3 := by decide
  rw [h, String.utf8ByteSize_append, String.utf8ByteSize_append, hopening, Nat.add_assoc]

/-- The length tells a closing quote from an opening one at the end of a text. -/
theorem endsWith_quote_iff {text type : String} {rest : List Char}
    (h : text = type ++ ("::\"" ++ String.ofList rest)) :
    text.endsWith '"' ∧ type.utf8ByteSize + 3 < text.utf8ByteSize ↔ rest.getLast? = some '"' := by
  rw [utf8ByteSize_of_opening h, String.endsWith_char_eq_getLast?, h]
  cases rest with
  | nil => simp
  | cons c rest =>
      have hsize := Char.utf8Size_pos c
      have hpos : (c :: rest).getLast? = some '"' →
          0 < c.utf8Size + (String.ofList rest).utf8ByteSize := fun _ => by omega
      simpa using hpos

theorem between?_type {text type rest : String} (h : text = type ++ ("::\"" ++ rest)) :
    Text.between? text 0 type.utf8ByteSize = some type := by
  have hwhole : text = "" ++ (type ++ ("::\"" ++ rest)) := by rw [String.empty_append, h]
  simpa using Text.between?_append hwhole

theorem between?_id {text type id : String} (h : text = type ++ ("::\"" ++ (id ++ "\""))) :
    Text.between? text (type.utf8ByteSize + 3) (text.utf8ByteSize - 1) = some id := by
  have hopening : (type ++ "::\"").utf8ByteSize = type.utf8ByteSize + 3 := by
    rw [String.utf8ByteSize_append]
    rfl
  have hclosing : (id ++ "\"").utf8ByteSize = id.utf8ByteSize + 1 := by
    rw [String.utf8ByteSize_append]
    rfl
  have hend : text.utf8ByteSize - 1 = type.utf8ByteSize + 3 + id.utf8ByteSize := by
    rw [utf8ByteSize_of_opening h, hclosing, ← Nat.add_assoc, Nat.add_sub_cancel]
  rw [hend, ← hopening]
  exact Text.between?_append (h.trans String.append_assoc.symm)

/-- Every part can be cut out, and the parts are those found by their characters. -/
theorem partsSliced?_eq (text : String) :
    partsSliced? text =
      some ((parts text.toList).map fun (type, id) => (String.ofList type, String.ofList id)) := by
  rw [partsSliced?, parts]
  cases hbreak : Text.breakFirst? [':', ':', '"'] text.toList with
  | none =>
      have hfind : text.find? "::\"" = none :=
        Text.find?_eq_none_iff.mpr (breakFirst?_opening_eq_none_iff.mp hbreak)
      rw [hfind]
      cases Text.breakLast? separator text.toList <;> rfl
  | some cut =>
      obtain ⟨type, rest⟩ := cut
      have hcut : Text.breakFirst? "::\"".toList text.toList = some (type, rest) := hbreak
      obtain ⟨start, hfind, hstart⟩ := Text.exists_find?_of_breakFirst? (by decide) hcut
      have hoffset : start.offset.byteIdx = (String.ofList type).utf8ByteSize :=
        congrArg String.Pos.Raw.byteIdx hstart.offset_eq_rawEndPos
      have htext := hstart.eq_append
      rw [hfind]
      simp only [hoffset, endsWith_quote_iff htext, dropClosingQuote?]
      split
      · next hlast =>
        obtain ⟨id, rfl⟩ := List.getLast?_eq_some_iff.mp hlast
        have hquoted : text = String.ofList type ++ ("::\"" ++ (String.ofList id ++ "\"")) := by
          rw [htext, String.ofList_append]
        rw [between?_type htext, between?_id hquoted, List.dropLast_concat]
        rfl
      · rfl

theorem ofTextSliced?_eq (text : String) : ofTextSliced? text = some (ofText text) := by
  rw [ofTextSliced?, partsSliced?_eq, ofText]
  cases parts text.toList with
  | error fault => rfl
  | ok cut =>
      obtain ⟨type, id⟩ := cut
      have hempty : String.ofList type = "" → [] ∈ EntityType.segments type := by
        intro h
        obtain rfl : type = [] := by simpa using h
        exact List.mem_cons_self
      simp only [Except.map, String.toList_ofList, Option.bind_eq_bind, Option.bind_some,
        List.any_eq_true, List.isEmpty_iff, exists_eq_right, or_iff_right_of_imp hempty]
      split <;> rfl

/-- Reading a uid cuts nothing out where no character starts. What is read has a
well-formed type name, and a uid with such a name is read back from its text with the
identifier as it is written there, so as itself exactly if no character of the
identifier needs an escape. -/
theorem ofText_inverts_text :
    (∀ text, ofTextSliced? text = some (ofText text)) ∧
    (∀ text u, ofText text = .ok u → u.type.WellFormed) ∧
    ∀ u : EntityUid, u.type.WellFormed →
      ofText u.text = .ok ⟨u.type, Text.escape u.id⟩ ∧
      (ofText u.text = .ok u ↔ ∀ c ∈ u.id.toList, Text.IsPlain c) := by
  refine ⟨ofTextSliced?_eq, fun _ _ h => (ofText_eq_ok_iff.mp h).1, fun u h => ?_⟩
  refine ⟨ofText_text h, ?_⟩
  obtain ⟨type, id⟩ := u
  rw [ofText_text h, ← escape_eq_self_iff]
  simp

theorem ofText_inverts_text_colons :
    let text := ":A:::B:::\"::\"\""
    let u : EntityUid := ⟨⟨":A:::B:"⟩, "::\""⟩
    ofTextSliced? text = some (ofText text) ∧ ofText text = .ok u ∧ u.type.WellFormed ∧
      ofText u.text = .ok ⟨u.type, Text.escape u.id⟩ ∧
      (ofText u.text = .ok u ↔ ∀ c ∈ u.id.toList, Text.IsPlain c) := by
  intro text u
  have hread : ofText ":A:::B:::\"::\"\"" = .ok ⟨⟨":A:::B:"⟩, "::\""⟩ := rfl
  have htype : u.type.WellFormed := ofText_inverts_text.2.1 text u hread
  exact ⟨ofText_inverts_text.1 text, hread, htype, ofText_inverts_text.2.2 u htype⟩

/-- Between the quotes no quote follows a colon. -/
theorem opening_not_infix_escapeChars (id : List Char) :
    ¬ opening <:+: ':' :: '"' :: Text.escapeChars id := by
  rw [List.infix_cons_iff, not_or]
  constructor
  · simp [opening]
  · intro h
    have hescaped : Text.QuotesEscaped opening :=
      List.IsChain.infix (Text.quotesEscaped_cons_escapeChars '"' id) h
    simp [Text.QuotesEscaped, opening] at hescaped

/-- The type name ends at the last opening before the closing quote. -/
theorem breakLast?_opening (u : EntityUid) :
    Text.breakLast? opening u.text.toList.dropLast =
      some (u.type.name.toList, Text.escapeChars u.id.toList) := by
  rw [toList_text, ← List.append_assoc, ← List.append_assoc, List.dropLast_concat,
    List.append_assoc, Text.breakLast?_eq_some_iff (by decide)]
  exact ⟨rfl, opening_not_infix_escapeChars u.id.toList⟩

/-- Different uids have different texts, whatever characters their names have. -/
theorem text_inj {a b : EntityUid} : a.text = b.text ↔ a = b := by
  refine ⟨fun h => ?_, congrArg text⟩
  have hcut := breakLast?_opening a
  rw [h, breakLast?_opening b, Option.some.injEq, Prod.mk.injEq] at hcut
  obtain ⟨htype, hid⟩ := hcut
  obtain ⟨⟨name⟩, id⟩ := a
  obtain ⟨⟨name'⟩, id'⟩ := b
  have hname : name' = name := String.toList_inj.mp htype
  have hid : id' = id := String.toList_inj.mp (Text.escapeChars_injective hid)
  rw [hname, hid]

end EntityUid
end AccessPolicy
