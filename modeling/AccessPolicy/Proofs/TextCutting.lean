import AccessPolicy.Text.Pieces

/-!
Cutting undoes joining. A text that is joined from pieces without the separator
is cut into these pieces, and a double separator is first found where pieces that
are not empty end. A text is cut at the first or at the last occurrence of a
separator just if none comes before or behind it, those included that overlap it.
-/

namespace AccessPolicy
namespace Text

theorem toList_joinWith (separator : String) (ts : List String) :
    (joinWith separator ts).toList = separator.toList.intercalate (ts.map String.toList) := by
  induction ts with
  | nil => rfl
  | cons t ts ih =>
      cases ts with
      | nil => simp [joinWith]
      | cons u us => simp_all [joinWith]

variable {c : Char}

theorem not_mem_intercalate {d : Char} (hd : d ≠ c) {ps : List (List Char)}
    (h : ∀ p ∈ ps, d ∉ p) : d ∉ [c].intercalate ps := by
  induction ps with
  | nil => exact List.not_mem_nil
  | cons p ps ih =>
      obtain ⟨hp, hps⟩ := List.forall_mem_cons.mp h
      cases ps with
      | nil => simpa using hp
      | cons q qs => simp [hp, hd, ih hps]

theorem pieces_of_not_mem {p : List Char} (h : c ∉ p) : pieces c p = [p] := by
  induction p with
  | nil => rfl
  | cons d p ih =>
      rw [List.mem_cons, not_or] at h
      rw [pieces, if_neg (Ne.symm h.1), ih h.2]

theorem pieces_append {p : List Char} (h : c ∉ p) (text : List Char) :
    pieces c (p ++ c :: text) = p :: pieces c text := by
  induction p with
  | nil => simp [pieces]
  | cons d p ih =>
      rw [List.mem_cons, not_or] at h
      rw [List.cons_append, pieces, if_neg (Ne.symm h.1), ih h.2]

theorem pieces_intercalate {ps : List (List Char)} (hne : ps ≠ []) (h : ∀ p ∈ ps, c ∉ p) :
    pieces c ([c].intercalate ps) = ps := by
  induction ps with
  | nil => exact absurd rfl hne
  | cons p ps ih =>
      obtain ⟨hp, hps⟩ := List.forall_mem_cons.mp h
      cases ps with
      | nil => simpa using pieces_of_not_mem hp
      | cons q qs =>
          rw [List.intercalate_cons_cons, List.append_assoc, List.singleton_append,
            pieces_append hp, ih (List.cons_ne_nil q qs) hps]

/-- Every other character of a text stands in some piece. -/
theorem exists_mem_pieces {d : Char} (hd : d ≠ c) {text : List Char} (h : d ∈ text) :
    ∃ p ∈ pieces c text, d ∈ p := by
  induction text with
  | nil => cases h
  | cons e text ih =>
      rw [pieces]
      split
      · next he =>
        subst he
        obtain ⟨p, hp, hdp⟩ := ih ((List.mem_cons.mp h).resolve_left hd)
        exact ⟨p, List.mem_cons_of_mem _ hp, hdp⟩
      · split
        · next piece rest hpieces =>
          rcases List.mem_cons.mp h with rfl | h
          · exact ⟨_, List.mem_cons_self, List.mem_cons_self⟩
          · obtain ⟨p, hp, hdp⟩ := ih h
            rw [hpieces] at hp
            rcases List.mem_cons.mp hp with rfl | hp
            · exact ⟨_, List.mem_cons_self, List.mem_cons_of_mem _ hdp⟩
            · exact ⟨p, List.mem_cons_of_mem _ hp, hdp⟩
        · next hpieces =>
          rcases List.mem_cons.mp h with rfl | h
          · exact ⟨_, List.mem_cons_self, List.mem_cons_self⟩
          · obtain ⟨p, hp, -⟩ := ih h
            rw [hpieces] at hp
            cases hp

theorem eq_append_of_strip? {front text rest : List Char} (h : strip? front text = some rest) :
    text = front ++ rest := by
  induction front generalizing text with
  | nil => exact Option.some.inj h
  | cons f front ih =>
      cases text with
      | nil => cases h
      | cons d text =>
          rw [strip?] at h
          split at h
          · next hd => rw [← hd, ih h, List.cons_append]
          · cases h

theorem strip?_append (front rest : List Char) : strip? front (front ++ rest) = some rest := by
  induction front with
  | nil => rfl
  | cons f front ih => rw [List.cons_append, strip?, if_pos rfl, ih]

theorem strip?_eq_some_iff {front text rest : List Char} :
    strip? front text = some rest ↔ text = front ++ rest :=
  ⟨eq_append_of_strip?, fun h => h ▸ strip?_append front rest⟩

theorem strip?_eq_none_iff {front text : List Char} :
    strip? front text = none ↔ ¬ front <+: text := by
  rw [Option.eq_none_iff_forall_ne_some]
  simp only [ne_eq, strip?_eq_some_iff, List.prefix_iff_exists_eq_append, not_exists]

/-- Nothing is lost where a text is cut. -/
theorem eq_append_of_breakFirst? {separator text before after : List Char}
    (h : breakFirst? separator text = some (before, after)) :
    text = before ++ (separator ++ after) := by
  induction text generalizing before with
  | nil => cases h
  | cons d text ih =>
      rw [breakFirst?] at h
      split at h
      · next hstrip =>
        cases h
        rw [List.nil_append]
        exact eq_append_of_strip? hstrip
      · obtain ⟨⟨before', after'⟩, hbreak, heq⟩ := Option.map_eq_some_iff.mp h
        cases heq
        rw [ih hbreak, List.cons_append]

section

variable {separator text before after : List Char}

theorem breakFirst?_eq_none_iff (hne : separator ≠ []) :
    breakFirst? separator text = none ↔ ¬ separator <:+: text := by
  induction text with
  | nil => simp [breakFirst?, hne]
  | cons d text ih =>
      rw [breakFirst?, List.infix_cons_iff, not_or, ← ih, ← strip?_eq_none_iff]
      cases strip? separator (d :: text) <;> simp

theorem breakLast?_eq_none_iff (hne : separator ≠ []) :
    breakLast? separator text = none ↔ ¬ separator <:+: text := by
  induction text with
  | nil => simp [breakLast?, hne]
  | cons d text ih =>
      rw [breakLast?, List.infix_cons_iff, not_or, ← ih, ← strip?_eq_none_iff, and_comm]
      cases breakLast? separator text <;> simp

/-- A text is cut at the last separator: none starts behind the start of this one. -/
theorem breakLast?_eq_some_iff (hne : separator ≠ []) :
    breakLast? separator text = some (before, after) ↔
      text = before ++ (separator ++ after) ∧ ¬ separator <:+: (separator ++ after).tail := by
  induction text generalizing before with
  | nil => simp [breakLast?, hne]
  | cons d text ih =>
      rw [breakLast?]
      cases before with
      | nil =>
          have htail : d :: text = separator ++ after → (separator ++ after).tail = text :=
            fun h => h ▸ rfl
          rw [List.nil_append, ← breakLast?_eq_none_iff hne]
          cases hlast : breakLast? separator text with
          | none =>
              suffices strip? separator (d :: text) = some after ↔
                  d :: text = separator ++ after ∧
                    breakLast? separator (separator ++ after).tail = none by simpa
              rw [strip?_eq_some_iff, iff_self_and]
              exact fun h => htail h ▸ hlast
          | some parts =>
              suffices d :: text = separator ++ after →
                  breakLast? separator (separator ++ after).tail ≠ none by simpa
              intro h
              rw [htail h, hlast]
              exact Option.some_ne_none parts
      | cons e before =>
          rw [List.cons_append, List.cons.injEq, and_assoc, ← ih]
          cases breakLast? separator text with
          | none => simp
          | some parts => simp [Prod.ext_iff, and_assoc, eq_comm]

/-- A separator that starts before another one and reaches into it does not need the
last character of that one. -/
theorem prefix_append_dropLast_iff (hbefore : before ≠ []) (after : List Char) :
    separator <+: before ++ separator.dropLast ↔ separator <+: before ++ (separator ++ after) := by
  have hle : before ++ separator.dropLast <+: before ++ (separator ++ after) :=
    (List.prefix_append_right_inj before).mpr
      ((List.dropLast_prefix separator).trans (List.prefix_append separator after))
  refine ⟨fun h => h.trans hle, fun h => List.prefix_of_prefix_length_le h hle ?_⟩
  have hpos : 0 < before.length := List.length_pos_iff.mpr hbefore
  rw [List.length_append, List.length_dropLast]
  omega

/-- A text is cut at the first separator: none ends before the end of this one. -/
theorem breakFirst?_eq_some_iff (hne : separator ≠ []) :
    breakFirst? separator text = some (before, after) ↔
      text = before ++ (separator ++ after) ∧ ¬ separator <:+: before ++ separator.dropLast := by
  induction text generalizing before with
  | nil => simp [breakFirst?, hne]
  | cons d text ih =>
      rw [breakFirst?]
      cases before with
      | nil =>
          have hshort : ¬ separator <:+: separator.dropLast := by
            intro h
            have hle := h.length_le
            have hpos : 0 < separator.length := List.length_pos_iff.mpr hne
            rw [List.length_dropLast] at hle
            omega
          rw [List.nil_append, List.nil_append, and_iff_left hshort, ← strip?_eq_some_iff]
          cases strip? separator (d :: text) <;> simp
      | cons e before =>
          rw [List.cons_append, List.cons_append, List.cons.injEq, List.infix_cons_iff, not_or,
            ← List.cons_append, prefix_append_dropLast_iff (List.cons_ne_nil e before) after,
            ← strip?_eq_none_iff, List.cons_append]
          constructor
          · intro h
            split at h
            · cases h
            · next hstrip =>
              obtain ⟨_, hbreak, heq⟩ := Option.map_eq_some_iff.mp h
              cases heq
              obtain ⟨htext, hrest⟩ := ih.mp hbreak
              exact ⟨⟨rfl, htext⟩, htext ▸ hstrip, hrest⟩
          · rintro ⟨⟨rfl, htext⟩, hstrip, hrest⟩
            rw [← htext] at hstrip
            rw [hstrip, ih.mpr ⟨htext, hrest⟩]
            rfl

end

/-- No occurrence of a text reaches into characters of which none is its last one. -/
theorem infix_append_iff {front text more : List Char} (h : c ∉ more) :
    front ++ [c] <:+: text ++ more ↔ front ++ [c] <:+: text := by
  induction more generalizing text with
  | nil => rw [List.append_nil]
  | cons d more ih =>
      rw [List.mem_cons, not_or] at h
      obtain ⟨hd, hmore⟩ := h
      rw [List.append_cons text, ih hmore, List.infix_concat_iff, or_iff_right]
      intro hsuffix
      obtain ⟨_, heq⟩ := hsuffix
      rw [← List.append_assoc] at heq
      exact hd (List.singleton_inj.mp (List.append_inj_right' heq rfl))

/-- The text before the first of the separators has none of them. -/
theorem breakFirst?_single {p : List Char} (h : c ∉ p) (text : List Char) :
    breakFirst? [c] (p ++ c :: text) = some (p, text) := by
  refine (breakFirst?_eq_some_iff (List.cons_ne_nil c [])).mpr ⟨rfl, fun hmem => h ?_⟩
  simpa using hmem.subset List.mem_cons_self

theorem breakFirst?_eq_none {text : List Char} (h : c ∉ text) : breakFirst? [c] text = none :=
  (breakFirst?_eq_none_iff (List.cons_ne_nil c [])).mpr fun hmem =>
    h (hmem.subset List.mem_cons_self)

theorem breakFirst?_cons {d : Char} (hd : d ≠ c) (text : List Char) :
    breakFirst? [c, c] (d :: text) = (breakFirst? [c, c] text).map (Prod.map (d :: ·) id) := by
  rw [breakFirst?, strip?, if_neg (Ne.symm hd)]
  rfl

theorem breakFirst?_append {p : List Char} (h : c ∉ p) (text : List Char) :
    breakFirst? [c, c] (p ++ text) = (breakFirst? [c, c] text).map (Prod.map (p ++ ·) id) := by
  induction p with
  | nil => exact Option.map_id_apply.symm
  | cons d p ih =>
      rw [List.mem_cons, not_or] at h
      rw [List.cons_append, breakFirst?_cons (Ne.symm h.1), ih h.2, Option.map_map,
        Prod.map_comp_map]
      rfl

/-- A single separator is passed over. -/
theorem breakFirst?_cons_cons {d : Char} (hd : d ≠ c) (text : List Char) :
    breakFirst? [c, c] (c :: d :: text) =
      (breakFirst? [c, c] (d :: text)).map (Prod.map (c :: ·) id) := by
  rw [breakFirst?.eq_2, strip?, if_pos rfl, strip?, if_neg (Ne.symm hd)]
  rfl

theorem breakFirst?_double (text : List Char) :
    breakFirst? [c, c] (c :: c :: text) = some ([], text) := by
  simp [breakFirst?, strip?]

theorem breakFirst?_intercalate {ps : List (List Char)} (hne : ∀ p ∈ ps, p ≠ [])
    (h : ∀ p ∈ ps, c ∉ p) (text : List Char) :
    breakFirst? [c, c] ([c].intercalate ps ++ text) =
      (breakFirst? [c, c] text).map (Prod.map ([c].intercalate ps ++ ·) id) := by
  induction ps with
  | nil => exact Option.map_id_apply.symm
  | cons p ps ih =>
      obtain ⟨hp, hps⟩ := List.forall_mem_cons.mp h
      obtain ⟨-, hnes⟩ := List.forall_mem_cons.mp hne
      cases ps with
      | nil => simpa using breakFirst?_append hp text
      | cons q qs =>
          obtain ⟨d, q, rfl⟩ := List.exists_cons_of_ne_nil (hnes q List.mem_cons_self)
          have hd : d ≠ c := by
            rintro rfl
            exact hps _ List.mem_cons_self List.mem_cons_self
          have hcons : ∃ rest, [c].intercalate ((d :: q) :: qs) = d :: rest := by
            cases qs <;> simp
          obtain ⟨rest, hrest⟩ := hcons
          have hih := ih hnes hps
          rw [hrest, List.cons_append] at hih
          rw [List.intercalate_cons_cons, hrest, List.append_assoc, List.append_assoc,
            List.singleton_append, List.cons_append, breakFirst?_append hp,
            breakFirst?_cons_cons hd, hih, Option.map_map, Option.map_map, Prod.map_comp_map,
            Prod.map_comp_map]
          congr 2
          funext before
          simp

end Text
end AccessPolicy
