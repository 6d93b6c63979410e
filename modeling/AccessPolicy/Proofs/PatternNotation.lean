import AccessPolicy.Pattern

/-!
The source form of patterns. What is read from a source is written as that source
again, so no two sources denote the same elements. Not all elements have a source:
there is no escape for a backslash, and a literal backslash with a wildcard behind it
is written like a literal star. Elements without such a pair are read back from their
text.
-/

namespace AccessPolicy
namespace Pattern

/-- A literal backslash and a wildcard right behind it. -/
def unwritable : List PatternElem := [.literal '\\', .wildcard]

/-- Nowhere does a wildcard stand right behind a literal backslash. -/
def Writable (p : Pattern) : Prop :=
  ¬ unwritable <:+: p.elems

instance (p : Pattern) : Decidable p.Writable :=
  inferInstanceAs (Decidable (¬ _))

theorem unwritable_prefix_iff {e : PatternElem} {es : List PatternElem} :
    unwritable <+: e :: es ↔ e = .literal '\\' ∧ es.head? = some .wildcard := by
  rw [unwritable, List.cons_prefix_cons, List.singleton_prefix_iff_head?_eq_some, eq_comm]

/-- A literal star starts with a backslash, so that only a wildcard starts with a star. -/
theorem head?_flatMap_elemSource {es : List PatternElem} :
    (es.flatMap elemSource).head? = some '*' ↔ es.head? = some .wildcard := by
  cases es with
  | nil => simp
  | cons e es =>
      cases e with
      | wildcard => simp [elemSource]
      | literal c => by_cases hc : c = '*' <;> simp [elemSource, hc]

/-- Writing undoes reading. -/
theorem flatMap_elemSource_elemsOfSource (source : List Char) :
    (elemsOfSource source).flatMap elemSource = source := by
  fun_induction elemsOfSource source with
  | case1 source ih | case2 source ih =>
      rw [List.flatMap_cons, ih]
      rfl
  | case3 c source _ hstar ih =>
      rw [List.flatMap_cons, ih, elemSource, if_neg fun hc => hstar hc]
      rfl
  | case4 => rfl

/-- A character stands for itself unless it is a star or the backslash before one. -/
theorem elemsOfSource_cons {c : Char} {source : List Char} (hc : c ≠ '*')
    (hescape : c = '\\' → source.head? ≠ some '*') :
    elemsOfSource (c :: source) = .literal c :: elemsOfSource source := by
  refine elemsOfSource.eq_3 c source (fun rest hbackslash hrest => ?_) hc
  exact hescape hbackslash (by rw [hrest]; rfl)

/-- Reading undoes writing where no backslash meets the star of a wildcard. -/
theorem elemsOfSource_flatMap_elemSource {es : List PatternElem} (h : ¬ unwritable <:+: es) :
    elemsOfSource (es.flatMap elemSource) = es := by
  induction es with
  | nil => rfl
  | cons e es ih =>
      rw [List.infix_cons_iff, unwritable_prefix_iff, not_or, not_and] at h
      obtain ⟨hpair, hes⟩ := h
      rw [List.flatMap_cons]
      cases e with
      | wildcard => rw [elemSource, List.singleton_append, elemsOfSource, ih hes]
      | literal c =>
          by_cases hc : c = '*'
          · subst hc
            exact congrArg (PatternElem.literal '*' :: ·) (ih hes)
          · rw [elemSource, if_neg hc, List.singleton_append, elemsOfSource_cons hc, ih hes]
            rintro rfl hstar
            exact hpair rfl (head?_flatMap_elemSource.mp hstar)

/-- The star behind a backslash belongs to the escape. -/
theorem not_unwritable_infix_elemsOfSource (source : List Char) :
    ¬ unwritable <:+: elemsOfSource source := by
  fun_induction elemsOfSource source with
  | case1 source ih | case2 source ih =>
      rw [List.infix_cons_iff, unwritable_prefix_iff, not_or]
      exact ⟨by simp, ih⟩
  | case3 c source hescape _ ih =>
      rw [List.infix_cons_iff, unwritable_prefix_iff, not_or]
      refine ⟨fun ⟨hc, hhead⟩ => ?_, ih⟩
      rw [← head?_flatMap_elemSource, flatMap_elemSource_elemsOfSource,
        List.head?_eq_some_iff] at hhead
      obtain ⟨rest, hrest⟩ := hhead
      exact hescape rest (PatternElem.literal.inj hc) hrest
  | case4 => simp [unwritable]

theorem ofSource_text_of_writable {p : Pattern} (h : p.Writable) : ofSource p.text = p := by
  rw [ofSource, text, String.toList_ofList, elemsOfSource_flatMap_elemSource h]

theorem writable_ofSource (source : String) : (ofSource source).Writable :=
  not_unwritable_infix_elemsOfSource source.toList

theorem toList_text_ofSource (source : String) :
    (ofSource source).text.toList = source.toList := by
  rw [text, ofSource, String.toList_ofList, flatMap_elemSource_elemsOfSource]

/-- The text of what a source denotes is the source, which no other source shares. -/
theorem text_ofSource (source : String) :
    (ofSource source).text = source ∧
      ∀ other, ofSource source = ofSource other ↔ source = other := by
  refine ⟨String.toList_inj.mp (toList_text_ofSource source), fun other => ?_⟩
  refine ⟨fun h => ?_, congrArg ofSource⟩
  rw [← String.toList_inj, ← toList_text_ofSource source, h, toList_text_ofSource other]

/-- A pattern is read back from its text exactly if no wildcard stands right behind a
literal backslash, and exactly those patterns have a source at all. Among them the text
tells any two apart. -/
theorem ofSource_text_iff_writable :
    (∀ p : Pattern, ofSource p.text = p ↔ p.Writable) ∧
    (∀ p : Pattern, (∃ source, ofSource source = p) ↔ p.Writable) ∧
    ∀ p q : Pattern, p.Writable → q.Writable → (p.text = q.text ↔ p = q) := by
  have hwritable {p : Pattern} {source : String} (h : ofSource source = p) : p.Writable :=
    h ▸ writable_ofSource source
  refine ⟨fun p => ⟨hwritable, ofSource_text_of_writable⟩, fun p => ?_, fun p q hp hq => ?_⟩
  · exact ⟨fun ⟨_, h⟩ => hwritable h, fun h => ⟨p.text, ofSource_text_of_writable h⟩⟩
  · refine ⟨fun h => ?_, congrArg text⟩
    rw [← ofSource_text_of_writable hp, h, ofSource_text_of_writable hq]

theorem ofSource_text_iff_writable_backslashes :
    let p : Pattern := ⟨[.literal '\\', .literal '\\', .literal '*', .wildcard]⟩
    let q : Pattern := ⟨[.literal '\\', .literal '*', .literal '*', .wildcard]⟩
    p.Writable ∧ q.Writable ∧ (p.text = q.text ↔ p = q) := by
  intro p q
  have hp : p.Writable := by decide
  have hq : q.Writable := by decide
  exact ⟨hp, hq, ofSource_text_iff_writable.2.2 p q hp hq⟩

/-- A literal backslash before a wildcard is shown as a literal star is, and read as one. -/
theorem text_backslash_wildcard :
    let p : Pattern := ⟨[.literal '\\', .wildcard]⟩
    let q : Pattern := ⟨[.literal '*']⟩
    p ≠ q ∧ p.text = q.text ∧ ofSource p.text = q := by
  decide

end Pattern
end AccessPolicy
