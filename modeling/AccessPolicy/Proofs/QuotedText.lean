import AccessPolicy.Proofs.AddressNotation
import AccessPolicy.Text.Quoted
import Mathlib.Data.List.Chain

/-!
Quoted text says what it quotes. The way a character is written shows where it ends,
so that the characters can be read off one by one and no two texts are written alike.
A quote inside always stands right behind a backslash. A text is written as it is
exactly if none of its characters is a quote, a backslash or hidden.
-/

namespace AccessPolicy
namespace Text

/-- A character that stands between the quotes as it is. -/
def IsPlain (c : Char) : Prop :=
  c ≠ '"' ∧ c ≠ '\\' ∧ isPrintable c

instance (c : Char) : Decidable (IsPlain c) :=
  inferInstanceAs (Decidable (_ ∧ _))

/-- The character that is named behind a backslash, and what follows. -/
def namedChar? : List Char → Option (Char × List Char)
  | 'u' :: '\x7b' :: text => do
    let (digits, rest) ← breakFirst? ['\x7d'] text
    let places ← digits.mapM hexDigit?
    some (Char.ofNat (Address.ofPlaces 16 places), rest)
  | '0' :: text => some ('\x00', text)
  | 't' :: text => some ('\t', text)
  | 'n' :: text => some ('\n', text)
  | 'r' :: text => some ('\r', text)
  | c :: text => some (c, text)
  | [] => none

/-- The first character that stands between the quotes, and what follows. -/
def firstChar? : List Char → Option (Char × List Char)
  | [] => none
  | c :: text => if c = '\\' then namedChar? text else some (c, text)

/-- The ways in which a character is written. -/
inductive EscapeForm (c : Char) : List Char → Prop where
  | plain (h : IsPlain c) : EscapeForm c [c]
  | named (name : Char) (h : ¬ IsPlain c)
      (hname : ∀ rest, namedChar? (name :: rest) = some (c, rest)) : EscapeForm c ['\\', name]
  | coded (h : ¬ IsPlain c) :
      EscapeForm c ('\\' :: 'u' :: '\x7b' :: (Nat.toDigits 16 c.toNat ++ ['\x7d']))

theorem escapeForm (c : Char) : EscapeForm c (escapeChar c) := by
  unfold escapeChar
  split
  · next h => rcases h with rfl | rfl <;> exact .named _ (by decide) fun _ => rfl
  · next hquote =>
    split
    · next h => exact h ▸ .named '0' (by decide) fun _ => rfl
    split
    · next h => exact h ▸ .named 't' (by decide) fun _ => rfl
    split
    · next h => exact h ▸ .named 'n' (by decide) fun _ => rfl
    split
    · next h => exact h ▸ .named 'r' (by decide) fun _ => rfl
    rw [not_or] at hquote
    split
    · next hprintable => exact .plain ⟨hquote.1, hquote.2, hprintable⟩
    · next hprintable => exact .coded fun h => hprintable h.2.2

/-- What is written for a character is read as the character. -/
theorem firstChar?_escapeChar (c : Char) (rest : List Char) :
    firstChar? (escapeChar c ++ rest) = some (c, rest) := by
  have hform := escapeForm c
  generalize escapeChar c = code at hform ⊢
  cases hform with
  | plain h => exact if_neg h.2.1
  | named name h hname => exact hname rest
  | coded h =>
      have hclosing : '\x7d' ∉ Nat.toDigits 16 c.toNat :=
        not_mem_toDigits (by decide) (by decide) (by decide)
      obtain ⟨places, hplaces, hcode⟩ := Address.mapM_hexDigit?_toDigits c.toNat
      simp only [List.cons_append, List.nil_append, List.append_assoc]
      rw [firstChar?, if_pos rfl, namedChar?, breakFirst?_single hclosing]
      simp [hplaces, hcode]

theorem escapeChars_cons (c : Char) (text : List Char) :
    escapeChars (c :: text) = escapeChar c ++ escapeChars text :=
  List.flatMap_cons

theorem firstChar?_escapeChars (text : List Char) :
    firstChar? (escapeChars text) =
      text.head?.map fun c => (c, escapeChars text.tail) := by
  cases text with
  | nil => rfl
  | cons c text => exact firstChar?_escapeChar c (escapeChars text)

theorem escapeChars_injective : Function.Injective escapeChars := by
  intro s t h
  induction s generalizing t with
  | nil =>
      have hfirst := firstChar?_escapeChars t
      rw [← h] at hfirst
      cases t with
      | nil => rfl
      | cons d t => cases hfirst
  | cons c s ih =>
      have hfirst := firstChar?_escapeChars t
      rw [← h, firstChar?_escapeChars] at hfirst
      cases t with
      | nil => cases hfirst
      | cons d t =>
          obtain ⟨hc, hs⟩ := Prod.mk.inj (Option.some.inj hfirst)
          exact congrArg₂ List.cons hc (ih hs)

theorem escapeChar_of_isPlain {c : Char} (h : IsPlain c) : escapeChar c = [c] := by
  have hform := escapeForm c
  generalize escapeChar c = code at hform
  cases hform with
  | plain => rfl
  | named _ hplain | coded hplain => exact absurd h hplain

theorem length_escapeChar_pos (c : Char) : 0 < (escapeChar c).length := by
  have hform := escapeForm c
  generalize escapeChar c = code at hform
  cases hform <;> exact Nat.succ_pos _

theorem isPlain_of_length_escapeChar {c : Char} (hlength : (escapeChar c).length ≤ 1) :
    IsPlain c := by
  have hform := escapeForm c
  generalize escapeChar c = code at hform hlength
  cases hform with
  | plain h => exact h
  | named | coded => simp at hlength

theorem length_le_length_escapeChars (text : List Char) :
    text.length ≤ (escapeChars text).length := by
  induction text with
  | nil => exact Nat.le_refl 0
  | cons c text ih =>
      have hpos := length_escapeChar_pos c
      rw [escapeChars_cons, List.length_append, List.length_cons]
      omega

/-- A text is written as it is exactly if each of its characters is. -/
theorem escapeChars_eq_self_iff {text : List Char} :
    escapeChars text = text ↔ ∀ c ∈ text, IsPlain c := by
  induction text with
  | nil => simp [escapeChars]
  | cons c text ih =>
      rw [List.forall_mem_cons, ← ih, escapeChars_cons]
      constructor
      · intro h
        have hle := length_le_length_escapeChars text
        have hlength := congrArg List.length h
        rw [List.length_append, List.length_cons] at hlength
        have hplain := isPlain_of_length_escapeChar (c := c) (by omega)
        rw [escapeChar_of_isPlain hplain] at h
        exact ⟨hplain, (List.cons.inj h).2⟩
      · rintro ⟨hplain, h⟩
        rw [escapeChar_of_isPlain hplain, h, List.singleton_append]

/-- Each quote but for the first character stands right behind a backslash. -/
def QuotesEscaped (text : List Char) : Prop :=
  text.IsChain fun c d => d = '"' → c = '\\'

theorem QuotesEscaped.cons_append {code rest : List Char} {d : Char} (hcode : '"' ∉ code)
    (hd : d ≠ '"') (h : QuotesEscaped (d :: rest)) (c : Char) :
    QuotesEscaped (c :: (code ++ d :: rest)) := by
  induction code generalizing c with
  | nil => exact List.isChain_cons_cons.mpr ⟨fun hquote => absurd hquote hd, h⟩
  | cons e code ih =>
      rw [List.mem_cons, not_or] at hcode
      exact List.isChain_cons_cons.mpr ⟨fun hquote => absurd hquote.symm hcode.1, ih hcode.2 e⟩

theorem quotesEscaped_cons_escapeChars (c : Char) (text : List Char) :
    QuotesEscaped (c :: escapeChars text) := by
  induction text generalizing c with
  | nil => exact List.isChain_singleton c
  | cons d text ih =>
      have hform := escapeForm d
      rw [escapeChars_cons]
      generalize escapeChar d = code at hform ⊢
      cases hform with
      | plain h => exact .cons_append List.not_mem_nil h.1 (ih d) c
      | named name =>
          have hbackslash : '\\' = '"' → c = '\\' := fun h => absurd h (by decide)
          exact List.isChain_cons_cons.mpr
            ⟨hbackslash, List.isChain_cons_cons.mpr ⟨fun _ => rfl, ih name⟩⟩
      | coded =>
          have hdigits : '"' ∉ Nat.toDigits 16 d.toNat :=
            not_mem_toDigits (by decide) (by decide) (by decide)
          have hcode : '"' ∉ '\\' :: 'u' :: '\x7b' :: Nat.toDigits 16 d.toNat := by
            simp [hdigits]
          simpa using QuotesEscaped.cons_append hcode (by decide) (ih '\x7d') c

end Text
end AccessPolicy
