import Mathlib.Algebra.Group.Nat.Defs
import AccessPolicy.Address
import AccessPolicy.Proofs.TextCutting

/-!
The text of an address denotes the address. A number is recovered from its
places in any base, and so are an octet from its decimal and a group from its
hexadecimal numeral. Octets are cut at points and groups at colons, and since no
group is empty the first two colons in a row are those of the run of zeros.
-/

namespace AccessPolicy
namespace Text

theorem toDigits_eq_cons {base n : Nat} (hbase : 1 < base) (hn : n ≠ 0) :
    ∃ c digits, Nat.toDigits base n = c :: digits ∧ c ≠ '0' := by
  induction n using Nat.strongRecOn with
  | ind n ih =>
      by_cases hlt : n < base
      · rw [Nat.toDigits_of_lt_base hlt]
        exact ⟨_, [], rfl, fun hc => hn (Nat.digitChar_eq_zero.mp hc)⟩
      · have hle : base ≤ n := Nat.le_of_not_lt hlt
        have hdiv : n / base ≠ 0 := Nat.ne_of_gt (Nat.div_pos hle (Nat.lt_of_succ_lt hbase))
        obtain ⟨c, digits, heq, hc⟩ :=
          ih _ (Nat.div_lt_self (Nat.pos_of_ne_zero hn) hbase) hdiv
        rw [Nat.toDigits_of_base_le hbase hle, heq]
        exact ⟨c, _, rfl, hc⟩

theorem not_mem_toDigits {base n : Nat} {c : Char} (hbase : 1 < base) (hle : base ≤ 16)
    (hc : ∀ d : Fin 16, Nat.digitChar d ≠ c) : c ∉ Nat.toDigits base n := by
  have hdigit {d : Nat} (hd : d < base) : c ≠ Nat.digitChar d :=
    Ne.symm (hc ⟨d, Nat.lt_of_lt_of_le hd hle⟩)
  induction n using Nat.strongRecOn with
  | ind n ih =>
      by_cases hlt : n < base
      · rw [Nat.toDigits_of_lt_base hlt, List.mem_singleton]
        exact hdigit hlt
      · have hn : base ≤ n := Nat.le_of_not_lt hlt
        rw [Nat.toDigits_of_base_le hbase hn, List.mem_append, List.mem_singleton, not_or]
        exact ⟨ih _ (Nat.div_lt_self (by omega) hbase), hdigit (Nat.mod_lt n (by omega))⟩

theorem not_mem_of_mem_numerals {base : Nat} {c : Char} (hbase : 1 < base) (hle : base ≤ 16)
    (hc : ∀ d : Fin 16, Nat.digitChar d ≠ c) {ns : List Nat} :
    ∀ p ∈ ns.map (Nat.toDigits base), c ∉ p := by
  intro p hp
  obtain ⟨n, -, rfl⟩ := List.mem_map.mp hp
  exact not_mem_toDigits hbase hle hc

theorem hexDigit?_digitChar {d : Nat} (hd : d < 16) : hexDigit? (Nat.digitChar d) = some d := by
  have hall : ∀ d : Fin 16, hexDigit? (Nat.digitChar d) = some d.val := by decide
  exact hall ⟨d, hd⟩

end Text

namespace Address

theorem ofPlaces_concat (base : Nat) (digits : List Nat) (d : Nat) :
    ofPlaces base (digits ++ [d]) = base * ofPlaces base digits + d := by
  rw [ofPlaces, List.foldl_append]
  rfl

theorem ofPlaces_places (base count n : Nat) :
    ofPlaces base (places base count n) = n % base ^ count := by
  induction count generalizing n with
  | zero => simp [places, ofPlaces, Nat.mod_one]
  | succ count ih =>
      rw [places, ofPlaces_concat, ih, Nat.pow_succ', Nat.mod_mul, Nat.add_comm]

theorem length_places (base count n : Nat) : (places base count n).length = count := by
  induction count generalizing n with
  | zero => rfl
  | succ count ih => rw [places, List.length_append, ih, List.length_singleton]

theorem lt_of_mem_places {base count n d : Nat} (hbase : 0 < base) (h : d ∈ places base count n) :
    d < base := by
  induction count generalizing n with
  | zero => cases h
  | succ count ih =>
      rw [places, List.mem_append, List.mem_singleton] at h
      rcases h with h | rfl
      · exact ih h
      · exact Nat.mod_lt n hbase

theorem octet?_toDigits {n : Nat} (h : n < 256) : octet? (Nat.toDigits 10 n) = some n := by
  have hlength : (Nat.toDigits 10 n).length ≤ 3 :=
    (Nat.length_toDigits_le_iff (by decide) (by decide)).mpr (by omega)
  have hdigits : (Nat.toDigits 10 n).all Char.isDigit := by
    rw [List.all_eq_true]
    exact fun c hc => Nat.isDigit_of_mem_toDigits (by decide) (by decide) hc
  have hzero : (Nat.toDigits 10 n).head? ≠ some '0' ∨ (Nat.toDigits 10 n).length = 1 := by
    by_cases hn : n = 0
    · subst hn
      exact .inr rfl
    · obtain ⟨c, digits, heq, hc⟩ := Text.toDigits_eq_cons (show 1 < 10 by decide) hn
      rw [heq]
      exact .inl fun hhead => hc (Option.some.inj hhead)
  rw [octet?, Text.natOfDigits_toDigits,
    if_pos ⟨Nat.toDigits_ne_nil, hlength, hdigits, hzero, Nat.le_of_lt_succ h⟩]

theorem mapM_hexDigit?_toDigits (n : Nat) :
    ∃ ds, (Nat.toDigits 16 n).mapM Text.hexDigit? = some ds ∧ ofPlaces 16 ds = n := by
  induction n using Nat.strongRecOn with
  | ind n ih =>
      by_cases hlt : n < 16
      · refine ⟨[n], ?_, by simp [ofPlaces]⟩
        rw [Nat.toDigits_of_lt_base hlt]
        simp [Text.hexDigit?_digitChar hlt]
      · obtain ⟨ds, hds, hn⟩ := ih (n / 16) (by omega)
        refine ⟨ds ++ [n % 16], ?_, ?_⟩
        · rw [Nat.toDigits_of_base_le (by decide) (Nat.le_of_not_lt hlt), List.mapM_append, hds]
          simp [Text.hexDigit?_digitChar (Nat.mod_lt n (by decide : 0 < 16))]
        · rw [ofPlaces_concat, hn]
          exact Nat.div_add_mod n 16

theorem group?_toDigits {g : Nat} (h : g < 65536) : group? (Nat.toDigits 16 g) = some g := by
  have hlength : (Nat.toDigits 16 g).length ≤ 4 :=
    (Nat.length_toDigits_le_iff (by decide) (by decide)).mpr (by omega)
  obtain ⟨ds, hds, hg⟩ := mapM_hexDigit?_toDigits g
  rw [group?, if_pos ⟨Nat.toDigits_ne_nil, hlength⟩, hds, Option.map_some, hg]

theorem toList_dottedText (n : Nat) :
    (dottedText n).toList = ['.'].intercalate ((octets n).map (Nat.toDigits 10)) := by
  rw [dottedText, Text.toList_joinWith, List.map_map]
  have hrepr : String.toList ∘ Nat.repr = Nat.toDigits 10 := by
    funext n
    exact String.toList_ofList
  rw [hrepr]
  rfl

theorem toList_groupsText (gs : List Nat) :
    (groupsText gs).toList = [':'].intercalate (gs.map (Nat.toDigits 16)) := by
  rw [groupsText, Text.toList_joinWith, List.map_map]
  have htext : String.toList ∘ groupText = Nat.toDigits 16 := by
    funext g
    exact String.toList_ofList
  rw [htext]
  rfl

theorem dotted?_dottedText (n : Nat) :
    dotted? (dottedText n).toList = some (n % 4294967296) := by
  have hoctet (d : Nat) : octet? (Nat.toDigits 10 (d % 256)) = some (d % 256) :=
    octet?_toDigits (Nat.mod_lt d (by decide))
  have hpieces : Text.pieces '.' (dottedText n).toList = (octets n).map (Nat.toDigits 10) := by
    rw [toList_dottedText]
    exact Text.pieces_intercalate nofun
      (Text.not_mem_of_mem_numerals (by decide) (by decide) (by decide))
  have hvalue := ofPlaces_places 256 4 n
  rw [dotted?, hpieces]
  simp only [octets, places, List.nil_append, List.cons_append, List.map_cons, List.map_nil,
    hoctet] at hvalue ⊢
  exact congrArg some hvalue

theorem groupsOfPieces?_toDigits (dots : Bool) {gs : List Nat} (h : ∀ g ∈ gs, g < 65536) :
    groupsOfPieces? dots (gs.map (Nat.toDigits 16)) = some gs := by
  induction gs with
  | nil => rfl
  | cons g gs ih =>
      obtain ⟨hg, hgs⟩ := List.forall_mem_cons.mp h
      cases gs with
      | nil => simp [groupsOfPieces?, group?_toDigits hg]
      | cons g' gs =>
          have hih := ih hgs
          rw [List.map_cons] at hih
          simp [groupsOfPieces?, group?_toDigits hg, hih]

theorem groupsOfText?_groupsText (dots : Bool) {gs : List Nat} (h : ∀ g ∈ gs, g < 65536) :
    groupsOfText? dots (groupsText gs).toList = some gs := by
  rw [toList_groupsText]
  cases gs with
  | nil => rfl
  | cons g gs =>
      have hne : [':'].intercalate ((g :: gs).map (Nat.toDigits 16)) ≠ [] := by
        cases gs <;> simp
      have hpieces : Text.pieces ':' ([':'].intercalate ((g :: gs).map (Nat.toDigits 16))) =
          (g :: gs).map (Nat.toDigits 16) := by
        exact Text.pieces_intercalate nofun
          (Text.not_mem_of_mem_numerals (by decide) (by decide) (by decide))
      rw [groupsOfText?, if_neg hne, hpieces, groupsOfPieces?_toDigits dots h]

theorem leadingZeros_eq (gs : List Nat) :
    List.replicate (gs.takeWhile (· == 0)).length 0 ++
      gs.drop (gs.takeWhile (· == 0)).length = gs := by
  induction gs with
  | nil => rfl
  | cons g gs ih =>
      rw [List.takeWhile_cons]
      split
      · next hg =>
        rw [beq_iff_eq.mp hg, List.length_cons, List.replicate_succ, List.drop_succ_cons,
          List.cons_append, ih]
      · rfl

/-- The zeros of the longest run stand where it is said to be. -/
theorem longestZeros_eq (gs : List Nat) :
    gs.take (longestZeros gs).1 ++ List.replicate (longestZeros gs).2 0 ++
      gs.drop ((longestZeros gs).1 + (longestZeros gs).2) = gs := by
  induction gs with
  | nil => rfl
  | cons g gs ih =>
      rw [longestZeros]
      generalize longestZeros gs = run at ih ⊢
      obtain ⟨start, length⟩ := run
      dsimp only at ih ⊢
      split
      · rw [List.take_zero, List.nil_append, Nat.zero_add, leadingZeros_eq]
      · rw [List.take_succ_cons, Nat.add_right_comm, List.drop_succ_cons, List.cons_append,
          List.cons_append, ih]

theorem breakFirst?_groupsText (gs : List Nat) (text : List Char) :
    Text.breakFirst? [':', ':'] ((groupsText gs).toList ++ text) =
      (Text.breakFirst? [':', ':'] text).map (Prod.map ((groupsText gs).toList ++ ·) id) := by
  rw [toList_groupsText]
  refine Text.breakFirst?_intercalate (fun p hp => ?_)
    (Text.not_mem_of_mem_numerals (by decide) (by decide) (by decide)) text
  obtain ⟨d, -, rfl⟩ := List.mem_map.mp hp
  exact Nat.toDigits_ne_nil

theorem eightGroups?_groupsText {gs : List Nat} (h : ∀ g ∈ gs, g < 65536) (hlen : gs.length = 8) :
    eightGroups? (groupsText gs).toList = some gs := by
  have hbreak := breakFirst?_groupsText gs []
  rw [List.append_nil] at hbreak
  rw [eightGroups?, hbreak]
  simp [Text.breakFirst?, groupsOfText?_groupsText true h, hlen]

theorem eightGroups?_compressed {front back : List Nat} {count : Nat}
    (hfront : ∀ g ∈ front, g < 65536) (hback : ∀ g ∈ back, g < 65536) (hcount : 0 < count)
    (hlen : front.length + count + back.length = 8) :
    eightGroups? (groupsText front ++ "::" ++ groupsText back).toList =
      some (front ++ List.replicate count 0 ++ back) := by
  have hcolons : "::".toList = [':', ':'] := rfl
  have hrest : 8 - front.length - back.length = count := by omega
  have hlt : front.length + back.length < 8 := by omega
  rw [String.toList_append, String.toList_append, hcolons, List.append_assoc, eightGroups?,
    breakFirst?_groupsText, List.cons_append, List.cons_append, List.nil_append,
    Text.breakFirst?_double]
  simp [groupsOfText?_groupsText _ hfront, groupsOfText?_groupsText _ hback, hrest, hlt]

section

variable {c : Char} {text : List Char} (h : c ∈ text)
include h

theorem octet?_of_mem (hdigit : ¬ c.isDigit) : octet? text = none := by
  rw [octet?, if_neg]
  intro hoctet
  exact hdigit (List.all_eq_true.mp hoctet.2.2.1 c h)

/-- An address of the fourth version has digits and points only. -/
theorem dotted?_of_mem (hdigit : ¬ c.isDigit) (hpoint : c ≠ '.') : dotted? text = none := by
  obtain ⟨p, hp, hc⟩ := Text.exists_mem_pieces hpoint h
  have hnone := octet?_of_mem hc hdigit
  rw [dotted?]
  split
  · next a b c d hpieces =>
    rw [hpieces] at hp
    simp only [List.mem_cons, List.not_mem_nil, or_false] at hp
    rcases hp with rfl | rfl | rfl | rfl <;> simp [hnone]
  · rfl

theorem group?_of_mem (hdigit : Text.hexDigit? c = none) : group? text = none := by
  have hnone : text.mapM Text.hexDigit? = none := by
    induction text with
    | nil => cases h
    | cons d text ih =>
        rw [List.mapM_cons]
        rcases List.mem_cons.mp h with rfl | h
        · rw [hdigit]
          rfl
        · rw [ih h]
          cases Text.hexDigit? d <;> rfl
  rw [group?, hnone]
  split <;> rfl

end

/-- The last two groups of an address of the sixth version may be octets. -/
theorem eightGroups?_mapped (n : Nat) :
    eightGroups? ("::ffff:" ++ dottedText n).toList =
      some (List.replicate 5 0 ++ 65535 :: places 65536 2 (n % 4294967296)) := by
  have hcolon : ':' ∉ (dottedText n).toList := by
    rw [toList_dottedText]
    exact Text.not_mem_intercalate (by decide)
      (Text.not_mem_of_mem_numerals (by decide) (by decide) (by decide))
  have hpoint : '.' ∈ (dottedText n).toList := by
    rw [toList_dottedText]
    simp [octets, places]
  have hpieces : Text.pieces ':' (['f', 'f', 'f', 'f'] ++ ':' :: (dottedText n).toList) =
      [['f', 'f', 'f', 'f'], (dottedText n).toList] := by
    rw [Text.pieces_append (by decide), Text.pieces_of_not_mem hcolon]
  have hgroup : group? ['f', 'f', 'f', 'f'] = some 65535 := rfl
  have hback : groupsOfText? true (['f', 'f', 'f', 'f'] ++ ':' :: (dottedText n).toList) =
      some (65535 :: places 65536 2 (n % 4294967296)) := by
    rw [groupsOfText?, if_neg (by simp), hpieces]
    simp [groupsOfPieces?, hgroup, group?_of_mem hpoint rfl, dotted?_dottedText]
  have htext : ("::ffff:" ++ dottedText n).toList =
      ':' :: ':' :: (['f', 'f', 'f', 'f'] ++ ':' :: (dottedText n).toList) := String.toList_append
  have hfront : groupsOfText? false [] = some [] := rfl
  rw [htext, eightGroups?, Text.breakFirst?_double]
  simp only [hfront, hback]
  rfl

/-- The groups that are read from the text of a number are its own. -/
theorem eightGroups?_v6Text (n : Nat) :
    eightGroups? (v6Text n).toList = some (groups n) := by
  rw [v6Text]
  split
  · next hmapped =>
    rw [eightGroups?_mapped]
    have hhigh : n / 65536 / 65536 = 65535 := by rw [Nat.div_div_eq_div_mul, hmapped]
    have hmiddle : n % 4294967296 / 65536 % 65536 = n / 65536 % 65536 := by omega
    have hlow : n % 4294967296 % 65536 = n % 65536 := by omega
    simp only [groups, places, List.nil_append, List.cons_append, List.replicate, Nat.mod_mod,
      hhigh, hmiddle, hlow]
  · have hlen : (groups n).length = 8 := length_places 65536 8 n
    have hlt : ∀ g ∈ groups n, g < 65536 := fun g hg => lt_of_mem_places (by decide) hg
    have heq := longestZeros_eq (groups n)
    dsimp only
    generalize longestZeros (groups n) = run at heq ⊢
    split
    · next hrun =>
      have hlength := congrArg List.length heq
      rw [List.length_append, List.length_append, List.length_replicate, hlen] at hlength
      rw [eightGroups?_compressed (fun g hg => hlt g (List.mem_of_mem_take hg))
        (fun g hg => hlt g (List.mem_of_mem_drop hg)) (Nat.lt_of_succ_lt hrun) hlength, heq]
    · exact eightGroups?_groupsText hlt hlen

theorem colon_mem_v6Text (n : Nat) : ':' ∈ (v6Text n).toList := by
  have hcolon : ':' ∈ "::".toList := by decide
  rw [v6Text]
  split
  · rw [String.toList_append]
    exact List.mem_append_left _ (by decide)
  · dsimp only
    split
    · rw [String.toList_append, String.toList_append]
      exact List.mem_append_left _ (List.mem_append_right _ hcolon)
    · rw [toList_groupsText]
      simp [groups, places]

/-- Reading undoes writing. -/
theorem ofText?_text (a : Address) : ofText? a.text = some a := by
  cases a with
  | v4 bits =>
      have hbits : bits.toNat % 4294967296 = bits.toNat := Nat.mod_eq_of_lt bits.isLt
      rw [ofText?, text, ofChars?, dotted?_dottedText, hbits]
      simp
  | v6 bits =>
      have hbits : ofPlaces 65536 (groups bits.toNat) = bits.toNat := by
        rw [groups, ofPlaces_places]
        exact Nat.mod_eq_of_lt bits.isLt
      rw [ofText?, text, ofChars?, dotted?_of_mem (colon_mem_v6Text bits.toNat) (by decide) (by decide),
        eightGroups?_v6Text]
      simp [hbits]

end Address
end AccessPolicy
