import Mathlib
import StakeLedger.Proofs.Address.Checksum
import StakeLedger.Proofs.Address.Word

/-!
# Checked texts

A human-readable part and words are spelled in one way in lower case, with the
checksum of a variant behind them.  A text splits into them if it is that spelling
or its form in upper case, and no other text does.

Main definitions:

- {lit}`Bech32.spell`: the text of a human-readable part and of words.
- {lit}`Bech32.Plain`: a character of texts in lower case.

Main results:

- Theorem {lit}`Bech32.splitAtSeparator_eq_some_iff`: the separator is the last digit one.
- Theorem {lit}`Bech32.splitLower_spell`: what texts in lower case split into.
- Theorem {lit}`Bech32.eq_spell_of_split`, {lit}`Bech32.split_spell`: what texts split into.
-/

namespace StakeLedger.Bech32

/-- The text of a human-readable part and of words with their checksum. -/
def spell (variant : Variant) (hrp : List Char) (words : List Word) : List Char :=
  hrp ++ '1' :: (words ++ checksum variant hrp (words.map widen)).map Word.toChar

/-! ## The separator -/

/-- The separator is the last digit one. -/
theorem splitAtSeparator_append (hrp : List Char) {tail : List Char} (h : '1' ∉ tail) :
    splitAtSeparator (hrp ++ '1' :: tail) = some (hrp, tail) := by
  have hbehind : ((hrp ++ '1' :: tail).reverse.takeWhile (· ≠ '1')).reverse = tail := by
    have hother : ∀ c ∈ tail.reverse, decide (c ≠ '1') = true := by
      intro c hc
      rw [decide_eq_true_eq]
      rintro rfl
      exact h (List.mem_reverse.mp hc)
    rw [List.reverse_append, List.reverse_cons, List.append_assoc,
      List.takeWhile_append_of_pos hother]
    simp
  have hlength : (hrp ++ '1' :: tail).length - tail.length - 1 = hrp.length := by
    rw [List.length_append, List.length_cons]
    omega
  have hlt : tail.length < (hrp ++ '1' :: tail).length := by
    rw [List.length_append, List.length_cons]
    omega
  rw [splitAtSeparator]
  simp only [hbehind, if_pos hlt, hlength, List.take_left]

/-- A text before and after its last digit one. -/
theorem splitAtSeparator_eq_some_iff (text hrp tail : List Char) :
    splitAtSeparator text = some (hrp, tail) ↔ text = hrp ++ '1' :: tail ∧ '1' ∉ tail := by
  constructor
  · intro h
    by_cases hone : '1' ∈ text.reverse
    · obtain ⟨behind, before, htext, hbehind⟩ := List.eq_append_cons_of_mem hone
      have hparts : text = before.reverse ++ '1' :: behind.reverse := by
        rw [← List.reverse_reverse text, htext]
        simp
      have hlast : '1' ∉ behind.reverse := by
        rw [List.mem_reverse]
        exact hbehind
      rw [hparts, splitAtSeparator_append _ hlast] at h
      obtain ⟨rfl, rfl⟩ := Prod.mk.inj (Option.some.inj h)
      exact ⟨hparts, hlast⟩
    · have hall : (text.reverse.takeWhile (· ≠ '1')) = text.reverse := by
        rw [List.takeWhile_eq_self_iff]
        intro c hc
        rw [decide_eq_true_eq]
        rintro rfl
        exact hone hc
      simp only [splitAtSeparator, hall, List.reverse_reverse, Nat.lt_irrefl, if_false] at h
      exact nomatch h
  · rintro ⟨rfl, htail⟩
    exact splitAtSeparator_append hrp htail

/-! ## Texts in lower case -/

/-- The variant of a register is the one whose constant it is. -/
theorem ofConstant?_eq_some_iff (register : BitVec 30) (variant : Variant) :
    Variant.ofConstant? register = some variant ↔ register = variant.constant := by
  unfold Variant.ofConstant?
  by_cases hplain : register = Variant.plain.constant
  · rw [if_pos hplain, hplain]
    cases variant <;> decide
  · rw [if_neg hplain]
    by_cases hmodified : register = Variant.modified.constant
    · rw [if_pos hmodified, hmodified]
      cases variant <;> decide
    · rw [if_neg hmodified]
      cases variant
      · simp [hplain]
      · simp [hmodified]

/-- A checksum has six words. -/
@[simp]
theorem length_checksum (variant : Variant) (hrp : List Char) (words : List (BitVec 30)) :
    (checksum variant hrp words).length = checksumLength := by
  simp [checksum]

/-- The last words of a text are the checksum of the words before them. -/
theorem drop_eq_checksum {variant : Variant} {hrp : List Char} {all : List Word}
    (hsix : checksumLength ≤ all.length)
    (hregister : remainder (expand hrp ++ all.map widen) = variant.constant) :
    all.drop (all.length - checksumLength) =
      checksum variant hrp ((all.take (all.length - checksumLength)).map widen) := by
  have hlast : (all.drop (all.length - checksumLength)).length = checksumLength := by
    rw [List.length_drop]
    omega
  rw [← List.take_append_drop (all.length - checksumLength) all, List.map_append,
    ← List.append_assoc] at hregister
  exact (remainder_eq_constant_iff variant hrp _ hlast).mp hregister

/-- What a text in lower case splits into spells it. -/
theorem eq_spell_of_splitLower {text : List Char} {parts : Parts}
    (h : splitLower text = .ok parts) :
    parts.hrp ≠ [] ∧ text = spell parts.variant parts.hrp parts.words := by
  unfold splitLower at h
  split at h
  · exact nomatch h
  · next hrp tail hsplit =>
    split_ifs at h with hshort
    split at h
    · exact nomatch h
    · next all hall =>
      split at h
      · exact nomatch h
      · next variant hvariant =>
        obtain rfl := Except.ok.inj h
        obtain ⟨rfl, -⟩ := (splitAtSeparator_eq_some_iff _ _ _).mp hsplit
        obtain rfl := (Word.mapM_ofChar?_eq_some_iff _ _).mp hall
        rw [not_or, not_lt, List.length_map] at hshort
        have hregister := (ofConstant?_eq_some_iff _ _).mp hvariant
        refine ⟨hshort.1, ?_⟩
        simp only [spell]
        rw [← drop_eq_checksum hshort.2 hregister, List.take_append_drop]

/-- A spelling splits into what is spelled. -/
theorem splitLower_spell {hrp : List Char} (hhrp : hrp ≠ []) (variant : Variant)
    (words : List Word) : splitLower (spell variant hrp words) = .ok ⟨hrp, words, variant⟩ := by
  have hnone : '1' ∉ (words ++ checksum variant hrp (words.map widen)).map Word.toChar := by
    rw [List.mem_map]
    rintro ⟨w, -, hw⟩
    exact Word.toChar_ne_one w hw
  have hread := (Word.mapM_ofChar?_eq_some_iff _ (words ++ checksum variant hrp
    (words.map widen))).mpr rfl
  have hregister := (remainder_eq_constant_iff variant hrp (words.map widen)
    (length_checksum variant hrp (words.map widen))).mpr rfl
  rw [List.append_assoc, ← List.map_append, ← ofConstant?_eq_some_iff] at hregister
  have hlong : ¬(hrp = [] ∨ ((words ++ checksum variant hrp (words.map widen)).map
      Word.toChar).length < checksumLength) := by
    rw [List.length_map, List.length_append, length_checksum]
    rintro (hempty | hlt)
    · exact hhrp hempty
    · omega
  simp only [splitLower, spell, splitAtSeparator_append _ hnone, if_neg hlong, hread, hregister]
  simp

/-! ## Texts of either case -/

/-- A character of texts in lower case: printable and no capital letter. -/
structure Plain (c : Char) : Prop where
  low : 33 ≤ c.toNat
  high : c.toNat ≤ 126
  notUpper : c.isUpper = false

/-- A text is not of mixed case if it has no letters of one of the cases. -/
theorem not_mixed_iff (text : List Char) :
    ¬(text.any Char.isUpper && text.any Char.isLower) = true ↔
      (∀ c ∈ text, c.isUpper = false) ∨ ∀ c ∈ text, c.isLower = false := by
  simp only [Bool.and_eq_true, not_and_or, Bool.not_eq_true, List.any_eq_false]

/-- A text without capital letters is its own form in lower case. -/
theorem map_toLower_eq {text : List Char} (h : ∀ c ∈ text, c.isUpper = false) :
    text.map Char.toLower = text := by
  refine (List.map_congr_left fun c hc => ?_).trans text.map_id
  exact Char.toLower_eq_of_not_isUpper (Bool.eq_false_iff.mp (h c hc))

/-- What a text splits into spells it, but for its case. -/
theorem eq_spell_of_split {text : List Char} {parts : Parts} (h : split text = .ok parts) :
    parts.hrp ≠ [] ∧ (text = spell parts.variant parts.hrp parts.words ∨
      text = (spell parts.variant parts.hrp parts.words).map Char.toUpper) := by
  unfold split at h
  split_ifs at h with hforeign hmixed hlong
  obtain ⟨hhrp, hlower⟩ := eq_spell_of_splitLower h
  refine ⟨hhrp, ?_⟩
  rw [← hlower]
  rcases (not_mixed_iff text).mp hmixed with hnoUpper | hnoLower
  · left
    exact (map_toLower_eq hnoUpper).symm
  · right
    rw [List.map_map]
    refine ((List.map_congr_left fun c hc => ?_).trans text.map_id).symm
    rw [Function.comp_apply, Char.toUpper_toLower_eq_toUpper]
    exact Char.toUpper_eq_of_not_isLower (Bool.eq_false_iff.mp (hnoLower c hc))

/-- A character in upper case is printable if it is so in lower case. -/
theorem Plain.toUpper {c : Char} (h : Plain c) : 33 ≤ c.toUpper.toNat ∧ c.toUpper.toNat ≤ 126 := by
  by_cases hlower : c.isLower = true
  · have hbounds : 97 ≤ c.toNat ∧ c.toNat ≤ 122 := by
      simpa [Char.isLower, UInt32.le_iff_toNat_le] using hlower
    have hvalid : (c.toNat - 32).isValidChar := Or.inl (by omega)
    rw [Char.toUpper_eq_of_isLower hlower, Char.toNat_ofNat, if_pos hvalid]
    omega
  · rw [Char.toUpper_eq_of_not_isLower hlower]
    exact ⟨h.low, h.high⟩

/-- A spelling and its form in upper case split into what is spelled, if the
spelling is in lower case and not too long. -/
theorem split_spell {variant : Variant} {hrp : List Char} {words : List Word} {text : List Char}
    (hhrp : hrp ≠ []) (hplain : ∀ c ∈ spell variant hrp words, Plain c)
    (hlength : (spell variant hrp words).length ≤ maxLength)
    (htext : text = spell variant hrp words ∨ text = (spell variant hrp words).map Char.toUpper) :
    split text = .ok ⟨hrp, words, variant⟩ := by
  have hprintable : ∀ c ∈ text, 33 ≤ c.toNat ∧ c.toNat ≤ 126 := by
    intro c hc
    rcases htext with rfl | rfl
    · exact ⟨(hplain c hc).low, (hplain c hc).high⟩
    · obtain ⟨d, hd, rfl⟩ := List.mem_map.mp hc
      exact (hplain d hd).toUpper
  have hcase : (∀ c ∈ text, c.isUpper = false) ∨ ∀ c ∈ text, c.isLower = false := by
    rcases htext with rfl | rfl
    · exact Or.inl fun c hc => (hplain c hc).notUpper
    · refine Or.inr fun c hc => ?_
      obtain ⟨d, -, rfl⟩ := List.mem_map.mp hc
      exact Char.isLower_toUpper_eq_false d
  have hlower : text.map Char.toLower = spell variant hrp words := by
    have hself := map_toLower_eq fun c hc => (hplain c hc).notUpper
    rcases htext with rfl | rfl
    · exact hself
    · rw [List.map_map, ← hself, List.map_map]
      refine List.map_congr_left fun c _ => ?_
      simp
  have hshort : text.length ≤ maxLength := by
    rw [← hlower, List.length_map] at hlength
    exact hlength
  have hforeign : ¬(text.any fun c => c.toNat < 33 || 126 < c.toNat) = true := by
    rw [Bool.not_eq_true, List.any_eq_false]
    intro c hc
    have := hprintable c hc
    simp only [Bool.or_eq_true, decide_eq_true_eq]
    omega
  rw [split, if_neg hforeign, if_neg ((not_mixed_iff text).mpr hcase),
    if_neg (not_lt.mpr hshort), hlower, splitLower_spell hhrp]

end StakeLedger.Bech32
