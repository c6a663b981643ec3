import Mathlib.Data.List.Induction
import Mathlib.Tactic.Ring
import StakeLedger.Address.Word

/-!
# Octets and words regrouped

The bits of a string of octets are those of its words, but for the zeros that fill
up the last word.  So octets read back from their words, and only the words of a
string of octets read as one.

Main results:

- Theorem {lit}`Word.flatMap_bits_fives`: the bits of grouped bits.
- Theorem {lit}`Word.eights?_eq_some`: what bits read as octets.
- Theorem {lit}`Word.toOctets?_eq_some_iff`: the words of octets, and no others, read as them.
- Theorem {lit}`Word.mapM_ofChar?_eq_some_iff`: the characters of words, and no others, read as
  them.
-/

namespace StakeLedger.Word

/-! ## Numbers and their bits -/

/-- The bits of a number are those of its half, and the lowest one. -/
theorem bits_succ (width n : Nat) : bits (width + 1) n = bits width (n / 2) ++ [n.testBit 0] := by
  rw [bits, bits, List.range_succ_eq_map, List.reverse_cons, List.map_append, ← List.map_reverse,
    List.map_map]
  refine congrArg (fun high => high ++ [n.testBit 0]) (List.map_congr_left fun i _ => ?_)
  rw [Function.comp_apply, Nat.succ_eq_add_one, Nat.testBit_add_one]

/-- As many bits as wanted. -/
@[simp]
theorem length_bits (width n : Nat) : (bits width n).length = width := by
  simp [bits]

/-- The number of some bits and one more. -/
theorem ofBits_concat (bs : List Bool) (b : Bool) :
    ofBits (bs ++ [b]) = 2 * ofBits bs + b.toNat := by
  rw [ofBits, ofBits, List.foldl_append, List.foldl_cons, List.foldl_nil]

/-- The bits of a number tell its remainder. -/
theorem ofBits_bits (width n : Nat) : ofBits (bits width n) = n % 2 ^ width := by
  induction width generalizing n with
  | zero =>
      rw [pow_zero, Nat.mod_one]
      rfl
  | succ width ih =>
      rw [bits_succ, ofBits_concat, ih, pow_succ', Nat.mod_mul, Nat.testBit_zero]
      rcases Nat.mod_two_eq_zero_or_one n with h | h <;> simp [h, Nat.add_comm]

/-- The number of some bits is bounded by how many they are. -/
theorem ofBits_lt (bs : List Bool) : ofBits bs < 2 ^ bs.length := by
  induction bs using List.reverseRecOn with
  | nil => exact Nat.one_pos
  | append_singleton bs b ih =>
      have hb : b.toNat ≤ 1 := b.toNat_le
      rw [ofBits_concat, List.length_append, List.length_singleton, pow_succ]
      omega

/-- The number of some bits has these bits. -/
theorem bits_ofBits (bs : List Bool) : bits bs.length (ofBits bs) = bs := by
  induction bs using List.reverseRecOn with
  | nil => rfl
  | append_singleton bs b ih =>
      have hhalf : (2 * ofBits bs + b.toNat) / 2 = ofBits bs := by
        have hb : b.toNat < 2 := b.toNat_lt
        omega
      have hlow : (2 * ofBits bs + b.toNat).testBit 0 = b := by
        rw [Nat.testBit_zero, Nat.mul_add_mod]
        cases b <;> rfl
      rw [List.length_append, List.length_singleton, bits_succ, ofBits_concat, hhalf, hlow, ih]

/-- Zeros after some bits multiply their number. -/
theorem ofBits_append_zeros (bs : List Bool) (k : Nat) :
    ofBits (bs ++ List.replicate k false) = ofBits bs * 2 ^ k := by
  induction k with
  | zero => simp
  | succ k ih =>
      rw [List.replicate_succ', ← List.append_assoc, ofBits_concat, ih, pow_succ]
      simp only [Bool.toNat_false]
      ring

/-! ## Words of bits -/

/-- The number of the word of a number. -/
theorem val_ofNat (n : Nat) : (ofNat n).val = n % 32 :=
  rfl

/-- A word is that of its number. -/
theorem ofNat_val (w : Word) : ofNat w.val = w :=
  Fin.ofNat_val_eq_self w

/-- The bits of a word are those it was packed from, and zeros. -/
theorem bits_pack {bs : List Bool} (h : bs.length ≤ 5) :
    bits 5 (pack bs).val = bs ++ List.replicate (5 - bs.length) false := by
  have hlength : (bs ++ List.replicate (5 - bs.length) false).length = 5 := by
    rw [List.length_append, List.length_replicate]
    omega
  have hlt := ofBits_lt (bs ++ List.replicate (5 - bs.length) false)
  have hself := bits_ofBits (bs ++ List.replicate (5 - bs.length) false)
  rw [hlength] at hlt hself
  have hval : (pack bs).val = ofBits (bs ++ List.replicate (5 - bs.length) false) := by
    rw [pack, Nat.shiftLeft_eq, ← ofBits_append_zeros, val_ofNat]
    exact Nat.mod_eq_of_lt hlt
  rw [hval, hself]

/-- A word is packed from its bits. -/
theorem pack_bits (w : Word) : pack (bits 5 w.val) = w := by
  have hw : w.val % 2 ^ 5 = w.val := Nat.mod_eq_of_lt w.isLt
  rw [pack, length_bits, ofBits_bits, hw]
  exact ofNat_val w

/-- Words are told by their bits. -/
theorem fives_bits_append (w : Word) (rest : List Bool) :
    fives (bits 5 w.val ++ rest) = w :: fives rest := by
  obtain ⟨a, b, c, d, e, hbits⟩ : ∃ a b c d e, bits 5 w.val = [a, b, c, d, e] :=
    ⟨_, _, _, _, _, rfl⟩
  have hpack := pack_bits w
  rw [hbits] at hpack ⊢
  change pack [a, b, c, d, e] :: fives rest = _
  rw [hpack]

/-- The words of the bits of some words. -/
theorem fives_flatMap_bits (ws : List Word) : fives (ws.flatMap fun w => bits 5 w.val) = ws := by
  induction ws with
  | nil => rfl
  | cons w rest ih => rw [List.flatMap_cons, fives_bits_append, ih]

/-- The bits of grouped bits are those bits, and fewer than five zeros. -/
theorem flatMap_bits_fives (bs : List Bool) :
    ∃ k, k < 5 ∧ ((fives bs).flatMap fun w => bits 5 w.val) = bs ++ List.replicate k false := by
  induction bs using fives.induct with
  | case1 a b c d e rest ih =>
      obtain ⟨k, hk, hrest⟩ := ih
      refine ⟨k, hk, ?_⟩
      rw [fives, List.flatMap_cons, hrest, bits_pack (by simp)]
      simp
  | case2 => exact ⟨0, by decide, rfl⟩
  | case3 short hmany hne =>
      have hlength : short.length < 5 := by
        rcases short with _ | ⟨a, _ | ⟨b, _ | ⟨c, _ | ⟨d, _ | ⟨e, rest⟩⟩⟩⟩⟩
        · exact absurd rfl hne
        · simp
        · simp
        · simp
        · simp
        · exact absurd rfl (hmany a b c d e rest)
      have hpos : 0 < short.length := List.length_pos_iff.mpr hne
      refine ⟨5 - short.length, by omega, ?_⟩
      rw [fives, List.flatMap_cons, List.flatMap_nil, List.append_nil, bits_pack (by omega)]
      · exact hmany
      · exact hne

/-- Words have five bits each. -/
theorem length_flatMap_bits (ws : List Word) :
    (ws.flatMap fun w => bits 5 w.val).length = 5 * ws.length := by
  induction ws with
  | nil => rfl
  | cons w rest ih =>
      rw [List.flatMap_cons, List.length_append, length_bits, ih, List.length_cons]
      omega

/-! ## Octets of bits -/

/-- Octets are told by their bits. -/
theorem eights?_bits_append (b : UInt8) (rest : List Bool) :
    eights? (bits 8 b.toNat ++ rest) = (eights? rest).map (b :: ·) := by
  obtain ⟨a₁, a₂, a₃, a₄, a₅, a₆, a₇, a₈, hbits⟩ : ∃ a₁ a₂ a₃ a₄ a₅ a₆ a₇ a₈,
      bits 8 b.toNat = [a₁, a₂, a₃, a₄, a₅, a₆, a₇, a₈] := ⟨_, _, _, _, _, _, _, _, rfl⟩
  have hvalue : UInt8.ofNat (ofBits (bits 8 b.toNat)) = b := by
    rw [ofBits_bits, Nat.mod_eq_of_lt b.toNat_lt, UInt8.ofNat_toNat]
  rw [hbits] at hvalue ⊢
  change (eights? rest).map (UInt8.ofNat (ofBits [a₁, a₂, a₃, a₄, a₅, a₆, a₇, a₈]) :: ·) = _
  rw [hvalue]

/-- Fewer than five zeros read as no octets. -/
theorem eights?_zeros {k : Nat} (hk : k < 5) : eights? (List.replicate k false) = some [] := by
  obtain rfl | rfl | rfl | rfl | rfl : k = 0 ∨ k = 1 ∨ k = 2 ∨ k = 3 ∨ k = 4 := by omega
  all_goals rfl

/-- The bits of octets read as them, with fewer than five zeros left over. -/
theorem eights?_flatMap_bits (octets : Octets) {k : Nat} (hk : k < 5) :
    eights? ((octets.flatMap fun b => bits 8 b.toNat) ++ List.replicate k false) =
      some octets := by
  induction octets with
  | nil => exact eights?_zeros hk
  | cons b rest ih =>
      rw [List.flatMap_cons, List.append_assoc, eights?_bits_append, ih]
      rfl

/-- The octet of eight bits has these bits. -/
theorem bits_octet {bs : List Bool} (h : bs.length = 8) :
    bits 8 (UInt8.ofNat (ofBits bs)).toNat = bs := by
  have hlt := ofBits_lt bs
  have hself := bits_ofBits bs
  rw [h] at hlt hself
  rw [UInt8.toNat_ofNat_of_lt' hlt, hself]

/-- What reads as octets is their bits, and fewer than five zeros. -/
theorem eights?_eq_some {bs : List Bool} {octets : Octets} (h : eights? bs = some octets) :
    ∃ k, k < 5 ∧ bs = (octets.flatMap fun b => bits 8 b.toNat) ++ List.replicate k false := by
  induction bs using eights?.induct generalizing octets with
  | case1 a₁ a₂ a₃ a₄ a₅ a₆ a₇ a₈ rest ih =>
      rw [eights?, Option.map_eq_some_iff] at h
      obtain ⟨others, hothers, rfl⟩ := h
      obtain ⟨k, hk, hrest⟩ := ih hothers
      refine ⟨k, hk, ?_⟩
      rw [List.flatMap_cons, bits_octet rfl, List.append_assoc, ← hrest]
      rfl
  | case2 short hfew hzeros =>
      rw [eights?, if_pos hzeros] at h
      · obtain rfl : [] = octets := Option.some.inj h
        refine ⟨short.length, hzeros.1, ?_⟩
        rw [List.flatMap_nil, List.nil_append, List.eq_replicate_iff]
        exact ⟨rfl, by simpa using hzeros.2⟩
      · exact hfew
  | case3 short hfew hother =>
      rw [eights?, if_neg hother] at h
      · exact nomatch h
      · exact hfew

/-! ## Regrouping -/

/-- The words of octets, and no others, read as them. -/
theorem toOctets?_eq_some_iff (words : List Word) (octets : Octets) :
    toOctets? words = some octets ↔ words = ofOctets octets := by
  obtain ⟨pad, hpad, hfives⟩ := flatMap_bits_fives (octets.flatMap fun b => bits 8 b.toNat)
  constructor
  · intro h
    obtain ⟨k, hk, hbits⟩ := eights?_eq_some h
    -- Both fillings complete the same bits to words of five.
    have hsame : k = pad := by
      have hwords := length_flatMap_bits words
      have hgroups := length_flatMap_bits (ofOctets octets)
      rw [hbits, List.length_append, List.length_replicate] at hwords
      rw [ofOctets, hfives, List.length_append, List.length_replicate] at hgroups
      omega
    rw [hsame, ← hfives] at hbits
    have hfold := congrArg fives hbits
    rw [fives_flatMap_bits, fives_flatMap_bits] at hfold
    exact hfold
  · rintro rfl
    rw [toOctets?, ofOctets, hfives]
    exact eights?_flatMap_bits octets hpad

/-- How many words octets take. -/
theorem length_ofOctets (octets : Octets) :
    (ofOctets octets).length = (8 * octets.length + 4) / 5 := by
  obtain ⟨pad, hpad, hfives⟩ := flatMap_bits_fives (octets.flatMap fun b => bits 8 b.toNat)
  have hgroups := length_flatMap_bits (ofOctets octets)
  have hoctets : (octets.flatMap fun b => bits 8 b.toNat).length = 8 * octets.length := by
    simp only [List.length_flatMap, length_bits, List.map_const', List.sum_replicate_nat,
      Nat.mul_comm]
  rw [ofOctets, hfives, List.length_append, List.length_replicate, hoctets] at hgroups
  rw [ofOctets]
  omega

/-! ## Words and characters -/

/-- The word that a character names has that character. -/
theorem toChar_of_ofChar? {c : Char} {w : Word} (h : ofChar? c = some w) : toChar w = c := by
  have hfound := List.find?_some h
  exact beq_iff_eq.mp hfound

/-- The characters of words, and no others, read as them. -/
theorem mapM_ofChar?_eq_some_iff (text : List Char) (words : List Word) :
    text.mapM ofChar? = some words ↔ text = words.map toChar := by
  induction text generalizing words with
  | nil =>
      cases words <;> simp
  | cons c rest ih =>
      rw [List.mapM_cons]
      constructor
      · intro h
        obtain ⟨w, hw, h⟩ := Option.bind_eq_some_iff.mp h
        obtain ⟨ws, hws, h⟩ := Option.bind_eq_some_iff.mp h
        obtain rfl := Option.some.inj h
        rw [List.map_cons, toChar_of_ofChar? hw, ← (ih ws).mp hws]
      · intro h
        cases words with
        | nil => exact nomatch h
        | cons w ws =>
            obtain ⟨rfl, hrest⟩ := List.cons.inj h
            simp [ofChar?_toChar, (ih ws).mpr hrest]

/-- Words are told by their characters. -/
theorem toChar_injective : Function.Injective toChar := by
  intro v w h
  have hread := congrArg ofChar? h
  rw [ofChar?_toChar, ofChar?_toChar] at hread
  exact Option.some.inj hread

/-- No word has the separator for its character. -/
theorem toChar_ne_one : ∀ w : Word, toChar w ≠ '1' := by
  decide

/-- The character of a word is printable and not in upper case. -/
theorem toChar_lower : ∀ w : Word,
    33 ≤ (toChar w).toNat ∧ (toChar w).toNat ≤ 126 ∧ (toChar w).isUpper = false := by
  decide

end StakeLedger.Word
