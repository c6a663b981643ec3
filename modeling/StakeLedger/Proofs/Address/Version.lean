import StakeLedger.Proofs.Address.Register
import StakeLedger.Proofs.Address.Segwit

/-!
# Addresses of any version

A version from minus thirty-two to thirty-one has an address for every program, though only
few of these are read.  A version below zero takes the character of a version that is not, and
its sign stays in the register.  No zeros behind it clear the sign, and with a program that
version zero may have it does not turn one variant of the checksum into the other.  So no
address is read as another version or another program than it was written for.

Main definitions:

- {lit}`Segwit.firstWord`: the word whose character a version takes.
- {lit}`Segwit.sign`: what a version below zero leaves in a register besides its word.
- {lit}`Segwit.written`: the address of a version and a program.

Main results:

- Theorem {lit}`Bech32.remainder_xor_remainder`: two texts that differ in one word.
- Theorem {lit}`Bech32.eq_zero_of_zeros`: only an empty register is left empty by zeros.
- Theorem {lit}`Segwit.ofInt_xor_ofInt`: versions with one character differ by the sign.
- Theorem {lit}`Segwit.eq_of_written_admissible`: the version and the program that an address was
  written for, if it is the address of an admissible version and program.
- Theorem {lit}`Segwit.decode_written_eq_ok_iff`: what addresses of any version decode to.
- Theorem {lit}`Segwit.never_misread`: addresses are read as what they were written for, or not.
-/

namespace StakeLedger.Bech32

/-! ## Registers that differ -/

/-- A register is told by its symbols. -/
theorem coordinates_injective : Function.Injective coordinates := by
  intro a b h
  have hdigits : digits a = digits b := by
    apply List.map_congr_left
    intro i _
    have hplace : 5 - i < 6 := by omega
    exact congrArg Symbol.word (congrFun h ⟨5 - i, hplace⟩)
  rw [← foldl_digits a, hdigits, foldl_digits]

/-- Only an empty register is left empty by a zero. -/
theorem eq_zero_of_step_zero {register : BitVec 30} (h : step register 0 = 0) :
    register = 0 := by
  have hzero : widen 0 = 0 := rfl
  have hsingle : (Pi.single 0 ⟨0⟩ : Fin 6 → Symbol) = 0 := Pi.single_zero 0
  have hempty : coordinates 0 = 0 := (coordinates_widen 0).trans hsingle
  have hstep := coordinates_step register 0
  rw [hzero, h, hsingle, hempty, add_zero] at hstep
  apply coordinates_injective
  rw [hempty]
  exact eq_zero_of_shift hstep.symm

/-- Only an empty register is left empty by zeros. -/
theorem eq_zero_of_zeros {count : Nat} {register : BitVec 30}
    (h : (List.replicate count 0).foldl step register = 0) : register = 0 := by
  induction count generalizing register with
  | zero => exact h
  | succ count ih =>
      rw [List.replicate_succ, List.foldl_cons] at h
      exact eq_zero_of_step_zero (ih h)

/-- A word is all that it leaves in an empty register. -/
theorem step_empty (word : BitVec 30) : step 0 word = word := by
  have hfeedback : feedback 0 = 0 := by decide
  rw [step, hfeedback]
  simp

/-- Two texts that differ in one word leave registers that differ by what the words behind it
make of the difference, which is what as many zeros make of it. -/
theorem remainder_xor_remainder (before behind : List (BitVec 30)) (a b : BitVec 30) :
    remainder (before ++ a :: behind) ^^^ remainder (before ++ b :: behind) =
      (List.replicate behind.length 0).foldl step (a ^^^ b) := by
  have hword (register : BitVec 30) : step register a = (a ^^^ b) ^^^ step register b := by
    have hempty : (0 : BitVec 30) ^^^ register = register := BitVec.zero_xor
    have hlinear := step_xor 0 register (a ^^^ b) b
    rw [step_empty, hempty, BitVec.xor_assoc, BitVec.xor_self, BitVec.xor_zero] at hlinear
    exact hlinear
  rw [remainder, remainder, List.foldl_append, List.foldl_append, List.foldl_cons,
    List.foldl_cons, hword, foldl_step_xor, BitVec.xor_assoc, BitVec.xor_self, BitVec.xor_zero]

/-- Two texts that differ in their first word have one checksum if what zeros make of the
difference is that of their variants. -/
theorem zeros_eq_of_checksum_eq {variant other : Variant} {hrp : List Char} {a b : BitVec 30}
    {words : List (BitVec 30)}
    (h : checksum variant hrp (a :: words) = checksum other hrp (b :: words)) :
    (List.replicate (words.length + checksumLength) 0).foldl step (a ^^^ b) =
      variant.constant ^^^ other.constant := by
  have hregister : remainder (expand hrp ++ a :: words ++ List.replicate checksumLength 0) ^^^
        variant.constant =
      remainder (expand hrp ++ b :: words ++ List.replicate checksumLength 0) ^^^
        other.constant := by
    have hdigits := congrArg (fun ws => (ws.map widen).foldl step 0) h
    exact (foldl_digits _).symm.trans (hdigits.trans (foldl_digits _))
  have hdiffer := remainder_xor_remainder (expand hrp)
    (words ++ List.replicate checksumLength 0) a b
  rw [List.length_append, List.length_replicate] at hdiffer
  rw [List.append_assoc, List.append_assoc, List.cons_append, List.cons_append] at hregister
  rw [← hdiffer]
  generalize remainder (expand hrp ++ a :: (words ++ List.replicate checksumLength 0)) = first
    at hregister ⊢
  generalize remainder (expand hrp ++ b :: (words ++ List.replicate checksumLength 0)) = second
    at hregister ⊢
  calc first ^^^ second
      = first ^^^ variant.constant ^^^ variant.constant ^^^ second := by
        rw [BitVec.xor_assoc first, BitVec.xor_self, BitVec.xor_zero]
    _ = second ^^^ other.constant ^^^ variant.constant ^^^ second := by rw [hregister]
    _ = variant.constant ^^^ other.constant ^^^ (second ^^^ second) := by ac_rfl
    _ = variant.constant ^^^ other.constant := by rw [BitVec.xor_self, BitVec.xor_zero]

end StakeLedger.Bech32

namespace StakeLedger.Segwit

open Bech32 (checksum checksumLength widen step Plain)

/-! ## Versions and their characters -/

/-- The word whose character a version takes. -/
def firstWord (version : Int) : Word :=
  Word.ofNat (version % 32).toNat

/-- A version in range has the character of its word. -/
theorem versionChar?_eq_some {version : Int} (hrange : -32 ≤ version ∧ version ≤ 31) :
    versionChar? version = some (Word.toChar (firstWord version)) := by
  unfold versionChar?
  by_cases hsign : 0 ≤ version
  · have hword : version % 32 = version := by omega
    rw [if_pos ⟨hsign, by omega⟩, firstWord, hword]
  · have hword : version % 32 = version + 32 := by omega
    rw [if_neg (fun h => hsign h.1), if_pos ⟨hrange.1, by omega⟩, firstWord, hword]

/-- The number of the word of a version. -/
theorem val_firstWord (version : Int) : ((firstWord version).val : Int) = version % 32 := by
  rw [firstWord, Word.val_ofNat]
  omega

/-- What a version below zero leaves in a register besides its word. -/
def sign : BitVec 30 := 0x3fffffe0

private theorem ofInt_xor_table : ∀ w : Word,
    BitVec.ofInt 30 ((w.val : Int) - 32) ^^^ BitVec.ofInt 30 w.val = sign := by
  decide +kernel

/-- Two versions with one character are the same, or they differ by the sign. -/
theorem ofInt_xor_ofInt {version other : Int} (hversion : -32 ≤ version ∧ version ≤ 31)
    (hother : 0 ≤ other ∧ other ≤ 31) (h : firstWord version = firstWord other) :
    version = other ∨
      version < 0 ∧ BitVec.ofInt 30 version ^^^ BitVec.ofInt 30 other = sign := by
  have hsame := val_firstWord version
  rw [h, val_firstWord] at hsame
  by_cases hsign : 0 ≤ version
  · left
    omega
  · right
    have htable := ofInt_xor_table (firstWord other)
    have hfirst : ((firstWord other).val : Int) = other := by
      rw [val_firstWord]
      omega
    have hshift : other - 32 = version := by omega
    rw [hfirst, hshift] at htable
    exact ⟨by omega, htable⟩

/-! ## Addresses -/

/-- The address of a version and a program: the word of the version, the words of the program and
the checksum, which is told the version itself. -/
def written (version : Int) (program : Octets) (net : Network) : List Char :=
  net.hrp.toList ++ '1' :: (firstWord version :: Word.ofOctets program ++
    checksum (variantFor version) net.hrp.toList
      (BitVec.ofInt 30 version :: (Word.ofOctets program).map widen)).map Word.toChar

/-- A version in range has its address for every program. -/
theorem encode?_eq_written {version : Int} (hrange : -32 ≤ version ∧ version ≤ 31)
    (program : Octets) (net : Network) :
    encode? version program net = some (written version program net) := by
  simp only [encode?, versionChar?_eq_some hrange, Option.bind_eq_bind, Option.bind_some]
  rfl

/-- A version has no address if and only if it is out of range. -/
theorem encode?_eq_none_iff (version : Int) (program : Octets) (net : Network) :
    encode? version program net = none ↔ version < -32 ∨ 31 < version := by
  constructor
  · intro hnone
    by_contra hrange
    rw [encode?_eq_written (by omega)] at hnone
    cases hnone
  · intro hrange
    have hchar : versionChar? version = none := by
      rw [versionChar?, if_neg (by omega), if_neg (by omega)]
    simp only [encode?, hchar, Option.bind_eq_bind, Option.bind_none]

/-- What an address was written for is told by its words. -/
theorem eq_of_written_eq {version other : Int} {program others : Octets} {net : Network}
    (h : written version program net = written other others net) :
    firstWord version = firstWord other ∧ program = others ∧
      checksum (variantFor version) net.hrp.toList
          (BitVec.ofInt 30 version :: (Word.ofOctets program).map widen) =
        checksum (variantFor other) net.hrp.toList
          (BitVec.ofInt 30 other :: (Word.ofOctets program).map widen) := by
  have hwords := Word.toChar_injective.list_map (List.cons.inj (List.append_cancel_left h)).2
  rcases List.cons.inj hwords with ⟨hfirst, hrest⟩
  have hlengths := (Bech32.length_checksum (variantFor version) net.hrp.toList
    (BitVec.ofInt 30 version :: (Word.ofOctets program).map widen)).trans
    (Bech32.length_checksum (variantFor other) net.hrp.toList
      (BitVec.ofInt 30 other :: (Word.ofOctets others).map widen)).symm
  rcases List.append_inj' hrest hlengths with ⟨hprogram, hcheck⟩
  have hread := (Word.toOctets?_eq_some_iff _ others).mpr hprogram
  rw [(Word.toOctets?_eq_some_iff _ program).mpr rfl, Option.some.injEq] at hread
  rw [← hread] at hcheck
  exact ⟨hfirst, hread, hcheck⟩

/-- The sign of a version below zero is never what tells two variants apart, if the program
belongs to a version that is not below zero and has the same character. -/
theorem zeros_sign_ne {w : Witness} (h : Admissible w) {version : Int} (hsign : version < 0) :
    (List.replicate ((Word.ofOctets w.program).length + checksumLength) 0).foldl step sign ≠
      (variantFor version).constant ^^^ (variantFor w.version).constant := by
  have hmodified : variantFor version = .modified := if_neg (by omega)
  rw [hmodified]
  by_cases hzero : w.version = 0
  · -- The programs of version zero have two lengths, and the sign makes another register of each.
    have hplain : variantFor w.version = .plain := if_pos (by omega)
    rw [hplain, Word.length_ofOctets]
    rcases h.fixed hzero with hlength | hlength
    · rw [hlength]
      decide +kernel
    · rw [hlength]
      decide +kernel
  · have hsame : variantFor w.version = .modified := if_neg (by omega)
    rw [hsame, BitVec.xor_self]
    intro hempty
    exact absurd (Bech32.eq_zero_of_zeros hempty) (by decide)

/-- An address that is also that of an admissible version and program was written for them. -/
theorem eq_of_written_admissible {version : Int} {program : Octets} {net : Network} {w : Witness}
    (hrange : -32 ≤ version ∧ version ≤ 31) (hw : Admissible w)
    (h : written version program net = written w.version w.program net) :
    (w.version : Int) = version ∧ w.program = program := by
  rcases eq_of_written_eq h with ⟨hfirst, rfl, hcheck⟩
  have hother : 0 ≤ (w.version : Int) ∧ (w.version : Int) ≤ 31 := by
    have := hw.version
    omega
  rcases ofInt_xor_ofInt hrange hother hfirst with hsame | ⟨hnegative, hdiffer⟩
  · exact ⟨hsame.symm, rfl⟩
  · have hzeros := Bech32.zeros_eq_of_checksum_eq hcheck
    rw [hdiffer, List.length_map] at hzeros
    exact absurd hzeros (zeros_sign_ne hw hnegative)

/-! ## What is read -/

/-- Addresses of any version are their own form in lower case. -/
theorem map_toLower_written (version : Int) (program : Octets) (net : Network) :
    (written version program net).map Char.toLower = written version program net := by
  apply Bech32.map_toLower_eq
  intro c hc
  exact (plain_words net _ c hc).notUpper

/-- An address of a version in range decodes to that version and program if they are admissible,
and to nothing else. -/
theorem decode_written_eq_ok_iff {version : Int} (hrange : -32 ≤ version ∧ version ≤ 31)
    (program : Octets) (net : Network) (w : Witness) :
    decode (written version program net) net = .ok w ↔
      Admissible w ∧ (w.version : Int) = version ∧ w.program = program := by
  constructor
  · intro hdecode
    rcases canonical_of_decode hdecode with ⟨hw, address, haddress, hcase⟩
    have hversion : -32 ≤ (w.version : Int) ∧ (w.version : Int) ≤ 31 := by
      have := hw.version
      omega
    rw [encode?_eq_written hversion, Option.some.injEq] at haddress
    have hlower : written version program net = written w.version w.program net := by
      rw [← map_toLower_written version, ← map_toLower_written w.version, haddress]
      rcases hcase with hcase | hcase
      · rw [hcase]
      · rw [hcase, List.map_map]
        apply List.map_congr_left
        intro c _
        simp
    exact ⟨hw, eq_of_written_admissible hrange hw hlower⟩
  · intro h
    rcases h with ⟨hw, rfl, rfl⟩
    exact decode_of_canonical ⟨hw, _, encode?_eq_written hrange _ net, Or.inl rfl⟩

/-- A version has no address for any program if and only if it is below minus thirty-two or above
thirty-one.  Any address is read as the version and the program that it was written for, if these
are admissible, and otherwise it has a fault: it is never read as anything else. -/
theorem never_misread (net : Network) (version : Int) (program : Octets) :
    (encode? version program net = none ↔ version < -32 ∨ 31 < version) ∧
    ∀ text, encode? version program net = some text →
      ((∃ fault, decode text net = .error fault) ∨
        ∃ w, decode text net = .ok w ∧ (w.version : Int) = version ∧ w.program = program) ∧
      ∀ w, decode text net = .ok w ↔
        Admissible w ∧ (w.version : Int) = version ∧ w.program = program := by
  refine ⟨encode?_eq_none_iff version program net, ?_⟩
  intro text htext
  have hrange : -32 ≤ version ∧ version ≤ 31 := by
    have hnone := (encode?_eq_none_iff version program net).not
    rw [htext] at hnone
    have := hnone.mp (Option.some_ne_none text)
    omega
  rw [encode?_eq_written hrange, Option.some.injEq] at htext
  rw [← htext]
  have hiff := decode_written_eq_ok_iff hrange program net
  constructor
  · cases hdecode : decode (written version program net) net with
    | error fault => exact Or.inl ⟨fault, rfl⟩
    | ok w =>
        rcases (hiff w).mp hdecode with ⟨-, hversion, hprogram⟩
        exact Or.inr ⟨w, rfl, hversion, hprogram⟩
  · exact hiff

/-- Minus thirty-one takes the character of version one, and its addresses are not read. -/
theorem never_misread_negative : ∃ text,
    encode? (-31) (List.replicate 32 0) .mainnet = some text ∧
      ∃ fault, decode text .mainnet = .error fault := by
  have hrange : -32 ≤ (-31 : Int) ∧ (-31 : Int) ≤ 31 := by decide
  have htext := encode?_eq_written hrange (List.replicate 32 0) .mainnet
  rcases (never_misread .mainnet (-31) (List.replicate 32 0)).2 _ htext with
    ⟨hfault | ⟨w, -, hversion, -⟩, -⟩
  · exact ⟨_, htext, hfault⟩
  · have hnonneg : 0 ≤ (w.version : Int) := Int.natCast_nonneg w.version
    omega

end StakeLedger.Segwit
