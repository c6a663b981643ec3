import StakeLedger.Address.Segwit
import StakeLedger.Proofs.Address.Bech32

/-!
# Canonical addresses

Each admissible version and program has one address for a network, and the form of
it in upper case.  These are the texts that decode, to that version and program.

Main definitions:

- {lit}`Segwit.Admissible`: the versions and programs that have addresses.
- {lit}`Segwit.Canonical`: a text that is the address of a version and a program.

Main results:

- Theorem {lit}`Segwit.ofParts_eq_ok_iff`: the parts that are taken for an address.
- Theorem {lit}`Segwit.encode?_eq`: the address of a version and a program.
- Theorem {lit}`Segwit.decode_exact`: the texts that decode are the canonical addresses.
-/

namespace StakeLedger.Segwit

open Bech32 (Plain spell)

/-- The versions and programs that have addresses. -/
structure Admissible (w : Witness) : Prop where
  version : w.version ≤ 16
  atLeast : 2 ≤ w.program.length
  atMost : w.program.length ≤ 40
  fixed : w.version = 0 → w.program.length = 20 ∨ w.program.length = 32

/-- A text that is the address of a version and a program, in lower or upper case. -/
def Canonical (net : Network) (w : Witness) (text : List Char) : Prop :=
  Admissible w ∧ ∃ address, encode? w.version w.program net = some address ∧
    (text = address ∨ text = address.map Char.toUpper)

/-- The words of a version and a program. -/
def words (w : Witness) : List Word :=
  Word.ofNat w.version :: Word.ofOctets w.program

/-- A version up to sixteen is a word. -/
theorem val_version {w : Witness} (h : w.version ≤ 16) :
    (Word.ofNat w.version).val = w.version :=
  Nat.mod_eq_of_lt (by omega)

/-! ## Addresses of versions and programs -/

/-- The address of a version and a program spells their words. -/
theorem encode?_eq {w : Witness} (h : w.version ≤ 16) (net : Network) :
    encode? w.version w.program net =
      some (spell (variantFor w.version) net.hrp.toList (words w)) := by
  have hfirst : versionChar? (w.version : Int) = some (Word.toChar (Word.ofNat w.version)) := by
    rw [versionChar?, if_pos (by omega), Int.toNat_natCast]
  have hwiden : BitVec.ofInt 30 (w.version : Int) = Bech32.widen (Word.ofNat w.version) := by
    rw [Bech32.widen, val_version h]
    exact BitVec.ofInt_natCast 30 w.version
  simp only [encode?, hfirst, hwiden, Option.bind_eq_bind, Option.bind_some, words, spell,
    List.map_cons, List.cons_append]
  rfl

/-- The human-readable parts of networks are in lower case. -/
theorem plain_hrp (net : Network) {c : Char} (hc : c ∈ net.hrp.toList) : Plain c := by
  have hall : ∀ c ∈ net.hrp.toList, 33 ≤ c.toNat ∧ c.toNat ≤ 126 ∧ c.isUpper = false := by
    cases net <;> simp [Network.hrp]
  obtain ⟨hlow, hhigh, hupper⟩ := hall c hc
  exact ⟨hlow, hhigh, hupper⟩

/-- Words behind the human-readable part of a network are in lower case. -/
theorem plain_words (net : Network) (ws : List Word) :
    ∀ c ∈ net.hrp.toList ++ '1' :: ws.map Word.toChar, Plain c := by
  intro c hc
  rw [List.mem_append, List.mem_cons, List.mem_map] at hc
  rcases hc with hhrp | rfl | ⟨w, -, rfl⟩
  · exact plain_hrp net hhrp
  · exact ⟨by decide, by decide, by decide⟩
  · obtain ⟨hlow, hhigh, hupper⟩ := Word.toChar_lower w
    exact ⟨hlow, hhigh, hupper⟩

/-- Addresses are in lower case. -/
theorem plain_spell (variant : Bech32.Variant) (net : Network) (ws : List Word) :
    ∀ c ∈ spell variant net.hrp.toList ws, Plain c :=
  plain_words net _

/-- Addresses of programs of up to forty octets are not too long. -/
theorem length_spell_le {w : Witness} (h : w.program.length ≤ 40) (variant : Bech32.Variant)
    (net : Network) :
    (spell variant net.hrp.toList (words w)).length ≤ Bech32.maxLength := by
  have hhrp : net.hrp.toList.length ≤ 4 := by
    cases net <;> decide
  rw [spell, List.length_append, List.length_cons, List.length_map, List.length_append,
    Bech32.length_checksum, words, List.length_cons, Word.length_ofOctets]
  change _ ≤ 90
  change _ + (_ + 6 + 1) ≤ 90
  omega

/-! ## Parts of addresses -/

section Parts

variable {net : Network} {version : Word} {rest : List Word} {program : Octets}
  {variant : Bech32.Variant} {w : Witness}

/-- What is taken for an address has a version up to sixteen and a program of two to
forty octets. -/
theorem bounds_of_ofParts (hprogram : Word.toOctets? rest = some program)
    (h : ofParts ⟨net.hrp.toList, version :: rest, variant⟩ net = .ok w) :
    version.val ≤ maxVersion ∧ ¬(program.length < 2 ∨ 40 < program.length) := by
  simp only [ofParts, ne_eq, not_true_eq_false, if_false, hprogram] at h
  by_cases hversion : maxVersion < version.val
  · rw [if_pos hversion] at h
    exact nomatch h
  by_cases hbounds : program.length < 2 ∨ 40 < program.length
  · rw [if_neg hversion, if_pos hbounds] at h
    exact nomatch h
  exact ⟨not_lt.mp hversion, hbounds⟩

/-- Version zero takes the plain checksum, and programs of two lengths. -/
theorem ofParts_of_zero (hprogram : Word.toOctets? rest = some program)
    (hbounds : ¬(program.length < 2 ∨ 40 < program.length)) (hzero : version.val = 0) :
    ofParts ⟨net.hrp.toList, version :: rest, variant⟩ net = .ok w ↔
      variant = .plain ∧ (program.length = 20 ∨ program.length = 32) ∧ ⟨0, program⟩ = w := by
  have hversion : ¬maxVersion < version.val := not_lt.mpr (hzero.trans_le (Nat.zero_le _))
  simp only [ofParts, ne_eq, not_true_eq_false, if_false, hprogram, if_neg hversion,
    if_neg hbounds, if_pos hzero]
  by_cases hvariant : variant = .plain
  · rw [if_neg (not_not.mpr hvariant)]
    by_cases hlength : program.length = 20 ∨ program.length = 32
    · rw [if_neg (by omega), Except.ok.injEq]
      constructor
      · exact fun hw => ⟨hvariant, hlength, hw⟩
      · exact fun h => h.2.2
    · rw [if_pos (not_or.mp hlength)]
      constructor
      · exact fun h => nomatch h
      · exact fun h => absurd h.2.1 hlength
  · rw [if_pos hvariant]
    constructor
    · exact fun h => nomatch h
    · exact fun h => absurd h.1 hvariant

/-- The other versions take the modified checksum. -/
theorem ofParts_of_ne_zero (hprogram : Word.toOctets? rest = some program)
    (hversion : version.val ≤ maxVersion)
    (hbounds : ¬(program.length < 2 ∨ 40 < program.length)) (hzero : version.val ≠ 0) :
    ofParts ⟨net.hrp.toList, version :: rest, variant⟩ net = .ok w ↔
      variant = .modified ∧ ⟨version.val, program⟩ = w := by
  simp only [ofParts, ne_eq, not_true_eq_false, if_false, hprogram, if_neg (not_lt.mpr hversion),
    if_neg hbounds, if_neg hzero]
  by_cases hvariant : variant = .modified
  · rw [if_neg (not_not.mpr hvariant), Except.ok.injEq]
    constructor
    · exact fun hw => ⟨hvariant, hw⟩
    · exact fun h => h.2
  · rw [if_pos hvariant]
    constructor
    · exact fun h => nomatch h
    · exact fun h => absurd h.1 hvariant

/-- A version and a program are taken for an address if they are admissible and the
checksum belongs to the version. -/
theorem ofParts_cons (hprogram : Word.toOctets? rest = some program) :
    ofParts ⟨net.hrp.toList, version :: rest, variant⟩ net = .ok w ↔
      Admissible w ∧ ⟨version.val, program⟩ = w ∧ variant = variantFor version.val := by
  constructor
  · intro h
    obtain ⟨hversion, hbounds⟩ := bounds_of_ofParts hprogram h
    by_cases hzero : version.val = 0
    · obtain ⟨rfl, hlength, rfl⟩ := (ofParts_of_zero hprogram hbounds hzero).mp h
      rw [not_or, not_lt, not_lt] at hbounds
      refine ⟨⟨Nat.zero_le 16, hbounds.1, hbounds.2, fun _ => hlength⟩, ?_, ?_⟩
      · rw [hzero]
      · rw [variantFor, if_pos (by omega)]
    · obtain ⟨rfl, rfl⟩ := (ofParts_of_ne_zero hprogram hversion hbounds hzero).mp h
      rw [not_or, not_lt, not_lt] at hbounds
      refine ⟨⟨hversion, hbounds.1, hbounds.2, fun h => absurd h hzero⟩, rfl, ?_⟩
      rw [variantFor, if_neg (by omega)]
  · rintro ⟨⟨hversion, hleast, hmost, hfixed⟩, rfl, rfl⟩
    have hbounds : ¬(program.length < 2 ∨ 40 < program.length) :=
      not_or.mpr ⟨not_lt.mpr hleast, not_lt.mpr hmost⟩
    by_cases hzero : version.val = 0
    · refine (ofParts_of_zero hprogram hbounds hzero).mpr ⟨?_, hfixed hzero, ?_⟩
      · rw [variantFor, if_pos (by omega)]
      · rw [hzero]
    · refine (ofParts_of_ne_zero hprogram hversion hbounds hzero).mpr ⟨?_, rfl⟩
      rw [variantFor, if_neg (by omega)]

end Parts

/-- The parts that are taken for an address of a network are those of admissible
versions and programs, with the checksum that belongs to the version. -/
theorem ofParts_eq_ok_iff (parts : Bech32.Parts) (net : Network) (w : Witness) :
    ofParts parts net = .ok w ↔
      Admissible w ∧ parts = ⟨net.hrp.toList, words w, variantFor w.version⟩ := by
  obtain ⟨hrp, ws, variant⟩ := parts
  constructor
  · intro h
    by_cases hhrp : hrp = net.hrp.toList
    · subst hhrp
      cases ws with
      | nil => simp [ofParts] at h
      | cons version rest =>
          cases hprogram : Word.toOctets? rest with
          | none =>
              simp only [ofParts, ne_eq, not_true_eq_false, if_false, hprogram] at h
              split at h <;> exact nomatch h
          | some program =>
              obtain ⟨hadmissible, rfl, rfl⟩ := (ofParts_cons hprogram).mp h
              obtain rfl := (Word.toOctets?_eq_some_iff rest program).mp hprogram
              refine ⟨hadmissible, ?_⟩
              rw [words, Word.ofNat_val]
    · simp [ofParts, hhrp] at h
  · rintro ⟨hadmissible, hparts⟩
    obtain ⟨rfl, rfl, rfl⟩ := Bech32.Parts.mk.inj hparts
    have hval := val_version hadmissible.version
    have hprogram := (Word.toOctets?_eq_some_iff _ w.program).mpr rfl
    refine (ofParts_cons hprogram).mpr ⟨hadmissible, ?_, ?_⟩
    · rw [hval]
    · rw [hval]

/-! ## Decoding -/

/-- A canonical address decodes to its version and program. -/
theorem decode_of_canonical {net : Network} {w : Witness} {text : List Char}
    (h : Canonical net w text) : decode text net = .ok w := by
  obtain ⟨hadmissible, address, haddress, htext⟩ := h
  rw [encode?_eq hadmissible.version, Option.some.injEq] at haddress
  rw [← haddress] at htext
  have hhrp : net.hrp.toList ≠ [] := by
    cases net <;> decide
  have hsplit := Bech32.split_spell hhrp (plain_spell _ net _)
    (length_spell_le hadmissible.atMost _ net) htext
  simp only [decode, hsplit]
  exact (ofParts_eq_ok_iff _ net w).mpr ⟨hadmissible, rfl⟩

/-- What decodes is a canonical address. -/
theorem canonical_of_decode {net : Network} {w : Witness} {text : List Char}
    (h : decode text net = .ok w) : Canonical net w text := by
  unfold decode at h
  split at h
  · exact nomatch h
  · next parts hsplit =>
    obtain ⟨hadmissible, rfl⟩ := (ofParts_eq_ok_iff parts net w).mp h
    obtain ⟨-, htext⟩ := Bech32.eq_spell_of_split hsplit
    exact ⟨hadmissible, _, encode?_eq hadmissible.version net, htext⟩

/-- The texts that decode are exactly the canonical addresses, and every other text
has a fault.  So what is encoded decodes to itself, and two texts that decode to
the same version and program differ in their case alone. -/
theorem decode_exact (net : Network) :
    (∀ text w, decode text net = .ok w ↔ Canonical net w text) ∧
    (∀ text, (∀ w, ¬Canonical net w text) → ∃ fault, decode text net = .error fault) ∧
    (∀ w, Admissible w → ∃ address, encode? w.version w.program net = some address ∧
      decode address net = .ok w) ∧
    ∀ text other w, decode text net = .ok w → decode other net = .ok w →
      text.map Char.toLower = other.map Char.toLower := by
  refine ⟨fun text w => ⟨canonical_of_decode, decode_of_canonical⟩, ?_, ?_, ?_⟩
  · intro text hnone
    cases hdecode : decode text net with
    | error fault => exact ⟨fault, rfl⟩
    | ok w => exact absurd (canonical_of_decode hdecode) (hnone w)
  · intro w hw
    have haddress := encode?_eq hw.version net
    exact ⟨_, haddress, decode_of_canonical ⟨hw, _, haddress, Or.inl rfl⟩⟩
  · have hlower (w : Witness) (text : List Char) (htext : decode text net = .ok w) :
        some (text.map Char.toLower) =
          (encode? w.version w.program net).map fun address => address.map Char.toLower := by
      obtain ⟨-, address, haddress, hcase⟩ := canonical_of_decode htext
      rw [haddress, Option.map_some, Option.some.injEq]
      rcases hcase with rfl | rfl
      · rfl
      · rw [List.map_map]
        refine List.map_congr_left fun c _ => ?_
        simp
    intro text other w htext hother
    exact Option.some.inj ((hlower w text htext).trans (hlower w other hother).symm)

end StakeLedger.Segwit
