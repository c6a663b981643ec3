import StakeLedger.Address.Taproot
import StakeLedger.Proofs.Address.Distance
import StakeLedger.Proofs.Address.Segwit
import StakeLedger.Text.Case

/-!
# Addresses of output keys

Each output key has one Taproot address for a network.  This address and its form in
upper case are the texts that decode to the key.  The words of two addresses complete the
same human-readable part, so the addresses differ in five places or more.

Main definitions:

- {lit}`Taproot.spelling`: the characters of the address of an output key.
- {lit}`Taproot.upper`: the form of an address in upper case.
- {lit}`Taproot.checkedWords`: the words of the address of an output key.

Main results:

- Theorem {lit}`Taproot.encode?_eq_some_iff`: the address of an output key.
- Theorem {lit}`Taproot.decode_eq_ok_iff`: the texts that decode, and what they decode to.
- Theorem {lit}`Taproot.lower_of_decode`: the address is the text in lower case.
- Theorem {lit}`Taproot.exists_encode?`: every output key has an address that decodes to it.
- Theorem {lit}`Taproot.five_le_distance_spelling`: how many places two addresses differ in.
- Theorem {lit}`Taproot.decode_mistyped`: up to four wrong characters are found out.
-/

namespace StakeLedger

namespace Taproot

open Bech32 (Plain spell)

/-- The characters of the address of an output key. -/
def spelling (key : Octets) (net : Network) : List Char :=
  spell .modified net.hrp.toList (Segwit.words ⟨version, key⟩)

/-- The form of an address in upper case. -/
def upper (address : String) : String :=
  String.ofList (address.toList.map Char.toUpper)

/-- Output keys have witnesses that are admissible. -/
theorem admissible {key : Octets} (h : key.length = keyLength) :
    Segwit.Admissible ⟨version, key⟩ where
  version := Nat.le_of_ble_eq_true rfl
  atLeast := h ▸ Nat.le_of_ble_eq_true rfl
  atMost := h ▸ Nat.le_of_ble_eq_true rfl
  fixed hzero := nomatch hzero

/-- Characters of addresses are printable and in lower case. -/
theorem plain_spelling (key : Octets) (net : Network) : ∀ c ∈ spelling key net, Plain c :=
  Segwit.plain_spell _ net _

/-- The address of an output key is spelled as such. -/
theorem encode?_eq_some_iff (key : Octets) (net : Network) (address : String) :
    encode? key net = some address ↔
      key.length = keyLength ∧ address = String.ofList (spelling key net) := by
  unfold encode?
  by_cases hlength : key.length = keyLength
  · have hencode := Segwit.encode?_eq (admissible hlength).version net
    rw [if_pos hlength]
    change Option.map _ (Segwit.encode? ((version : Nat) : Int) key net) = _ ↔ _
    rw [hencode, Option.map_some, Option.some.injEq]
    constructor
    · exact fun h => ⟨hlength, h.symm⟩
    · exact fun h => h.2.symm
  · rw [if_neg hlength]
    constructor
    · exact fun h => nomatch h
    · exact fun h => absurd h.1 hlength

/-- A text is an address or its form in upper case if its characters are. -/
theorem spelled_iff (text : String) (key : Octets) (net : Network) :
    (text = String.ofList (spelling key net) ∨ text = upper (String.ofList (spelling key net))) ↔
      text.toList = spelling key net ∨ text.toList = (spelling key net).map Char.toUpper := by
  rw [upper, String.toList_ofList, ← String.toList_inj, ← String.toList_inj, String.toList_ofList,
    String.toList_ofList]

/-- An address of either case has the spelling in lower case. -/
theorem map_toLower_of_spelling {key : Octets} {net : Network} {text : List Char}
    (h : text = spelling key net ∨ text = (spelling key net).map Char.toUpper) :
    text.map Char.toLower = spelling key net := by
  have hself := Bech32.map_toLower_eq fun c hc => (plain_spelling key net c hc).notUpper
  rcases h with rfl | rfl
  · exact hself
  · rw [List.map_map]
    conv_rhs => rw [← hself]
    refine List.map_congr_left fun c _ => ?_
    simp

/-- The texts that decode are addresses of output keys, and their forms in upper case. -/
theorem decode_eq_ok_iff (text : String) (net : Network) (address : Address) :
    decode text net = .ok address ↔
      address.network = net ∧ encode? address.program net = some address.text ∧
        (text = address.text ∨ text = upper address.text) := by
  constructor
  · intro h
    unfold decode at h
    split_ifs at h with hempty
    split at h
    · exact nomatch h
    · next witness hwitness =>
      split_ifs at h with hkind
      obtain ⟨number, program⟩ := witness
      obtain ⟨rfl, hlength⟩ := hkind
      obtain ⟨-, characters, hencode, hcase⟩ := Segwit.canonical_of_decode hwitness
      rw [Segwit.encode?_eq (admissible hlength).version, Option.some.injEq] at hencode
      subst hencode
      obtain rfl := Except.ok.inj h
      rw [map_toLower_of_spelling hcase]
      exact ⟨rfl, (encode?_eq_some_iff program net _).mpr ⟨hlength, rfl⟩,
        (spelled_iff text program net).mpr hcase⟩
  · obtain ⟨characters, network, program⟩ := address
    rintro ⟨rfl, hencode, htext⟩
    dsimp only at hencode htext ⊢
    obtain ⟨hlength, rfl⟩ := (encode?_eq_some_iff _ _ _).mp hencode
    have hcase := (spelled_iff text program network).mp htext
    have hwitness : Segwit.decode text.toList network = .ok ⟨version, program⟩ :=
      Segwit.decode_of_canonical ⟨admissible hlength, _,
        Segwit.encode?_eq (admissible hlength).version network, hcase⟩
    have hempty : text ≠ "" := by
      rintro rfl
      rcases hcase with hcase | hcase <;> simp [spelling, spell] at hcase
    rw [decode, if_neg hempty, hwitness]
    dsimp only
    rw [if_pos ⟨rfl, hlength⟩, map_toLower_of_spelling hcase]

/-- The address that a text decodes to is the text in lower case. -/
theorem lower_of_decode {text : String} {net : Network} {address : Address}
    (h : decode text net = .ok address) : Case.lower text = address.text := by
  rcases (decode_eq_ok_iff text net address).mp h with ⟨-, hencode, htext⟩
  rcases (encode?_eq_some_iff _ _ _).mp hencode with ⟨-, haddress⟩
  have hplain := plain_spelling address.program net
  rw [haddress] at htext
  have hcase := (spelled_iff text address.program net).mp htext
  have hascii : ∀ c ∈ text.toList, c.toNat < 0x80 := by
    intro c hc
    rcases hcase with hcase | hcase
    · rw [hcase] at hc
      exact Nat.lt_of_le_of_lt (hplain c hc).high (by decide)
    · rw [hcase, List.mem_map] at hc
      rcases hc with ⟨d, hd, rfl⟩
      exact Nat.lt_of_le_of_lt (hplain d hd).toUpper.2 (by decide)
  rw [← String.ofList_toList (s := text), Case.lower_of_ascii hascii,
    map_toLower_of_spelling hcase, haddress]

/-- Every output key has an address, which decodes to the key. -/
theorem exists_encode? {key : Octets} (h : key.length = keyLength) (net : Network) :
    ∃ text, encode? key net = some text ∧
      ∃ address, decode text net = .ok address ∧ address.program = key := by
  have hencode := (encode?_eq_some_iff key net _).mpr ⟨h, rfl⟩
  exact ⟨_, hencode, ⟨_, net, key⟩, (decode_eq_ok_iff _ net _).mpr ⟨rfl, hencode, Or.inl rfl⟩, rfl⟩

/-! ## Mistyped addresses -/

/-- The words of a version, an output key and their checksum. -/
def checkedWords (key : Octets) (net : Network) : List Word :=
  Segwit.words ⟨version, key⟩ ++
    Bech32.checksum .modified net.hrp.toList ((Segwit.words ⟨version, key⟩).map Bech32.widen)

/-- Output keys of one length have as many words. -/
theorem length_checkedWords {key : Octets} (h : key.length = keyLength) (net : Network) :
    (checkedWords key net).length = 59 := by
  rw [checkedWords, List.length_append, Bech32.length_checksum, Segwit.words, List.length_cons,
    Word.length_ofOctets, h]
  rfl

/-- The words of an address complete its human-readable part. -/
theorem remainder_checkedWords (key : Octets) (net : Network) :
    Bech32.remainder (Bech32.expand net.hrp.toList ++ (checkedWords key net).map Bech32.widen) =
      Bech32.Variant.modified.constant := by
  rw [checkedWords, List.map_append, ← List.append_assoc]
  exact (Bech32.remainder_eq_constant_iff _ _ _ (Bech32.length_checksum _ _ _)).mpr rfl

/-- The addresses of two output keys differ in five places or more. -/
theorem five_le_distance_spelling {key other : Octets} (hkey : key.length = keyLength)
    (hother : other.length = keyLength) (net : Network)
    (hne : spelling key net ≠ spelling other net) :
    5 ≤ Bech32.distance (spelling key net) (spelling other net) := by
  have hspelling (key : Octets) : spelling key net =
      (net.hrp.toList ++ ['1']) ++ (checkedWords key net).map Word.toChar := by
    rw [List.append_assoc]
    rfl
  have hsame := (remainder_checkedWords key net).trans (remainder_checkedWords other net).symm
  rw [Bech32.remainder, Bech32.remainder, List.foldl_append, List.foldl_append] at hsame
  have hlength := (length_checkedWords hkey net).trans (length_checkedWords hother net).symm
  rw [hspelling, hspelling, Bech32.distance_append_self, Bech32.distance_map Word.toChar_injective]
  refine Bech32.five_le_distance hlength ?_ ?_ hsame
  · rw [length_checkedWords hkey]
    decide
  · intro hwords
    apply hne
    rw [hspelling, hspelling, hwords]

/-- The addresses of a network are of one length. -/
theorem length_spelling {key : Octets} (h : key.length = keyLength) (net : Network) :
    (spelling key net).length = net.hrp.toList.length + 60 := by
  change (net.hrp.toList ++ '1' :: (checkedWords key net).map Word.toChar).length = _
  rw [List.length_append, List.length_cons, List.length_map, length_checkedWords h]

/-- A text that decodes spells an output key in lower case. -/
theorem toList_lower_of_decode {text : String} {net : Network} {address : Address}
    (h : decode text net = .ok address) :
    address.program.length = keyLength ∧
      (Case.lower text).toList = spelling address.program net := by
  rcases (decode_eq_ok_iff text net address).mp h with ⟨-, hencode, -⟩
  rcases (encode?_eq_some_iff _ _ _).mp hencode with ⟨hlength, haddress⟩
  rw [lower_of_decode h, haddress, String.toList_ofList]
  exact ⟨hlength, rfl⟩

/-- A text that is an address but for some places is no address if they are at most
four.  So two addresses of a network that are not the same differ in five places or more. -/
theorem decode_mistyped (net : Network) :
    (∀ key, key.length = keyLength → ∃ address, encode? key net = some address ∧
      ∀ text, Case.lower text ≠ address →
        Bech32.distance (Case.lower text).toList address.toList ≤ 4 →
        ∃ fault, decode text net = .error fault) ∧
    ∀ text other a b, Case.lower text = text → Case.lower other = other →
      decode text net = .ok a → decode other net = .ok b → text ≠ other →
      text.length = other.length ∧ 5 ≤ Bech32.distance text.toList other.toList := by
  constructor
  · intro key hkey
    refine ⟨_, (encode?_eq_some_iff key net _).mpr ⟨hkey, rfl⟩, fun text hne hfew => ?_⟩
    cases hdecode : decode text net with
    | error fault => exact ⟨fault, rfl⟩
    | ok a =>
        rcases toList_lower_of_decode hdecode with ⟨hlength, htext⟩
        have hdiffer : spelling a.program net ≠ spelling key net := by
          intro hsame
          rw [← htext] at hsame
          apply hne
          rw [← hsame, String.ofList_toList]
        have hfive := five_le_distance_spelling hlength hkey net hdiffer
        rw [htext, String.toList_ofList] at hfew
        omega
  · intro text other a b htext hother ha hb hne
    rcases toList_lower_of_decode ha with ⟨hfirst, hspelled⟩
    rcases toList_lower_of_decode hb with ⟨hsecond, hspelled'⟩
    rw [htext] at hspelled
    rw [hother] at hspelled'
    constructor
    · rw [← String.length_toList, ← String.length_toList, hspelled, hspelled',
        length_spelling hfirst, length_spelling hsecond]
    · rw [hspelled, hspelled']
      apply five_le_distance_spelling hfirst hsecond
      intro hsame
      apply hne
      rw [← String.toList_inj, hspelled, hspelled', hsame]

end Taproot

end StakeLedger
