import StakeLedger.Key

/-!
# Normal public keys

A key is kept in its normal form, sixty-six lower-case hexadecimal digits.  The
normal form of a text in that form is the text itself.

Main definitions:

- {lit}`Hex.isLower`: lower-case hexadecimal digits.
- {lit}`PublicKey.IsNormal`: keys in their normal form.

Main results:

- Theorem {lit}`Hex.exists_encode`: lower-case digits in pairs are the text of some octets.
- Theorem {lit}`PublicKey.normalize_eq_self_iff`: which texts are their own normal form.
-/

namespace StakeLedger

namespace Hex

/-- Whether a character is a lower-case hexadecimal digit. -/
def isLower (c : Char) : Bool :=
  "0123456789abcdef".toList.contains c

/-- The lower-case digits are those that numbers below sixteen are written with. -/
theorem isLower_iff (c : Char) : isLower c = true ↔ ∃ n, n < 16 ∧ digit n = c := by
  have hdigits : (List.range 16).map digit = "0123456789abcdef".toList := by decide
  simp only [isLower, List.contains_iff_mem, ← hdigits, List.mem_map, List.mem_range]

/-- Written text has lower-case digits only. -/
theorem isLower_of_mem_encode {octets : Octets} {c : Char} (hc : c ∈ encode octets) :
    isLower c = true := by
  induction octets with
  | nil => simp [encode] at hc
  | cons b rest ih =>
      have hb : b.toNat < 256 := b.toNat_lt
      rw [encode, List.mem_cons, List.mem_cons] at hc
      rcases hc with rfl | rfl | hrest
      · exact (isLower_iff _).mpr ⟨_, by omega, rfl⟩
      · exact (isLower_iff _).mpr ⟨_, by omega, rfl⟩
      · exact ih hrest

/-- An octet is written with the digits of its halves. -/
theorem encode_cons_ofNat {h l : Nat} (hh : h < 16) (hl : l < 16) (octets : Octets) :
    encode (UInt8.ofNat (16 * h + l) :: octets) = digit h :: digit l :: encode octets := by
  have hvalue : (UInt8.ofNat (16 * h + l)).toNat = 16 * h + l := by
    simp only [UInt8.toNat_ofNat']
    omega
  have hdiv : (16 * h + l) / 16 = h := by omega
  have hmod : (16 * h + l) % 16 = l := by omega
  rw [encode, hvalue, hdiv, hmod]

/-- Lower-case digits in pairs are the text of some octets. -/
theorem exists_encode {n : Nat} {text : List Char} (hlength : text.length = 2 * n)
    (hlower : ∀ c ∈ text, isLower c = true) :
    ∃ octets : Octets, octets.length = n ∧ encode octets = text := by
  induction n generalizing text with
  | zero => exact ⟨[], rfl, (List.length_eq_zero_iff.mp hlength).symm⟩
  | succ n ih =>
      obtain ⟨high, low, rest, rfl⟩ : ∃ high low rest, text = high :: low :: rest := by
        match text, hlength with
        | high :: low :: rest, _ => exact ⟨high, low, rest, rfl⟩
      obtain ⟨h, hh, hhigh⟩ := (isLower_iff high).mp (hlower high (by simp))
      obtain ⟨l, hl, hlow⟩ := (isLower_iff low).mp (hlower low (by simp))
      have hrest : rest.length = 2 * n := by
        rw [List.length_cons, List.length_cons] at hlength
        omega
      obtain ⟨octets, hn, hoctets⟩ := ih hrest fun c hc =>
        hlower c (List.mem_cons_of_mem _ (List.mem_cons_of_mem _ hc))
      refine ⟨UInt8.ofNat (16 * h + l) :: octets, by rw [List.length_cons, hn], ?_⟩
      rw [encode_cons_ofNat hh hl, hhigh, hlow, hoctets]

end Hex

namespace PublicKey

/-- A key in its normal form: sixty-six lower-case hexadecimal digits. -/
structure IsNormal (key : String) : Prop where
  length : key.toList.length = 66
  lower : ∀ c ∈ key.toList, Hex.isLower c = true

/-- A key is read from the digits of the right number of octets. -/
theorem parse_eq_ok_iff (text : String) (octets : Octets) :
    parse text = .ok octets ↔
      Hex.decode? text.toList = some octets ∧ octets.length = compressedLength := by
  unfold parse
  split
  · next hempty =>
    rw [hempty]
    constructor
    · exact nofun
    · rintro ⟨hdecode, hlength⟩
      cases hdecode
      cases hlength
  split
  · next hnone => simp [hnone]
  · next found hfound =>
    rw [hfound, Option.some.injEq]
    split
    · next hlength =>
      rw [Except.ok.injEq, iff_self_and]
      rintro rfl
      exact hlength
    · next hlength =>
      constructor
      · exact nofun
      · rintro ⟨rfl, hoctets⟩
        exact absurd hoctets hlength

/-- The text of the octets of a key is in its normal form. -/
theorem isNormal_text {octets : Octets} (h : octets.length = compressedLength) :
    IsNormal (Hex.text octets) where
  length := by
    rw [Hex.text, String.toList_ofList, Hex.encode_length, h]
    rfl
  lower := by
    rw [Hex.text, String.toList_ofList]
    exact fun c hc => Hex.isLower_of_mem_encode hc

/-- The texts that are their own normal form are the keys in that form. -/
theorem normalize_eq_self_iff (key : String) : normalize key = .ok key ↔ IsNormal key := by
  constructor
  · intro h
    cases hparse : parse key with
    | error fault =>
        rw [normalize, hparse] at h
        exact nomatch h
    | ok octets =>
        have hkey : Hex.text octets = key := by
          rw [normalize, hparse] at h
          exact Except.ok.inj h
        rw [← hkey]
        exact isNormal_text ((parse_eq_ok_iff key octets).mp hparse).2
  · rintro ⟨hlength, hlower⟩
    obtain ⟨octets, hoctets, htext⟩ := Hex.exists_encode (n := 33) hlength hlower
    have hparse : parse key = .ok octets := by
      rw [parse_eq_ok_iff, ← htext, Hex.decode?_encode]
      exact ⟨rfl, hoctets⟩
    rw [normalize, hparse]
    change Except.ok (Hex.text octets) = .ok key
    rw [Hex.text, htext, String.ofList_toList]

/-- One lower-case digit, repeated, is a key in its normal form. -/
theorem isNormal_replicate {c : Char} (hc : Hex.isLower c = true) :
    IsNormal (String.ofList (List.replicate 66 c)) where
  length := by rw [String.toList_ofList, List.length_replicate]
  lower := by
    intro d hd
    rw [String.toList_ofList] at hd
    rw [List.eq_of_mem_replicate hd]
    exact hc

end PublicKey

end StakeLedger
