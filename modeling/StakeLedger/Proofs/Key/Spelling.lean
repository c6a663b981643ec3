import StakeLedger.Key
import StakeLedger.Proofs.Key.PublicKey

/-!
# Keys and hashes in either case

Keys and hashes are texts of hexadecimal digits of either case, sixty-six and sixty-four of them.
Such a text is read as the same text in lower case, and no other text is read at all.  So texts
that differ by the case of letters alone are read alike, or refused alike.

Main definitions:

- {lit}`Hex.lowered`, {lit}`Hex.SameLetters`: texts in lower case, and texts that agree there.
- {lit}`Hex.IsDigits`: texts of so many digits.
- {lit}`Hex.decodeSpaced?`: octets of digit pairs with blanks around them.
- {lit}`Hex.Reads`: what is promised of a reader of so many digits.

Main results:

- Theorem {lit}`Hex.decode?_eq_some_iff`: which octets a text of digits has.
- Theorem {lit}`PublicKey.parse_eq_steps`: a key is tested for its digits, then read, then
  measured.
- Theorems {lit}`PublicKey.reads`, {lit}`TxHash.reads`: keys and hashes keep the promise.
-/

namespace StakeLedger

namespace Hex

/-! ## Digits in either case -/

/-- What holds of the first 128 characters, one by one, holds of every character of ASCII. -/
theorem of_ascii {P : Char → Prop} (hall : ∀ n < 128, P (Char.ofNat n)) {c : Char}
    (hc : c.toNat < 128) : P c := by
  have h := hall c.toNat hc
  rwa [Char.ofNat_toNat] at h

/-- A character beyond ASCII is no digit. -/
theorem value?_of_not_ascii {c : Char} (h : 128 ≤ c.toNat) : value? c = none := by
  have hle (d : Char) (hd : d.toNat < 128) : ¬c ≤ d := by
    rw [Char.le_def, UInt32.le_iff_toNat_le]
    intro hcd
    exact absurd (Nat.lt_of_le_of_lt hcd hd) (Nat.not_lt.mpr h)
  rw [value?, if_neg, if_neg, if_neg]
  · exact fun hc => hle 'F' (by decide) hc.2
  · exact fun hc => hle 'f' (by decide) hc.2
  · exact fun hc => hle '9' (by decide) hc.2

/-- A character beyond ASCII has no other case here. -/
theorem toLower_of_not_ascii {c : Char} (h : 128 ≤ c.toNat) : c.toLower = c := by
  have hupper : ¬('A'.val ≤ c.val ∧ c.val ≤ 'Z'.val) := by
    rw [UInt32.le_iff_toNat_le (b := 'Z'.val)]
    intro hc
    exact absurd (Nat.le_trans h hc.2) (by decide)
  exact dif_neg hupper

/-- The value of a digit does not depend on its case. -/
theorem value?_toLower (c : Char) : value? c.toLower = value? c := by
  by_cases h : c.toNat < 128
  · exact of_ascii (P := fun c => value? c.toLower = value? c) (by decide) h
  · rw [toLower_of_not_ascii (Nat.not_lt.mp h)]

/-- Whether a character is a digit does not depend on its case either. -/
theorem isDigit_toLower (c : Char) : isDigit c.toLower = isDigit c := by
  rw [isDigit, isDigit, value?_toLower]

/-- A digit of either case is, in lower case, the one that its value is written with. -/
theorem value?_eq_some_iff (c : Char) (n : Nat) :
    value? c = some n ↔ n < 16 ∧ digit n = c.toLower := by
  constructor
  · intro hvalue
    by_cases h : c.toNat < 128
    · have hall : ∀ k < 128, ∀ n ∈ value? (Char.ofNat k),
          n < 16 ∧ digit n = (Char.ofNat k).toLower := by
        decide
      exact of_ascii (P := fun c => ∀ n ∈ value? c, n < 16 ∧ digit n = c.toLower) hall h n hvalue
    · rw [value?_of_not_ascii (Nat.not_lt.mp h)] at hvalue
      cases hvalue
  · intro h
    rcases h with ⟨hn, hdigit⟩
    rw [← value?_toLower, ← hdigit, value?_digit n hn]

/-- The digits of either case are the lower-case ones and those that are so in lower case. -/
theorem isDigit_iff_isLower (c : Char) : isDigit c = true ↔ isLower c.toLower = true := by
  simp only [isDigit, Option.isSome_iff_exists, value?_eq_some_iff, isLower_iff]

/-- The digits of either case. -/
theorem isDigit_iff_mem (c : Char) : isDigit c = true ↔ c ∈ "0123456789abcdefABCDEF".toList := by
  by_cases h : c.toNat < 128
  · have hall : ∀ k < 128, isDigit (Char.ofNat k) =
        "0123456789abcdefABCDEF".toList.contains (Char.ofNat k) := by
      decide +kernel
    have hc := of_ascii (P := fun c => isDigit c = List.contains _ c) hall h
    rw [hc, List.contains_iff_mem]
  · have hascii : ("0123456789abcdefABCDEF".toList.all fun d => d.toNat < 128) = true := by decide
    rw [isDigit, value?_of_not_ascii (Nat.not_lt.mp h)]
    constructor
    · exact nofun
    · intro hc
      exact absurd (of_decide_eq_true (List.all_eq_true.mp hascii c hc)) h

/-! ## Octets of texts in either case -/

/-- The octets of a text do not depend on its case. -/
theorem decode?_map_toLower (text : List Char) :
    decode? (text.map Char.toLower) = decode? text := by
  fun_induction decode? text with
  | case1 => rfl
  | case2 c => rfl
  | case3 high low rest ih =>
      rw [List.map_cons, List.map_cons, decode?, value?_toLower, value?_toLower, ih]

/-- Octets are written with what they were read from, in lower case. -/
theorem encode_of_decode? {text : List Char} {octets : Octets} (h : decode? text = some octets) :
    encode octets = text.map Char.toLower := by
  fun_induction decode? text generalizing octets with
  | case1 =>
      cases h
      rfl
  | case2 c => cases h
  | case3 high low rest ih =>
      simp only [Option.bind_eq_bind, Option.bind_eq_some_iff, Option.pure_def,
        Option.some.injEq, value?_eq_some_iff] at h
      rcases h with ⟨h, ⟨hh, hhigh⟩, l, ⟨hl, hlow⟩, others, hothers, rfl⟩
      rw [encode_cons_ofNat hh hl, hhigh, hlow, ih hothers, List.map_cons, List.map_cons]

/-- Octets are read from what they are written with, in either case. -/
theorem decode?_eq_some_iff (text : List Char) (octets : Octets) :
    decode? text = some octets ↔ encode octets = text.map Char.toLower := by
  constructor
  · exact encode_of_decode?
  · intro h
    rw [← decode?_map_toLower, ← h, decode?_encode]

/-- What is read consists of digits. -/
theorem isDigit_of_decode? {text : List Char} {octets : Octets} (h : decode? text = some octets)
    {c : Char} (hc : c ∈ text) : isDigit c = true := by
  have hlower : c.toLower ∈ encode octets := by
    rw [encode_of_decode? h]
    exact List.mem_map_of_mem hc
  rw [isDigit_iff_isLower]
  exact isLower_of_mem_encode hlower

/-! ## Texts of digits -/

/-- A text in lower case. -/
def lowered (text : String) : String :=
  String.ofList (text.toList.map Char.toLower)

/-- Texts that differ by the case of letters of ASCII alone. -/
def SameLetters (a b : String) : Prop :=
  lowered a = lowered b

/-- A text of so many hexadecimal digits of either case. -/
structure IsDigits (n : Nat) (text : String) : Prop where
  length : text.toList.length = n
  digits : ∀ c ∈ text.toList, c ∈ "0123456789abcdefABCDEF".toList

section

variable {a b : String}

/-- Texts with the same letters have the same characters in lower case. -/
theorem SameLetters.map_eq (h : SameLetters a b) :
    a.toList.map Char.toLower = b.toList.map Char.toLower :=
  String.ofList_inj.mp h

/-- Of texts with the same letters both are empty or neither is. -/
theorem SameLetters.eq_empty_iff (h : SameLetters a b) : a = "" ↔ b = "" := by
  rw [← String.toList_eq_nil_iff, ← String.toList_eq_nil_iff,
    ← List.map_eq_nil_iff (f := Char.toLower), h.map_eq, List.map_eq_nil_iff]

/-- Texts with the same letters are equally long. -/
theorem SameLetters.length_eq (h : SameLetters a b) : a.toList.length = b.toList.length := by
  have hlength := congrArg List.length h.map_eq
  rwa [List.length_map, List.length_map] at hlength

/-- Of texts with the same letters both consist of digits or neither does. -/
theorem SameLetters.all_isDigit (h : SameLetters a b) :
    a.toList.all isDigit = b.toList.all isDigit := by
  have hall (text : String) :
      (text.toList.map Char.toLower).all isDigit = text.toList.all isDigit := by
    rw [List.all_map]
    congr 1
    ext c
    rw [Function.comp, isDigit_toLower]
  rw [← hall a, h.map_eq, hall b]

/-- Texts with the same letters have the same octets. -/
theorem SameLetters.decode?_eq (h : SameLetters a b) : decode? a.toList = decode? b.toList := by
  rw [← decode?_map_toLower a.toList, h.map_eq, decode?_map_toLower]

end

/-- Digits, and nothing else, pass the test of every character. -/
theorem isDigits_iff_all (n : Nat) (text : String) :
    IsDigits n text ↔ text.toList.length = n ∧ text.toList.all isDigit = true := by
  rw [List.all_eq_true]
  constructor
  · intro h
    exact ⟨h.length, fun c hc => (isDigit_iff_mem c).mpr (h.digits c hc)⟩
  · intro h
    exact ⟨h.1, fun c hc => (isDigit_iff_mem c).mp (h.2 c hc)⟩

/-- Digits are what octets are read from, two for each. -/
theorem isDigits_iff_exists (n : Nat) (text : String) :
    IsDigits (2 * n) text ↔ ∃ octets, decode? text.toList = some octets ∧ octets.length = n := by
  constructor
  · intro h
    have hlower : ∀ c ∈ text.toList.map Char.toLower, isLower c = true := by
      intro c hc
      rcases List.mem_map.mp hc with ⟨d, hd, rfl⟩
      rw [← isDigit_iff_isLower, isDigit_iff_mem]
      exact h.digits d hd
    rcases exists_encode (by rw [List.length_map, h.length]) hlower with ⟨octets, hn, htext⟩
    exact ⟨octets, (decode?_eq_some_iff _ _).mpr htext, hn⟩
  · intro h
    rcases h with ⟨octets, hdecode, rfl⟩
    constructor
    · rw [← encode_length, encode_of_decode? hdecode, List.length_map]
    · intro c hc
      rw [← isDigit_iff_mem]
      exact isDigit_of_decode? hdecode hc

/-- The text of octets is the one that they were read from, in lower case. -/
theorem text_of_decode? {text : String} {octets : Octets}
    (h : decode? text.toList = some octets) : Hex.text octets = lowered text := by
  rw [Hex.text, encode_of_decode? h, lowered]

/-! ## Blanks between digits -/

/-- Whether a character is a blank of ASCII. -/
def isBlank (c : Char) : Bool :=
  " \t\n\x0b\x0c\r".toList.contains c

/-- The octets of a text of digit pairs with any blanks before, between and behind them. -/
def decodeSpaced? : List Char → Option Octets
  | [] => some []
  | [c] => if isBlank c then some [] else none
  | high :: low :: rest =>
      if isBlank high then decodeSpaced? (low :: rest)
      else do
        let h ← value? high
        let l ← value? low
        let octets ← decodeSpaced? rest
        return UInt8.ofNat (16 * h + l) :: octets

/-- A digit is not blank. -/
theorem isBlank_of_isDigit {c : Char} (h : isDigit c = true) : isBlank c = false := by
  have hdigits : ("0123456789abcdefABCDEF".toList.all fun d => !isBlank d) = true := by decide
  have hc := List.all_eq_true.mp hdigits c ((isDigit_iff_mem c).mp h)
  rwa [Bool.not_eq_true'] at hc

/-- Where there are digits only, it does not matter that blanks would be passed over. -/
theorem decodeSpaced?_of_isDigit {text : List Char} (h : ∀ c ∈ text, isDigit c = true) :
    decodeSpaced? text = decode? text := by
  fun_induction decode? text with
  | case1 => rfl
  | case2 c =>
      rw [decodeSpaced?, isBlank_of_isDigit (h c (List.mem_singleton_self c))]
      rfl
  | case3 high low rest ih =>
      rw [List.forall_mem_cons, List.forall_mem_cons] at h
      rw [decodeSpaced?, isBlank_of_isDigit h.1, ih h.2.2]
      rfl

/-- A text of digit pairs in lower case is written with the octets that are read from it. -/
theorem decodeSpaced?_lowered {n : Nat} {text : String} (h : IsDigits (2 * n) text) :
    (decodeSpaced? (lowered text).toList).map Hex.text = some (lowered text) := by
  rcases (isDigits_iff_exists n text).mp h with ⟨octets, hdecode, -⟩
  have hlower : decode? (text.toList.map Char.toLower) = some octets := by
    rw [decode?_map_toLower, hdecode]
  have hdigits : ∀ c ∈ text.toList.map Char.toLower, isDigit c = true := by
    intro c hc
    exact isDigit_of_decode? hlower hc
  rw [lowered, String.toList_ofList, decodeSpaced?_of_isDigit hdigits, hlower, Option.map_some,
    text_of_decode? hdecode, lowered]

/-! ## Readers -/

/-- What is promised of a reader of texts of so many digits: it takes them to lower case, refuses
all others, and does not tell texts with the same letters apart, not even when it refuses them. -/
structure Reads {ε : Type} (n : Nat) (read : String → Except ε String) : Prop where
  accepts : ∀ text, IsDigits n text → read text = .ok (lowered text)
  rejects : ∀ text, ¬IsDigits n text → ∃ fault, read text = .error fault
  recased : ∀ a b, SameLetters a b → read a = read b

end Hex

namespace PublicKey

/-- A key is tested for its digits first.  Then it is read, by which time blanks between its digits
could be allowed without any coming through, and then its octets are counted. -/
theorem parse_eq_steps (text : String) :
    parse text =
      if text = "" then .error .empty
      else if !text.toList.all Hex.isDigit then .error .notHex
      else
        match Hex.decodeSpaced? text.toList with
        | none => .error .notHex
        | some octets =>
            if octets.length = compressedLength then .ok octets
            else .error (.length octets.length) := by
  by_cases hdigits : text.toList.all Hex.isDigit = true
  · have hspaced := Hex.decodeSpaced?_of_isDigit (List.all_eq_true.mp hdigits)
    rw [parse, hdigits, hspaced]
    rfl
  · have hnone : Hex.decode? text.toList = none := by
      rw [Option.eq_none_iff_forall_ne_some]
      intro octets hdecode
      apply hdigits
      rw [List.all_eq_true]
      intro c hc
      exact Hex.isDigit_of_decode? hdecode hc
    rw [Bool.not_eq_true] at hdigits
    rw [parse, hnone, hdigits]
    rfl

/-- The octets of a key are those that sixty-six digits in lower case are written with. -/
theorem parse_eq_ok_iff_text (text : String) (octets : Octets) :
    parse text = .ok octets ↔ Hex.IsDigits 66 text ∧ Hex.text octets = Hex.lowered text := by
  rw [parse_eq_ok_iff]
  constructor
  · intro h
    exact ⟨(Hex.isDigits_iff_exists 33 text).mpr ⟨octets, h⟩, Hex.text_of_decode? h.1⟩
  · intro h
    have hencode : Hex.encode octets = text.toList.map Char.toLower := String.ofList_inj.mp h.2
    refine ⟨(Hex.decode?_eq_some_iff _ _).mpr hencode, ?_⟩
    have hlength := congrArg List.length hencode
    rw [Hex.encode_length, List.length_map, h.1.length] at hlength
    exact Nat.eq_of_mul_eq_mul_left Nat.two_pos hlength

/-- Keys are read from sixty-six digits. -/
theorem reads : Hex.Reads 66 normalize := by
  constructor
  · intro text hdigits
    rcases (Hex.isDigits_iff_exists 33 text).mp hdigits with ⟨octets, hdecode⟩
    rw [normalize, (parse_eq_ok_iff text octets).mpr hdecode]
    exact congrArg Except.ok (Hex.text_of_decode? hdecode.1)
  · intro text hforeign
    cases hparse : parse text with
    | error fault =>
        rw [normalize, hparse]
        exact ⟨fault, rfl⟩
    | ok octets =>
        apply absurd _ hforeign
        apply (Hex.isDigits_iff_exists 33 text).mpr
        exact ⟨octets, (parse_eq_ok_iff text octets).mp hparse⟩
  · intro a b hsame
    have hempty : (a = "") = (b = "") := propext hsame.eq_empty_iff
    simp only [normalize, parse, hempty, hsame.decode?_eq]

end PublicKey

namespace TxHash

/-- Hashes are read from sixty-four digits. -/
theorem reads : Hex.Reads 64 normalize := by
  constructor
  · intro text hdigits
    have hne : text ≠ "" := by
      rintro rfl
      exact absurd hdigits.length (by decide)
    rw [normalize, if_neg hne]
    exact if_pos ((Hex.isDigits_iff_all 64 text).mp hdigits)
  · intro text hforeign
    by_cases hempty : text = ""
    · exact ⟨.empty, if_pos hempty⟩
    · rw [Hex.isDigits_iff_all] at hforeign
      rw [normalize, if_neg hempty]
      exact ⟨.malformed, if_neg hforeign⟩
  · intro a b hsame
    have hempty : (a = "") = (b = "") := propext hsame.eq_empty_iff
    have hlowered : String.ofList (a.toList.map Char.toLower) =
        String.ofList (b.toList.map Char.toLower) := hsame
    simp only [normalize, hempty, hsame.length_eq, hsame.all_isDigit, hlowered]

end TxHash

end StakeLedger
