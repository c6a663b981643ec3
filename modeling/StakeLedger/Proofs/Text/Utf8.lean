import Mathlib.Data.List.Lex
import Mathlib.Data.Char
import StakeLedger.Text.Utf8

/-!
# Octets of characters read back

A character is written with one to four octets.  The octet reader takes the first
one as the promise of the others, whose bounds leave out what no character is
written with.

Main results:

- Theorem {lit}`Utf8.scanFrom_encodeChar`: the octets of a character are read as it.
- Theorem {lit}`Utf8.decode?_encode`: reading a written text gives the text back.
- Theorem {lit}`Utf8.encode_lt_encode_iff`: texts are ordered as their octets are.
-/

namespace StakeLedger.Utf8

/-- The number of an octet. -/
private theorem toNat_octet {n : Nat} (hn : n < 256) : (UInt8.ofNat n).toNat = n := by
  simp [Nat.mod_eq_of_lt hn]

/-! ## First octets -/

/-- A first octet of two promises one more. -/
theorem lead?_two {n : Nat} (hlow : 0x80 ≤ n) (hhigh : n < 0x800) :
    lead? (0xC0 + n / 64) = some ⟨1, 0x80, 0xBF, n / 64⟩ := by
  have hbits : 0xC0 + n / 64 - 0xC0 = n / 64 := by omega
  rw [lead?, if_neg (by omega), if_neg (by omega), if_pos (by omega), hbits]

/-- A first octet of three promises two more, and bounds the second so that
neither a shorter form nor a half of a surrogate pair is read. -/
theorem lead?_three {n : Nat} (hlow : 0x800 ≤ n) (hhigh : n < 0x10000)
    (hscalar : n < 0xD800 ∨ 0xDFFF < n) :
    ∃ low high, lead? (0xE0 + n / 4096) = some ⟨2, low, high, n / 4096⟩ ∧
      low ≤ 0x80 + n / 64 % 64 ∧ 0x80 + n / 64 % 64 ≤ high := by
  rw [lead?, if_neg (by omega), if_neg (by omega), if_neg (by omega)]
  by_cases hfirst : 0xE0 + n / 4096 = 0xE0
  · rw [if_pos hfirst]
    have hbits : n / 4096 = 0 := by omega
    exact ⟨0xA0, 0xBF, by rw [hbits], by omega, by omega⟩
  rw [if_neg hfirst]
  by_cases hlast : 0xE0 + n / 4096 = 0xED
  · rw [if_pos hlast]
    have hbits : n / 4096 = 0xD := by omega
    exact ⟨0x80, 0x9F, by rw [hbits], by omega, by omega⟩
  · rw [if_neg hlast, if_pos (by omega)]
    have hbits : 0xE0 + n / 4096 - 0xE0 = n / 4096 := by omega
    exact ⟨0x80, 0xBF, by rw [hbits], by omega, by omega⟩

/-- A first octet of four promises three more, and bounds the second so that
neither a shorter form nor a number above all characters is read. -/
theorem lead?_four {n : Nat} (hlow : 0x10000 ≤ n) (hhigh : n < 0x110000) :
    ∃ low high, lead? (0xF0 + n / 262144) = some ⟨3, low, high, n / 262144⟩ ∧
      low ≤ 0x80 + n / 4096 % 64 ∧ 0x80 + n / 4096 % 64 ≤ high := by
  rw [lead?, if_neg (by omega), if_neg (by omega), if_neg (by omega), if_neg (by omega),
    if_neg (by omega), if_neg (by omega)]
  by_cases hfirst : 0xF0 + n / 262144 = 0xF0
  · rw [if_pos hfirst]
    have hbits : n / 262144 = 0 := by omega
    exact ⟨0x90, 0xBF, by rw [hbits], by omega, by omega⟩
  rw [if_neg hfirst]
  by_cases hlast : 0xF0 + n / 262144 = 0xF4
  · rw [if_neg (by omega), if_pos hlast]
    have hbits : n / 262144 = 4 := by omega
    exact ⟨0x80, 0x8F, by rw [hbits], by omega, by omega⟩
  · rw [if_pos (by omega)]
    have hbits : 0xF0 + n / 262144 - 0xF0 = n / 262144 := by omega
    exact ⟨0x80, 0xBF, by rw [hbits], by omega, by omega⟩

/-! ## Whole characters -/

/-- A first octet that promises more is remembered. -/
theorem scanFrom_lead {b : Nat} (hb : b < 256) {p : Pending} (hp : lead? b = some p)
    (hmore : p.missing ≠ 0) (rest : Octets) :
    scanFrom none (UInt8.ofNat b :: rest) = scanFrom (some p) rest := by
  rw [scanFrom, step, start, toNat_octet hb, hp]
  simp [hmore]

/-- A promised octet that is not the last adds six bits. -/
theorem scanFrom_more {p : Pending} {b : Nat} (hb : b < 256) (hlow : p.low ≤ b)
    (hhigh : b ≤ p.high) (hmore : 1 < p.missing) (rest : Octets) :
    scanFrom (some p) (UInt8.ofNat b :: rest) =
      scanFrom (some ⟨p.missing - 1, 0x80, 0xBF, 64 * p.bits + b % 64⟩) rest := by
  rw [scanFrom, step, toNat_octet hb, if_pos ⟨hlow, hhigh⟩, if_neg (by omega)]
  rfl

/-- The last promised octet completes a character. -/
theorem scanFrom_last {p : Pending} {b : Nat} (hb : b < 256) (hlow : p.low ≤ b)
    (hhigh : b ≤ p.high) (hlast : p.missing = 1) (rest : Octets) :
    scanFrom (some p) (UInt8.ofNat b :: rest) =
      some (Char.ofNat (64 * p.bits + b % 64)) :: scanFrom none rest := by
  rw [scanFrom, step, toNat_octet hb, if_pos ⟨hlow, hhigh⟩, if_pos (by omega)]
  rfl

/-- The code of a character is none of a half of a surrogate pair. -/
theorem toNat_scalar (c : Char) :
    c.toNat < 0xD800 ∨ (0xDFFF < c.toNat ∧ c.toNat < 0x110000) :=
  c.valid

/-- The octets of a character are read as it. -/
theorem scanFrom_encodeChar (c : Char) (rest : Octets) :
    scanFrom none (encodeChar c ++ rest) = some c :: scanFrom none rest := by
  have hscalar := toNat_scalar c
  unfold encodeChar
  by_cases hone : c.toNat < 0x80
  · simp only [if_pos hone, List.cons_append, List.nil_append]
    rw [scanFrom, step, start, toNat_octet (by omega), lead?, if_pos hone]
    simp
  by_cases htwo : c.toNat < 0x800
  · simp only [if_neg hone, if_pos htwo, List.cons_append, List.nil_append]
    rw [scanFrom_lead (by omega) (lead?_two (by omega) htwo) (by simp),
      scanFrom_last (by omega) (by simp) (by simp only; omega) rfl]
    have hbits : 64 * (c.toNat / 64) + (0x80 + c.toNat % 64) % 64 = c.toNat := by omega
    rw [hbits, Char.ofNat_toNat]
  by_cases hthree : c.toNat < 0x10000
  · obtain ⟨low, high, hlead, hlow, hhigh⟩ :=
      lead?_three (n := c.toNat) (by omega) hthree (by omega)
    simp only [if_neg hone, if_neg htwo, if_pos hthree, List.cons_append, List.nil_append]
    rw [scanFrom_lead (by omega) hlead (by simp), scanFrom_more (by omega) hlow hhigh (by simp),
      scanFrom_last (by omega) (by simp) (by simp only; omega) rfl]
    have hbits : 64 * (64 * (c.toNat / 4096) + (0x80 + c.toNat / 64 % 64) % 64) +
        (0x80 + c.toNat % 64) % 64 = c.toNat := by omega
    rw [hbits, Char.ofNat_toNat]
  · obtain ⟨low, high, hlead, hlow, hhigh⟩ := lead?_four (n := c.toNat) (by omega) (by omega)
    simp only [if_neg hone, if_neg htwo, if_neg hthree, List.cons_append, List.nil_append]
    rw [scanFrom_lead (by omega) hlead (by simp), scanFrom_more (by omega) hlow hhigh (by simp),
      scanFrom_more (by omega) (by simp) (by simp only; omega) (by simp),
      scanFrom_last (by omega) (by simp) (by simp only; omega) rfl]
    have hbits : 64 * (64 * (64 * (c.toNat / 262144) + (0x80 + c.toNat / 4096 % 64) % 64) +
        (0x80 + c.toNat / 64 % 64) % 64) + (0x80 + c.toNat % 64) % 64 = c.toNat := by omega
    rw [hbits, Char.ofNat_toNat]

/-- A written text is read without gaps. -/
theorem scan_encode (text : List Char) : scan (encode text) = text.map some := by
  unfold scan encode
  induction text with
  | nil => rfl
  | cons c rest ih => rw [List.flatMap_cons, scanFrom_encodeChar, ih, List.map_cons]

/-- Reading a written text gives the text back. -/
theorem decode?_encode (text : List Char) : decode? (encode text) = some text := by
  rw [decode?, scan_encode]
  induction text with
  | nil => rfl
  | cons c rest ih => simp [ih]

/-! ## The order of octets -/

/-- Two strings of octets with a first difference, where the octet of the first
one is the smaller. -/
inductive Below : Octets → Octets → Prop where
  | head {a b : UInt8} (h : a < b) (xs ys : Octets) : Below (a :: xs) (b :: ys)
  | tail (a : UInt8) {xs ys : Octets} (h : Below xs ys) : Below (a :: xs) (a :: ys)

/-- A first difference decides, whatever follows. -/
theorem Below.append_lt_append {xs ys : Octets} (h : Below xs ys) (us vs : Octets) :
    xs ++ us < ys ++ vs := by
  induction h with
  | head h xs ys => exact List.cons_lt_cons_iff.mpr (Or.inl h)
  | tail a _ ih => exact List.cons_lt_cons_iff.mpr (Or.inr ⟨rfl, ih⟩)

/-- Octets of smaller numbers come first. -/
private theorem Below.ofNat {m n : Nat} (h : m < n) (hn : n < 256) (xs ys : Octets) :
    Below (UInt8.ofNat m :: xs) (UInt8.ofNat n :: ys) := by
  refine Below.head ?_ xs ys
  rw [UInt8.lt_iff_toNat_lt, toNat_octet hn, toNat_octet (by omega)]
  exact h

/-- Either the octet of a higher digit is the smaller, or it is the same and the
difference comes later. -/
private theorem Below.digit {m n : Nat} (h : m ≤ n) (hn : n < 256) {xs ys : Octets}
    (hrest : m = n → Below xs ys) : Below (UInt8.ofNat m :: xs) (UInt8.ofNat n :: ys) := by
  rcases Nat.lt_or_eq_of_le h with hlt | rfl
  · exact Below.ofNat hlt hn xs ys
  · exact Below.tail _ (hrest rfl)

/-- The octets of a smaller character are below those of a greater one.  The
number of octets grows with the character, and so do the first octets. -/
theorem encodeChar_below {c d : Char} (h : c.toNat < d.toNat) :
    Below (encodeChar c) (encodeChar d) := by
  have hd := toNat_scalar d
  unfold encodeChar
  by_cases hcone : c.toNat < 0x80
  · simp only [if_pos hcone]
    split
    · exact Below.ofNat h (by omega) _ _
    split
    · exact Below.ofNat (by omega) (by omega) _ _
    split
    · exact Below.ofNat (by omega) (by omega) _ _
    · exact Below.ofNat (by omega) (by omega) _ _
  by_cases hctwo : c.toNat < 0x800
  · simp only [if_neg hcone, if_pos hctwo, if_neg (show ¬d.toNat < 0x80 by omega)]
    split
    · refine Below.digit (by omega) (by omega) fun hfirst => ?_
      exact Below.ofNat (by omega) (by omega) _ _
    split
    · exact Below.ofNat (by omega) (by omega) _ _
    · exact Below.ofNat (by omega) (by omega) _ _
  by_cases hcthree : c.toNat < 0x10000
  · simp only [if_neg hcone, if_neg hctwo, if_pos hcthree, if_neg (show ¬d.toNat < 0x80 by omega),
      if_neg (show ¬d.toNat < 0x800 by omega)]
    split
    · refine Below.digit (by omega) (by omega) fun hfirst => ?_
      refine Below.digit (by omega) (by omega) fun hsecond => ?_
      exact Below.ofNat (by omega) (by omega) _ _
    · exact Below.ofNat (by omega) (by omega) _ _
  · simp only [if_neg hcone, if_neg hctwo, if_neg hcthree,
      if_neg (show ¬d.toNat < 0x80 by omega), if_neg (show ¬d.toNat < 0x800 by omega),
      if_neg (show ¬d.toNat < 0x10000 by omega)]
    refine Below.digit (by omega) (by omega) fun hfirst => ?_
    refine Below.digit (by omega) (by omega) fun hsecond => ?_
    refine Below.digit (by omega) (by omega) fun hthird => ?_
    exact Below.ofNat (by omega) (by omega) _ _

/-- A character has some octets. -/
theorem encodeChar_ne_nil (c : Char) : encodeChar c ≠ [] := by
  unfold encodeChar
  simp only
  split
  · simp
  split
  · simp
  split <;> simp

/-- The octets of a smaller text are smaller. -/
theorem encode_lt_encode {xs ys : List Char} (h : xs < ys) : encode xs < encode ys := by
  unfold encode
  induction h with
  | @nil d ys =>
      obtain ⟨a, rest, ha⟩ := List.exists_cons_of_ne_nil (encodeChar_ne_nil d)
      rw [List.flatMap_nil, List.flatMap_cons, ha]
      exact List.Lex.nil
  | rel hcd =>
      rw [List.flatMap_cons, List.flatMap_cons]
      exact (encodeChar_below hcd).append_lt_append _ _
  | @cons c xs ys _ ih =>
      rw [List.flatMap_cons, List.flatMap_cons]
      exact List.append_left_lt ih

/-- Texts are ordered as their octets are. -/
theorem encode_lt_encode_iff (xs ys : List Char) : encode xs < encode ys ↔ xs < ys := by
  constructor
  · intro h
    by_contra hnot
    rcases lt_or_eq_of_le (not_lt.mp hnot) with hgt | rfl
    · exact List.lt_asymm h (encode_lt_encode hgt)
    · exact List.lt_irrefl _ h
  · exact encode_lt_encode

end StakeLedger.Utf8
