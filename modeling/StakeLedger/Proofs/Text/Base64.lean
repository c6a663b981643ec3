import StakeLedger.Text.Base64

/-!
# Base64 text reads back

Three octets become four digits, and one or two octets at the end become two or
three digits with padding.  The lenient reader gives the octets back in all three
cases.

Main definitions:

- {lit}`Base64.Padded`: a text of URL-safe digits in groups of four, padded at its end.

Main results:

- Theorem {lit}`Base64.decode?_encode`: reading a written text gives the octets back.
- Theorem {lit}`Base64.mem_encode`: written text is made of digits and padding marks.
- Theorem {lit}`Base64.padded_encode`: written text comes in padded groups of four.
-/

namespace StakeLedger.Base64

/-- A written digit reads back as its value. -/
theorem value?_digit : ∀ n, n < 64 → value? (digit n) = some n := by
  decide

/-- No digit is a padding mark. -/
theorem digit_ne_pad : ∀ n, n < 64 → digit n ≠ '=' := by
  decide

/-- Reading a digit after an open group of less than three values. -/
theorem decodeFrom_digit {group : List Nat} (hgroup : group.length < 3) {n : Nat} (hn : n < 64)
    (rest : List Char) :
    decodeFrom group 0 (digit n :: rest) = decodeFrom (group ++ [n]) 0 rest := by
  match group, hgroup with
  | [], _ => simp [decodeFrom, digit_ne_pad n hn, value?_digit n hn]
  | [a], _ => simp [decodeFrom, digit_ne_pad n hn, value?_digit n hn]
  | [a, b], _ => simp [decodeFrom, digit_ne_pad n hn, value?_digit n hn]

/-- Reading a whole group of four digits. -/
theorem decodeFrom_group {a b c d : Nat} (ha : a < 64) (hb : b < 64) (hc : c < 64) (hd : d < 64)
    (rest : List Char) :
    decodeFrom [] 0 (digit a :: digit b :: digit c :: digit d :: rest) =
      (decodeFrom [] 0 rest).map fun octets =>
        UInt8.ofNat (a * 4 + b / 16) :: UInt8.ofNat (b % 16 * 16 + c / 4) ::
          UInt8.ofNat (c % 4 * 64 + d) :: octets := by
  rw [decodeFrom_digit (by simp) ha, decodeFrom_digit (by simp) hb, decodeFrom_digit (by simp) hc]
  simp only [List.nil_append, List.cons_append, decodeFrom, digit_ne_pad d hd, value?_digit d hd,
    close, if_false]
  cases decodeFrom [] 0 rest <;> rfl

/-- Reading two digits and padding. -/
theorem decodeFrom_two {a b : Nat} (ha : a < 64) (hb : b < 64) :
    decodeFrom [] 0 [digit a, digit b, '=', '='] = some [UInt8.ofNat (a * 4 + b / 16)] := by
  rw [decodeFrom_digit (by simp) ha, decodeFrom_digit (by simp) hb]
  simp [decodeFrom, close]

/-- Reading three digits and padding. -/
theorem decodeFrom_three {a b c : Nat} (ha : a < 64) (hb : b < 64) (hc : c < 64) :
    decodeFrom [] 0 [digit a, digit b, digit c, '='] =
      some [UInt8.ofNat (a * 4 + b / 16), UInt8.ofNat (b % 16 * 16 + c / 4)] := by
  rw [decodeFrom_digit (by simp) ha, decodeFrom_digit (by simp) hb, decodeFrom_digit (by simp) hc]
  simp [decodeFrom, close]

/-- An octet is given back by its number. -/
private theorem ofNat_eq {n : Nat} {b : UInt8} (h : n = b.toNat) : UInt8.ofNat n = b := by
  rw [h, UInt8.ofNat_toNat]

/-- Reading a written text gives the octets back. -/
theorem decode?_encode (octets : Octets) : decode? (encode octets) = some octets := by
  unfold decode?
  fun_induction encode octets with
  | case1 => rfl
  | case2 a n =>
      have ha := a.toNat_lt
      rw [decodeFrom_two (by omega) (by omega), ofNat_eq (b := a) (by omega)]
  | case3 a b n =>
      have ha := a.toNat_lt
      have hb := b.toNat_lt
      rw [decodeFrom_three (by omega) (by omega) (by omega), ofNat_eq (b := a) (by omega),
        ofNat_eq (b := b) (by omega)]
  | case4 a b c rest n ih =>
      have ha := a.toNat_lt
      have hb := b.toNat_lt
      have hc := c.toNat_lt
      rw [decodeFrom_group (by omega) (by omega) (by omega) (by omega), ih,
        ofNat_eq (b := a) (by omega), ofNat_eq (b := b) (by omega), ofNat_eq (b := c) (by omega)]
      rfl

/-- Written text is made of digits and padding marks. -/
theorem mem_encode {octets : Octets} {c : Char} (hc : c ∈ encode octets) :
    (∃ n, n < 64 ∧ c = digit n) ∨ c = '=' := by
  fun_induction encode octets with
  | case1 => simp at hc
  | case2 a n =>
      have ha := a.toNat_lt
      simp only [List.mem_cons, List.not_mem_nil, or_false] at hc
      rcases hc with hc | hc | hc | hc
      · exact Or.inl ⟨_, by omega, hc⟩
      · exact Or.inl ⟨_, by omega, hc⟩
      · exact Or.inr hc
      · exact Or.inr hc
  | case3 a b n =>
      have ha := a.toNat_lt
      have hb := b.toNat_lt
      simp only [List.mem_cons, List.not_mem_nil, or_false] at hc
      rcases hc with hc | hc | hc | hc
      · exact Or.inl ⟨_, by omega, hc⟩
      · exact Or.inl ⟨_, by omega, hc⟩
      · exact Or.inl ⟨_, by omega, hc⟩
      · exact Or.inr hc
  | case4 a b c rest n ih =>
      have ha := a.toNat_lt
      have hb := b.toNat_lt
      have hlast := c.toNat_lt
      simp only [List.mem_cons] at hc
      rcases hc with hc | hc | hc | hc | hc
      · exact Or.inl ⟨_, by omega, hc⟩
      · exact Or.inl ⟨_, by omega, hc⟩
      · exact Or.inl ⟨_, by omega, hc⟩
      · exact Or.inl ⟨_, by omega, hc⟩
      · exact ih hc

/-- Digits are ASCII. -/
private theorem toNat_digit_le : ∀ n, n < 64 → (digit n).toNat ≤ 127 := by
  decide

/-- Written text is ASCII. -/
theorem toNat_le_of_mem_encode {octets : Octets} {c : Char} (hc : c ∈ encode octets) :
    c.toNat ≤ 127 := by
  rcases mem_encode hc with ⟨n, hn, rfl⟩ | rfl
  · exact toNat_digit_le n hn
  · decide

/-- Some octets have some text. -/
theorem encode_ne_nil {octets : Octets} (h : octets ≠ []) : encode octets ≠ [] := by
  match octets, h with
  | [a], _ => simp [encode]
  | [a, b], _ => simp [encode]
  | a :: b :: c :: rest, _ => simp [encode]

/-! ## The shape of written text -/

/-- The digits of the URL-safe alphabet. -/
def isDigit (c : Char) : Bool :=
  c.isAlphanum || c == '-' || c == '_'

/-- A text of URL-safe digits in groups of four, where at most two padding marks
fill the last group. -/
structure Padded (text : List Char) : Prop where
  length : 4 ∣ text.length
  digits : ∃ ds pads, text = ds ++ List.replicate pads '=' ∧ pads ≤ 2 ∧
    ∀ c ∈ ds, isDigit c = true

/-- The digit of a value is a URL-safe one. -/
theorem isDigit_digit : ∀ n, n < 64 → isDigit (digit n) = true := by
  decide

/-- A group of digits before a padded text. -/
theorem Padded.cons_group {text : List Char} (h : Padded text) {a b c d : Nat} (ha : a < 64)
    (hb : b < 64) (hc : c < 64) (hd : d < 64) :
    Padded (digit a :: digit b :: digit c :: digit d :: text) := by
  obtain ⟨hlength, ds, pads, rfl, hpads, hdigits⟩ := h
  refine ⟨?_, digit a :: digit b :: digit c :: digit d :: ds, pads, rfl, hpads, ?_⟩
  · rw [List.length_cons, List.length_cons, List.length_cons, List.length_cons]
    omega
  · simpa [isDigit_digit, ha, hb, hc, hd] using hdigits

/-- Written text comes in groups of four digits, and is padded where octets are
missing in the last group. -/
theorem padded_encode (octets : Octets) : Padded (encode octets) := by
  fun_induction encode octets with
  | case1 => exact ⟨by simp, [], 0, rfl, by omega, by simp⟩
  | case2 a n =>
      have ha := a.toNat_lt
      refine ⟨by simp, [digit (n / 64), digit (n % 64)], 2, rfl, by omega, ?_⟩
      intro c hc
      simp only [List.mem_cons, List.not_mem_nil, or_false] at hc
      rcases hc with rfl | rfl
      · exact isDigit_digit _ (by omega)
      · exact isDigit_digit _ (by omega)
  | case3 a b n =>
      have ha := a.toNat_lt
      have hb := b.toNat_lt
      refine ⟨by simp, [digit (n / 4096), digit (n / 64 % 64), digit (n % 64)], 1, rfl,
        by omega, ?_⟩
      intro c hc
      simp only [List.mem_cons, List.not_mem_nil, or_false] at hc
      rcases hc with rfl | rfl | rfl
      · exact isDigit_digit _ (by omega)
      · exact isDigit_digit _ (by omega)
      · exact isDigit_digit _ (by omega)
  | case4 a b c rest n ih =>
      have ha := a.toNat_lt
      have hb := b.toNat_lt
      have hc := c.toNat_lt
      exact ih.cons_group (by omega) (by omega) (by omega) (by omega)

end StakeLedger.Base64
