import StakeLedger.Proofs.Decimal.Layout
import StakeLedger.Yaml.Scalar.Value
import StakeLedger.Yaml.Section

/-!
# Written numbers in YAML

A number that stands plainly in a document shows by its form that it is a whole number
or one with a point, and its value is the number that was written.

Main definitions:

- {lit}`Yaml.numeric`: the characters that finite numbers are written with.

Main results:

- Theorem {lit}`Yaml.ofPlain_int`, {lit}`Yaml.intOf_int`: whole numbers.
- Theorem {lit}`Yaml.ofPlain_write`, {lit}`Yaml.realOf_write`: doubles.
-/

namespace StakeLedger

/-! ## Characters of numbers -/

/-- The characters that finite numbers are written with. -/
def Yaml.numeric : List Char :=
  "0123456789.e+-".toList

open Yaml (numeric)

/-- The digits are those from zero to nine. -/
theorem Numeral.mem_digits {c : Char} (h : isDigit c = true) : c ∈ "0123456789".toList := by
  simp only [isDigit, Bool.and_eq_true, decide_eq_true_eq, Char.le_def, UInt32.le_iff_toNat_le] at h
  have hall : ∀ n, 48 ≤ n → n < 58 → Char.ofNat n ∈ "0123456789".toList := by decide
  have hc := hall c.toNat h.1 (Nat.lt_succ_of_le h.2)
  rwa [Char.ofNat_toNat] at hc

/-- What holds from zero to nine holds of every digit. -/
@[elab_as_elim]
theorem Numeral.of_digits {motive : Char → Prop} [DecidablePred motive] (c : Char)
    (h : isDigit c = true) (hall : ("0123456789".toList.all fun c => motive c) = true) : motive c :=
  List.all_iff_forall_prop.mp hall c (mem_digits h)

/-- Digits are among them. -/
theorem Numeral.mem_numeric {c : Char} (h : isDigit c = true) : c ∈ numeric :=
  of_digits c h (by decide)

/-- Trimming leaves a text without blanks as it is. -/
theorem Blank.trim_eq_self {blank : Char → Bool} {text : List Char}
    (h : ∀ c ∈ text, blank c = false) : trim blank text = text := by
  have hnone {xs : List Char} (hxs : ∀ c ∈ xs, blank c = false) : xs.dropWhile blank = xs := by
    cases xs with
    | nil => rfl
    | cons c rest => simp [hxs c List.mem_cons_self]
  rw [trim, hnone h, hnone, List.reverse_reverse]
  simpa using h

/-- A text of these characters has nothing loose about it. -/
theorem Loose.plain_eq_self {text : List Char} (h : ∀ c ∈ text, c ∈ numeric) :
    plain text = text := by
  have hdigits : ∀ c ∈ numeric, plainDigit c = c := List.all_iff_forall_prop.mp (by decide)
  have hblanks : ∀ c ∈ numeric, Blank.isSpace c = false := List.all_iff_forall_prop.mp (by decide)
  rw [plain, Blank.trim_eq_self fun c hc => hblanks c (h c hc)]
  conv_rhs => rw [← List.map_id text]
  exact List.map_congr_left fun c hc => hdigits c (h c hc)

/-- Such a text is in lower case. -/
theorem Case.lower_eq_self {text : List Char} (h : ∀ c ∈ text, c ∈ numeric) :
    lower (String.ofList text) = String.ofList text := by
  have hlower : ∀ c ∈ numeric, c.toNat < 0x80 ∧ c.toLower = c :=
    List.all_iff_forall_prop.mp (by decide)
  rw [lower_of_ascii fun c hc => (hlower c (h c hc)).1]
  apply congrArg
  conv_rhs => rw [← List.map_id text]
  exact List.map_congr_left fun c hc => (hlower c (h c hc)).2

/-- Such a text has no underscore that could be left out. -/
theorem Numeral.join?_eq_self {text : List Char} (h : ∀ c ∈ text, c ∈ numeric)
    (afterDigit : Bool) : join? afterDigit text = some text := by
  have hplain : ∀ c ∈ numeric, c ≠ '_' := List.all_iff_forall_prop.mp (by decide)
  induction text generalizing afterDigit with
  | nil => rfl
  | cons c rest ih =>
      rw [join?, if_neg (hplain c (h c List.mem_cons_self)),
        ih fun d hd => h d (List.mem_cons_of_mem c hd)]
      rfl

namespace Yaml

/-- Such a text has no underscores. -/
theorem ungrouped_eq_self {text : String} (h : ∀ c ∈ text.toList, c ∈ numeric) :
    ungrouped text = text.toList := by
  have hplain : ∀ c ∈ numeric, c ≠ '_' := List.all_iff_forall_prop.mp (by decide)
  rw [ungrouped, List.filter_eq_self]
  exact fun c hc => decide_eq_true (hplain c (h c hc))

/-! ## Whole numbers -/

/-- The digits of a number other than zero are a first one that is not zero, and others. -/
theorem toDigits_eq_cons {n : Nat} (hn : 0 < n) :
    ∃ c rest, Nat.toDigits 10 n = c :: rest ∧ Numeral.isDigit c = true ∧ c ≠ '0' ∧
      ∀ d ∈ rest, Numeral.isDigit d = true := by
  obtain ⟨c, rest, hdigits⟩ := List.exists_cons_of_ne_nil (Nat.toDigits_ne_nil (n := n) (b := 10))
  have hall : ∀ d ∈ c :: rest, Numeral.isDigit d = true := by
    rw [← hdigits]
    exact fun d hd => Numeral.isDigit_of_mem_toDigits hd
  rw [List.forall_mem_cons] at hall
  refine ⟨c, rest, hdigits, hall.1, ?_, hall.2⟩
  rintro rfl
  exact Numeral.head?_toDigits_ne hn (by rw [hdigits]; rfl)

/-- The text of a whole number is its digits after a sign if it is negative. -/
theorem toList_toString (n : Int) :
    (toString n).toList = (if n < 0 then ['-'] else []) ++ Nat.toDigits 10 n.natAbs := by
  cases n with
  | ofNat m => simp [toString, Int.repr, Nat.repr]
  | negSucc m => simp [toString, Int.repr, Nat.repr, Int.negSucc_lt_zero]

/-- A digit is neither a sign nor a point. -/
theorem ne_sign_of_isDigit {c : Char} (h : Numeral.isDigit c = true) :
    c ≠ '-' ∧ c ≠ '+' ∧ c ≠ '.' :=
  Numeral.of_digits c h (by decide)

/-- A digit has its value in base ten. -/
theorem digit?_eq {c : Char} (h : Numeral.isDigit c = true) :
    Loose.digit? 10 c = some (c.toNat - 48) :=
  Numeral.of_digits c h (by decide)

/-- Digits are read one by one. -/
theorem digits?_eq {digits : List Char} (hne : digits ≠ [])
    (hdigits : ∀ c ∈ digits, Numeral.isDigit c = true) :
    Loose.digits? 10 digits = some (digits.map fun c => c.toNat - 48, []) := by
  induction digits with
  | nil => exact absurd rfl hne
  | cons c rest ih =>
      rw [List.forall_mem_cons] at hdigits
      have hc := digit?_eq hdigits.1
      cases rest with
      | nil => simp [Loose.digits?, hc]
      | cons d others =>
          have hd : d ≠ '_' := by
            rintro rfl
            exact absurd (hdigits.2 '_' List.mem_cons_self) (by decide)
          have hnext := digit?_eq (hdigits.2 d List.mem_cons_self)
          have hrest := ih (List.cons_ne_nil _ _) hdigits.2
          simp [Loose.digits?, hc, hd, hnext, hrest]

/-- What was read one by one makes up the value. -/
theorem foldl_map_digits {digits : List Char}
    (hdigits : ∀ c ∈ digits, Numeral.isDigit c = true) :
    (digits.map fun c => c.toNat - 48).foldl (fun n d => 10 * n + d) 0 =
      Numeral.value digits := by
  rw [List.foldl_map, Numeral.value, Numeral.valueIn]
  generalize 0 = n
  induction digits generalizing n with
  | nil => rfl
  | cons c rest ih =>
      rw [List.forall_mem_cons] at hdigits
      rw [List.foldl_cons, List.foldl_cons, ih hdigits.2]
      simp [hdigits.1]

/-- A whole number without sign in base ten, if it has no more digits than are read. -/
theorem magnitudeOf_toDigits {n : Nat} (hshort : (Nat.toDigits 10 n).length ≤ Numeral.mostDigits) :
    magnitudeOf (Nat.toDigits 10 n) = .ok n := by
  have hdigits : ∀ c ∈ Nat.toDigits 10 n, Numeral.isDigit c = true := fun c hc =>
    Numeral.isDigit_of_mem_toDigits hc
  have hplain : Loose.plain (Nat.toDigits 10 n) = Nat.toDigits 10 n :=
    Loose.plain_eq_self fun c hc => Numeral.mem_numeric (hdigits c hc)
  have hread := digits?_eq Nat.toDigits_ne_nil hdigits
  have hvalue := foldl_map_digits hdigits
  rw [Numeral.value_toDigits] at hvalue
  rcases Nat.eq_zero_or_pos n with rfl | hn
  · rfl
  obtain ⟨c, rest, heq, hc, hzero, hrest⟩ := toDigits_eq_cons hn
  rw [heq] at hplain hread hvalue ⊢
  have hsign : Numeral.sign (c :: rest) = (false, c :: rest) := by
    obtain ⟨hminus, hplus, -⟩ := ne_sign_of_isDigit hc
    simp [Numeral.sign, hminus, hplus]
  have hcolon : ':' ∉ c :: rest := by
    intro hmem
    rw [← heq] at hmem
    exact absurd (hdigits ':' hmem) (by decide)
  have hletter : Loose.withoutLetter 10 (c :: rest) = c :: rest := by
    simp [Loose.withoutLetter, hzero]
  have hlimit : ¬Numeral.mostDigits < ((c :: rest).map fun c => c.toNat - 48).length := by
    rw [List.length_map, ← heq]
    exact not_lt.mpr hshort
  have hint : Loose.read 10 (c :: rest) = .ok n := by
    simp only [Loose.read, hplain, hsign, hletter, hread, hlimit, hvalue, and_false, if_false,
      ne_eq, not_true_eq_false, Bool.false_eq_true]
  simp [magnitudeOf, hzero, hcolon, intIn, hint]

/-- A written whole number has digits, and a sign if it is negative. -/
theorem mem_toString {n : Int} {c : Char} (h : c ∈ (toString n).toList) :
    c = '-' ∨ Numeral.isDigit c = true := by
  rw [toList_toString, List.mem_append] at h
  rcases h with hsign | hdigit
  · by_cases hn : n < 0
    · simp only [hn, if_true, List.mem_singleton] at hsign
      exact Or.inl hsign
    · simp [hn] at hsign
  · exact Or.inr (Numeral.isDigit_of_mem_toDigits hdigit)

/-- So its characters are those of numbers. -/
theorem mem_numeric_of_int (n : Int) : ∀ c ∈ (toString n).toList, c ∈ numeric := by
  intro c hc
  rcases mem_toString hc with rfl | hdigit
  · decide
  · exact Numeral.mem_numeric hdigit

/-- A written whole number is read as itself. -/
theorem intOf_int {n : Int} (h : Numeral.IsShort n) : intOf (toString n) = .ok n := by
  have hmagnitude := magnitudeOf_toDigits h
  rw [intOf, ungrouped_eq_self (mem_numeric_of_int n), toList_toString]
  by_cases hn : n < 0
  · have habs : -(n.natAbs : Int) = n := by omega
    rw [if_pos hn, List.singleton_append]
    simp only [hmagnitude, Except.map, habs]
  · have habs : (n.natAbs : Int) = n := by omega
    obtain ⟨c, rest, heq⟩ :=
      List.exists_cons_of_ne_nil (Nat.toDigits_ne_nil (n := n.natAbs) (b := 10))
    have hc : Numeral.isDigit c = true :=
      Numeral.isDigit_of_mem_toDigits (heq ▸ List.mem_cons_self)
    obtain ⟨hminus, hplus, -⟩ := ne_sign_of_isDigit hc
    rw [heq, habs] at hmagnitude
    simp [hn, heq, hminus, hplus, hmagnitude]

/-- A text without sign is the same behind it. -/
theorem unsigned_of_isDigit {sign : List Char} (hsign : sign = [] ∨ sign = ['-']) {c : Char}
    (h : Numeral.isDigit c = true) (rest : List Char) :
    unsigned (sign ++ c :: rest) = c :: rest := by
  obtain ⟨hminus, hplus, -⟩ := ne_sign_of_isDigit h
  rcases hsign with rfl | rfl
  · simp [unsigned, hminus, hplus]
  · rfl

/-- A written whole number is no word. -/
theorem not_truth_int (n : Int) :
    truthForms.contains (String.ofList (toString n).toList) = false := by
  have hword : ∀ w ∈ truthForms,
      w.toList.any (fun c => c ≠ '-' && !Numeral.isDigit c) = true := by decide
  rw [String.ofList_toList, List.contains_eq_mem, decide_eq_false_iff_not]
  intro hmem
  obtain ⟨d, hd, hother⟩ := List.any_eq_true.mp (hword _ hmem)
  simp only [ne_eq, decide_not, Bool.and_eq_true, Bool.not_eq_true', decide_eq_false_iff_not]
    at hother
  rcases mem_toString hd with heq | hdigit
  · exact hother.1 heq
  · rw [hdigit] at hother
    cases hother.2

/-- The digits of a number are those behind its sign. -/
theorem unsigned_int (n : Int) : unsigned (toString n).toList = Nat.toDigits 10 n.natAbs := by
  obtain ⟨c, rest, heq⟩ :=
    List.exists_cons_of_ne_nil (Nat.toDigits_ne_nil (n := n.natAbs) (b := 10))
  have hdigit : Numeral.isDigit c = true :=
    Numeral.isDigit_of_mem_toDigits (heq ▸ List.mem_cons_self)
  rw [toList_toString, heq]
  exact unsigned_of_isDigit (by split <;> simp) hdigit rest

/-- A written whole number has no point. -/
theorem isReal_int (n : Int) : isReal (toString n).toList = false := by
  have htake : (Nat.toDigits 10 n.natAbs).takeWhile (· ≠ '.') = Nat.toDigits 10 n.natAbs := by
    rw [List.takeWhile_eq_self_iff]
    exact fun d hd =>
      decide_eq_true (ne_sign_of_isDigit (Numeral.isDigit_of_mem_toDigits hd)).2.2
  rw [isReal, unsigned_int]
  simp only [htake, List.drop_length]

/-- Its digits are those of a whole number. -/
theorem isInt_int (n : Int) : isInt (toString n).toList = true := by
  rcases Nat.eq_zero_or_pos n.natAbs with hzero | hpos
  · rw [Int.natAbs_eq_zero.mp hzero]
    decide
  · obtain ⟨c, rest, heq, hc, hne, hrest⟩ := toDigits_eq_cons hpos
    have hpositive : c = '0' ∨ isPositive c = true := Numeral.of_digits c hc (by decide)
    have hgrouped : rest.all isGrouped = true := by
      rw [List.all_eq_true]
      intro d hd
      rw [isGrouped, ← Numeral.isDigit_eq, hrest d hd, Bool.true_or]
    rw [isInt, unsigned_int, heq]
    simp [hne, hpositive.resolve_left hne, hgrouped]

/-- A written whole number has the form of one. -/
theorem ofPlain_int (n : Int) : Kind.ofPlain (toString n).toList = .int := by
  rw [Kind.ofPlain, not_truth_int, isReal_int, isInt_int]
  rfl

/-! ## Doubles -/

/-- A finite double is written as its sign and a decimal that reads back as its magnitude. -/
theorem exists_write_finite (negative : Bool) {m : Nat} {e : Int}
    (h : Binary64.Canonical m e) :
    ∃ body, Layout.yaml.write (.finite negative m e h) =
        (if negative then ['-'] else []) ++ body ∧
      ∃ d : Decimal, d.ReadsBack m e ∧ Numeral.Pointed body d.value := by
  by_cases hm : m = 0
  · have hvalue : Decimal.value ⟨Numeral.value "00".toList, 0 - 1⟩ = m * 2 ^ e := by
      have hdigits : Numeral.value "00".toList = 0 := by decide
      rw [Decimal.value, hdigits, hm, Nat.cast_zero, zero_mul, zero_mul]
    refine ⟨['0', '.', '0'], ?_, _, Binary64.readsBack_of_value h hvalue, ?_⟩
    · rw [Layout.write, if_pos hm]
    · have hdigits : ∀ c ∈ ['0', '0'], Numeral.isDigit c = true :=
        List.all_iff_forall_prop.mp (by decide)
      exact ⟨['0'], ['0'], [], 0, rfl, by simp, by simp, hdigits, .none, rfl⟩
  · refine ⟨Layout.yaml.writeDecimal (Binary64.shortest m e), ?_, Binary64.shortest m e,
      Binary64.readsBack_shortest h, Layout.pointed_writeDecimal rfl _⟩
    rw [Layout.write, if_neg hm]

/-- A decimal with a point is written with the characters of numbers. -/
theorem mem_numeric_of_pointed {text : List Char} {x : ℚ} (h : Numeral.Pointed text x) {c : Char}
    (hc : c ∈ text) : c ∈ numeric := by
  obtain ⟨whole, fraction, tail, n, rfl, -, -, hdigits, htail, -⟩ := h
  have hdigit {c : Char} (hc : c ∈ whole ++ fraction) : c ∈ numeric :=
    Numeral.mem_numeric (hdigits c hc)
  simp only [List.mem_append, List.mem_cons] at hc hdigit
  rcases hc with hwhole | rfl | hfraction | hexponent
  · exact hdigit (Or.inl hwhole)
  · decide
  · exact hdigit (Or.inr hfraction)
  · cases htail with
    | none => cases hexponent
    | some negative hne hexp =>
        simp only [List.mem_cons] at hexponent
        rcases hexponent with rfl | rfl | hdigit
        · decide
        · cases negative <;> decide
        · exact Numeral.mem_numeric (hexp c hdigit)

/-- It begins with a digit. -/
theorem exists_digit_of_pointed {text : List Char} {x : ℚ} (h : Numeral.Pointed text x) :
    ∃ c rest, text = c :: rest ∧ Numeral.isDigit c = true := by
  obtain ⟨whole, fraction, tail, n, rfl, hwhole, -, hdigits, -, -⟩ := h
  obtain ⟨c, rest, rfl⟩ := List.exists_cons_of_ne_nil hwhole
  exact ⟨c, _, rfl, hdigits c (by simp)⟩

/-- The text of an exponent is one. -/
theorem isExponent_of_exponent {tail : List Char} {n : Int} (h : Numeral.Exponent tail n) :
    isExponent tail = true ∧ tail.dropWhile isGrouped = tail := by
  cases h with
  | none => exact ⟨rfl, rfl⟩
  | @some negative digits hne hdigits =>
      have hall : allOf Char.isDigit digits = true := by
        rw [allOf, List.isEmpty_eq_false_iff.mpr hne, Bool.not_false, Bool.true_and,
          List.all_eq_true]
        exact fun c hc => by rw [← Numeral.isDigit_eq, hdigits c hc]
      have he : isGrouped 'e' = false := by decide
      refine ⟨?_, by simp [he]⟩
      cases negative <;> simp [isExponent, hall]

/-- A decimal with a point has the form of a number with one. -/
theorem ofPlain_of_pointed {sign body : List Char} (hsign : sign = [] ∨ sign = ['-']) {x : ℚ}
    (h : Numeral.Pointed body x) : Kind.ofPlain (sign ++ body) = .real := by
  have hword : ∀ w ∈ truthForms, '.' ∉ w.toList := by decide
  obtain ⟨c, rest, hbody, hc⟩ := exists_digit_of_pointed h
  have hunsigned : unsigned (sign ++ body) = body := by
    rw [hbody]
    exact unsigned_of_isDigit hsign hc rest
  obtain ⟨whole, fraction, tail, n, rfl, hwhole, -, hdigits, htail, -⟩ := h
  rw [List.forall_mem_append] at hdigits
  have htruth : truthForms.contains (String.ofList (sign ++ (whole ++ '.' :: (fraction ++ tail))))
      = false := by
    rw [List.contains_eq_mem, decide_eq_false_iff_not]
    intro hmem
    exact hword _ hmem (by simp)
  have hreal : isReal (sign ++ (whole ++ '.' :: (fraction ++ tail))) = true := by
    have hgrouped {digits : List Char} (hd : ∀ c ∈ digits, Numeral.isDigit c = true) :
        ∀ c ∈ digits, isGrouped c = true := fun c hc => by
      rw [isGrouped, ← Numeral.isDigit_eq, hd c hc, Bool.true_or]
    have hpoint : ∀ c ∈ whole, decide (c ≠ '.') = true := fun c hc => by
      exact decide_eq_true (ne_sign_of_isDigit (hdigits.1 c hc)).2.2
    have htake : (whole ++ '.' :: (fraction ++ tail)).takeWhile (· ≠ '.') = whole := by
      rw [List.takeWhile_append_of_pos hpoint]
      simp
    obtain ⟨hexponent, hdrop⟩ := isExponent_of_exponent htail
    obtain ⟨first, others, rfl⟩ := List.exists_cons_of_ne_nil hwhole
    have hfirst : first.isDigit = true := by
      rw [← Numeral.isDigit_eq]
      exact hdigits.1 first List.mem_cons_self
    rw [isReal, hunsigned]
    simp only [htake, List.drop_left, List.dropWhile_append_of_pos (hgrouped hdigits.2), hdrop,
      hexponent, List.isEmpty_cons, List.head?_cons, Option.map_some, Option.getD_some, hfirst,
      List.all_eq_true.mpr (hgrouped hdigits.1), Bool.true_and, Bool.true_or, Bool.false_eq_true,
      if_false]
  rw [Kind.ofPlain, htruth, hreal]
  rfl

/-- A written double has the form of one. -/
theorem ofPlain_write (x : Binary64) : Kind.ofPlain (Layout.yaml.write x) = .real := by
  cases x with
  | finite negative m e h =>
      obtain ⟨body, heq, d, -, hpointed⟩ := exists_write_finite negative h
      rw [heq]
      exact ofPlain_of_pointed (by cases negative <;> simp) hpointed
  | infinite negative => cases negative <;> decide
  | nan => decide

/-- A decimal with a point is read as the double nearest to its value. -/
theorem sizeOf_of_pointed {body : List Char} {d : Decimal} {m : Nat} {e : Int}
    (hback : d.ReadsBack m e) (h : Numeral.Pointed body d.value) :
    sizeOf body = .ok (Binary64.ofMagnitude false m e) := by
  have hnumeric : ∀ c ∈ body, c ∈ numeric := fun c hc => mem_numeric_of_pointed h hc
  obtain ⟨d', hvalue, hdecimal⟩ := h.exists_decimal
  have hread : Numeral.decimal? false body = some (Binary64.ofMagnitude false m e) := by
    rw [hdecimal, Binary64.ofDecimal_congr hvalue, hback]
  obtain ⟨c, rest, rfl, hc⟩ := exists_digit_of_pointed h
  obtain ⟨hminus, hplus, hpoint⟩ := ne_sign_of_isDigit hc
  have hcolon : (c :: rest).contains ':' = false := by
    rw [List.contains_eq_mem, decide_eq_false_iff_not]
    exact fun hmem => absurd (hnumeric ':' hmem) (by decide)
  obtain ⟨hinfinity, hnan⟩ : c.toLower ≠ 'i' ∧ c.toLower ≠ 'n' :=
    Numeral.of_digits c hc (by decide)
  have hword {d : Char} {word : List Char} (hd : c.toLower ≠ d) (hword : word.head? = some d) :
      (c :: rest).map Char.toLower ≠ word := by
    rintro rfl
    exact hd (Option.some.inj hword)
  have hsign : Numeral.sign (c :: rest) = (false, c :: rest) := by
    simp [Numeral.sign, hminus, hplus]
  have hreal : Loose.real? (c :: rest) = some (Binary64.ofMagnitude false m e) := by
    rw [Loose.real?, Loose.plain_eq_self hnumeric, Numeral.real?,
      Numeral.join?_eq_self hnumeric]
    simp only [Option.bind_eq_bind, Option.bind_some, hsign]
    rw [if_neg (not_or_intro (hword hinfinity rfl) (hword hinfinity rfl)),
      if_neg (hword hnan rfl), hread]
  have hstart {word : List Char} (hword : word.head? = some '.') : c :: rest ≠ word := by
    rintro rfl
    exact hpoint (Option.some.inj hword)
  rw [sizeOf, if_neg (hstart rfl), if_neg (hstart rfl), hcolon, if_neg Bool.false_ne_true,
    decimalOf, hreal]

/-- A written double is read as itself. -/
theorem realOf_write (x : Binary64) : realOf (String.ofList (Layout.yaml.write x)) = .ok x := by
  cases x with
  | finite negative m e h =>
      obtain ⟨body, heq, d, hback, hpointed⟩ := exists_write_finite negative h
      have hsize := sizeOf_of_pointed hback hpointed
      rw [Binary64.ofMagnitude, dif_pos h] at hsize
      have hnumeric : ∀ c ∈ (if negative then ['-'] else []) ++ body, c ∈ numeric := by
        rw [List.forall_mem_append]
        refine ⟨?_, fun c hc => mem_numeric_of_pointed hpointed hc⟩
        cases negative <;> exact List.all_iff_forall_prop.mp (by decide)
      rw [heq, realOf, ungrouped_eq_self (by rwa [String.toList_ofList]), String.toList_ofList,
        Case.lower_eq_self hnumeric, String.toList_ofList]
      obtain ⟨c, rest, rfl, hc⟩ := exists_digit_of_pointed hpointed
      obtain ⟨hminus, hplus, -⟩ := ne_sign_of_isDigit hc
      cases negative with
      | false => simp [hminus, hplus, hsize]
      | true => simp [hsize, Except.map, Binary64.neg]
  | infinite negative => cases negative <;> rfl
  | nan => rfl

end Yaml

end StakeLedger
