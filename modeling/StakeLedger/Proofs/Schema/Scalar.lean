import StakeLedger.Proofs.Decimal.Rounding
import StakeLedger.Schema.Scalar

/-!
# What is read leniently

One scalar is read from values of several kinds.  Each reader is told by a relation: the
values that are taken for a whole number or for a truth value, and the documents that give
a member in one of some ways.

Main definitions:

- {lit}`Binary64.value?`: the value of a finite double.
- {lit}`Schema.Whole`, {lit}`Schema.Truth`: the values that are taken for a whole number, and
  for a truth value.
- {lit}`Fields.Gives`: a member of a document.

Main results:

- Theorem {lit}`Binary64.integral_iff`: the integer part of a double without a fraction.
- Theorem {lit}`Schema.int_eq_ok_iff`, {lit}`Schema.bool_eq_ok_iff`: what scalars are read from.
- Theorem {lit}`Schema.required_eq_ok_iff`, {lit}`Schema.withDefault_eq_ok_iff`: what members are
  read from.
-/

namespace StakeLedger

/-! ## Doubles without a fraction -/

namespace Binary64

/-- The value of a finite double. -/
def value? : Binary64 → Option ℚ
  | .finite negative m e _ => some (if negative then -(m * 2 ^ e) else m * 2 ^ e)
  | _ => none

/-- The two naturals of a magnitude have its value for their quotient. -/
theorem magnitude_eq (m : Nat) (e : Int) :
    ((magnitude m e).1 : ℚ) / (magnitude m e).2 = m * 2 ^ e ∧ 0 < (magnitude m e).2 := by
  unfold magnitude
  by_cases he : e < 0
  · obtain ⟨k, rfl⟩ : ∃ k : Nat, e = -k := ⟨(-e).toNat, by omega⟩
    rw [if_pos he]
    simp only [neg_neg, Int.toNat_natCast, Nat.one_shiftLeft, Nat.cast_pow, Nat.cast_ofNat,
      zpow_neg, zpow_natCast]
    exact ⟨div_eq_mul_inv _ _, by positivity⟩
  · obtain ⟨k, rfl⟩ : ∃ k : Nat, e = k := ⟨e.toNat, by omega⟩
    rw [if_neg he]
    simp only [Int.toNat_natCast, Nat.shiftLeft_eq, Nat.cast_mul, Nat.cast_pow, Nat.cast_ofNat,
      Nat.cast_one, div_one, zpow_natCast]
    exact ⟨trivial, Nat.one_pos⟩

/-- A quotient of naturals is an integer if nothing is left over. -/
theorem mod_eq_zero_iff {n d : Nat} (hd : 0 < d) (k : Int) :
    n % d = 0 ∧ ((n / d : Nat) : Int) = k ↔ (n : ℚ) / d = k := by
  have hd' : (d : ℚ) ≠ 0 := by positivity
  constructor
  · rintro ⟨hmod, rfl⟩
    rcases Nat.dvd_of_mod_eq_zero hmod with ⟨q, rfl⟩
    rw [Nat.mul_div_cancel_left q hd, Nat.cast_mul, Int.cast_natCast]
    exact mul_div_cancel_left₀ _ hd'
  · intro h
    rw [div_eq_iff hd'] at h
    have hn : (n : Int) = k * d := by exact_mod_cast h
    have hdInt : (d : Int) ≠ 0 := by omega
    constructor
    · zify
      rw [hn, Int.mul_emod_left]
    · rw [Int.natCast_ediv, hn, Int.mul_ediv_cancel k hdInt]

/-- The integer part of a double without a fraction is its value. -/
theorem integral_iff (x : Binary64) (k : Int) :
    x.isIntegral = true ∧ x.truncate? = some k ↔ x.value? = some (k : ℚ) := by
  cases x with
  | finite negative m e h =>
      rcases magnitude_eq m e with ⟨hvalue, hpos⟩
      simp only [isIntegral, truncate?, value?, beq_iff_eq, Option.some.injEq, ← hvalue]
      cases negative with
      | false => exact mod_eq_zero_iff hpos k
      | true =>
          simp only [if_true]
          rw [neg_eq_iff_eq_neg, neg_eq_iff_eq_neg, ← Int.cast_neg]
          exact mod_eq_zero_iff hpos (-k)
  | infinite negative => simp [isIntegral, value?]
  | nan => simp [isIntegral, value?]

end Binary64

/-! ## Scalars -/

namespace Schema

/-- The values that are taken for a whole number: that number, a truth value for zero or
one, a double without a fraction that is not too large, and a numeral between blanks that is
not too long. -/
inductive Whole : Value → Int → Prop where
  | int (n : Int) : Whole (.int n) n
  | bool (b : Bool) : Whole (.bool b) b.toNat
  | real {x : Binary64} {n : Int} (hvalue : x.value? = some (n : ℚ)) (hsize : n.natAbs < 2 ^ 63) :
      Whole (.real x) n
  | text {s : String} {n : Int}
      (hnumeral : Numeral.wholeInt? (Blank.trim Blank.isWhite s.toList) = some n)
      (hlength : (Json.writeInt n).length ≤ Json.longestWhole) : Whole (.text s) n

/-- The values that are taken for a truth value: itself, zero and one as numbers with or
without a point, and some words in any case. -/
inductive Truth : Value → Bool → Prop where
  | bool (b : Bool) : Truth (.bool b) b
  | int (b : Bool) : Truth (.int b.toNat) b
  | real {x : Binary64} {b : Bool} (hvalue : x.value? = some (b.toNat : ℚ)) : Truth (.real x) b
  | falseWord {s : String} (hword : String.ofList (s.toList.map Char.toLower) ∈ falseWords) :
      Truth (.text s) false
  | trueWord {s : String} (hword : String.ofList (s.toList.map Char.toLower) ∈ trueWords) :
      Truth (.text s) true

/-- A fault is not what was read. -/
@[simp]
theorem Checked.fail_ne_ok {α : Type} (kind : FaultKind) (a : α) :
    (Checked.fail kind : Checked α) ≠ .ok a :=
  fun h => nomatch h

/-- What is read under a condition, and is a fault without it. -/
theorem Checked.ite_fail_eq_ok_iff {α : Type} {p : Prop} [Decidable p] (read : Checked α)
    (kind : FaultKind) (a : α) :
    (if p then read else Checked.fail kind) = .ok a ↔ p ∧ read = .ok a := by
  by_cases hp : p
  · simp [hp]
  · simp [hp]

/-- What text is read from. -/
theorem text_eq_ok_iff (v : Value) (s : String) : Schema.text v = .ok s ↔ v = .text s := by
  cases v <;> simp [Schema.text]

/-- The doubles that a whole number is read from. -/
theorem intOfReal_eq_ok_iff (x : Binary64) (n : Int) :
    intOfReal x = .ok n ↔ x.value? = some (n : ℚ) ∧ n.natAbs < 2 ^ 63 := by
  rw [← Binary64.integral_iff, intOfReal]
  cases htruncate : x.truncate? with
  | none => simp
  | some m =>
      rw [Checked.ite_fail_eq_ok_iff, Checked.ite_fail_eq_ok_iff, Except.ok.injEq,
        Option.some.injEq]
      constructor
      · rintro ⟨hintegral, hsize, rfl⟩
        exact ⟨⟨hintegral, rfl⟩, hsize⟩
      · rintro ⟨⟨hintegral, rfl⟩, hsize⟩
        exact ⟨hintegral, hsize, rfl⟩

/-- What whole numbers are read from. -/
theorem int_eq_ok_iff (v : Value) (n : Int) : Schema.int v = .ok n ↔ Whole v n := by
  constructor
  · intro h
    cases v with
    | int m =>
        obtain rfl := Except.ok.inj h
        exact .int m
    | bool b =>
        obtain rfl := Except.ok.inj h
        exact .bool b
    | real x =>
        rcases (intOfReal_eq_ok_iff x n).mp h with ⟨hvalue, hsize⟩
        exact .real hvalue hsize
    | text s =>
        rw [Schema.int] at h
        split at h
        · next m hnumeral =>
          obtain ⟨hlength, hm⟩ := (Checked.ite_fail_eq_ok_iff _ _ n).mp h
          obtain rfl := Except.ok.inj hm
          exact .text hnumeral hlength
        · exact absurd h (Checked.fail_ne_ok _ _)
    | _ => exact absurd h (Checked.fail_ne_ok _ _)
  · intro h
    cases h with
    | int n => rfl
    | bool b => rfl
    | real hvalue hsize => exact (intOfReal_eq_ok_iff _ n).mpr ⟨hvalue, hsize⟩
    | text hnumeral hlength =>
        simp only [Schema.int, hnumeral]
        rw [if_pos hlength]

/-- The numbers that a truth value is read from. -/
theorem boolOfInt_eq_ok_iff (n : Int) (b : Bool) : boolOfInt n = .ok b ↔ n = b.toNat := by
  rw [boolOfInt]
  by_cases hzero : n = 0
  · subst hzero
    cases b <;> simp
  · rw [if_neg hzero, Checked.ite_fail_eq_ok_iff, Except.ok.injEq]
    cases b
    · simp [hzero]
    · simp

/-- What truth values are read from. -/
theorem bool_eq_ok_iff (v : Value) (b : Bool) : Schema.bool v = .ok b ↔ Truth v b := by
  constructor
  · intro h
    cases v with
    | bool c =>
        obtain rfl := Except.ok.inj h
        exact .bool c
    | int n =>
        rw [Schema.bool, Checked.ite_fail_eq_ok_iff, boolOfInt_eq_ok_iff] at h
        rw [h.2]
        exact .int b
    | real x =>
        rw [Schema.bool] at h
        split at h
        · next n hn =>
          rw [boolOfInt_eq_ok_iff] at h
          rw [intOfReal_eq_ok_iff, h] at hn
          exact .real hn.1
        · exact absurd h (Checked.fail_ne_ok _ _)
    | text s =>
        simp only [Schema.bool, List.contains_iff_mem] at h
        split at h
        · next hword =>
          obtain rfl := Except.ok.inj h
          exact .falseWord hword
        · rw [Checked.ite_fail_eq_ok_iff] at h
          obtain rfl := Except.ok.inj h.2
          exact .trueWord h.1
    | _ => exact absurd h (Checked.fail_ne_ok _ _)
  · intro h
    cases h with
    | bool b => rfl
    | int b => cases b <;> rfl
    | real hvalue =>
        have hread := (intOfReal_eq_ok_iff _ b.toNat).mpr ⟨by exact_mod_cast hvalue, by
          cases b <;> decide⟩
        simp only [Schema.bool, hread]
        exact (boolOfInt_eq_ok_iff _ b).mpr rfl
    | falseWord hword =>
        simp only [Schema.bool, List.contains_iff_mem, if_pos hword]
    | trueWord hword =>
        have hdisjoint : ∀ w ∈ trueWords, w ∉ falseWords := by
          decide
        simp only [Schema.bool, List.contains_iff_mem, if_neg (hdisjoint _ hword), if_pos hword]

end Schema

/-! ## Members -/

/-- A document gives a member in one of some ways. -/
def Fields.Gives (fs : Fields) (key : String) (P : Value → Prop) : Prop :=
  ∃ v, Fields.get? fs key = some v ∧ P v

namespace Schema

/-- What was read further in. -/
theorem Checked.within_eq_ok_iff {α : Type} (step : String) (read : Checked α) (a : α) :
    read.within step = .ok a ↔ read = .ok a := by
  cases read with
  | ok b => rfl
  | error faults => simp [Checked.within]

/-- What was read in two steps. -/
theorem Checked.ap_eq_ok_iff {α β : Type} (f : Checked (α → β)) (read : Checked α) (b : β) :
    f.ap read = .ok b ↔ ∃ g, f = .ok g ∧ ∃ a, read = .ok a ∧ g a = b := by
  cases f with
  | ok g =>
      cases read with
      | ok a => simp [Checked.ap]
      | error faults => simp [Checked.ap]
  | error faults =>
      cases read with
      | ok a => simp [Checked.ap]
      | error more => simp [Checked.ap]

/-- What a document is read from. -/
theorem fields_eq_ok_iff {α : Type} (read : Fields → Checked α) (v : Value) (a : α) :
    Schema.fields read v = .ok a ↔ ∃ fs, v = .dict fs ∧ read fs = .ok a := by
  cases v <;> simp [Schema.fields]

/-- What a member that must be there is read from. -/
theorem required_eq_ok_iff {α : Type} (fs : Fields) (key : String) (read : Value → Checked α)
    (a : α) : required fs key read = .ok a ↔ fs.Gives key fun v => read v = .ok a := by
  rw [required, Fields.Gives]
  cases Fields.get? fs key with
  | none => simp
  | some v => simp [Checked.within_eq_ok_iff]

/-- What a member that may be missing is read from. -/
theorem withDefault_eq_ok_iff {α : Type} (fs : Fields) (key : String) (default : α)
    (read : Value → Checked α) (a : α) :
    withDefault fs key default read = .ok a ↔
      (Fields.get? fs key = none ∧ a = default) ∨ fs.Gives key fun v => read v = .ok a := by
  rw [withDefault, Fields.Gives]
  cases Fields.get? fs key with
  | none => simp [eq_comm]
  | some v => simp [Checked.within_eq_ok_iff]

/-- What a member that may be nothing is read from. -/
theorem nullable_eq_ok_iff {α : Type} {read : Value → Checked α} (hnull : ∀ a, read .null ≠ .ok a)
    (v : Value) (o : Option α) :
    nullable read v = .ok o ↔ (v = .null ∧ o = none) ∨ ∃ a, read v = .ok a ∧ o = some a := by
  by_cases hv : v = .null
  · subst hv
    simp [nullable, hnull, eq_comm]
  · have hsome : nullable read v = (read v).map some := by
      cases v <;> first | rfl | exact absurd rfl hv
    rw [hsome]
    cases read v with
    | ok a => simp [Except.map, hv, eq_comm]
    | error faults => simp [Except.map, hv]

end Schema

end StakeLedger
