/-!
# Hexadecimal text of octets

Identifiers travel as hexadecimal text.  Reading accepts digits of either case
and needs an even number of them; writing always uses lower case.

Main definitions:

- {lit}`Hex.encode`: two lower-case digits for each octet.
- {lit}`Hex.decode?`: the octets of a text of digit pairs, if it is one.

Main results:

- Theorem {lit}`decode?_encode`: reading a written text gives the octets back.
- Theorem {lit}`encode_length`: a written text has two digits for each octet.
-/

namespace StakeLedger

/-- A string of octets. -/
abbrev Octets := List UInt8

namespace Hex

/-- The value of a hexadecimal digit of either case. -/
def value? (c : Char) : Option Nat :=
  if '0' ≤ c ∧ c ≤ '9' then some (c.toNat - 48)
  else if 'a' ≤ c ∧ c ≤ 'f' then some (c.toNat - 87)
  else if 'A' ≤ c ∧ c ≤ 'F' then some (c.toNat - 55)
  else none

/-- Whether a character is a hexadecimal digit. -/
def isDigit (c : Char) : Bool :=
  (value? c).isSome

/-- The lower-case digit of a value below sixteen. -/
def digit (n : Nat) : Char :=
  if n < 10 then Char.ofNat (48 + n) else Char.ofNat (87 + n)

/-- Two lower-case digits for each octet, the higher half first. -/
def encode : Octets → List Char
  | [] => []
  | b :: rest => digit (b.toNat / 16) :: digit (b.toNat % 16) :: encode rest

/-- The octets of a text of digit pairs; a foreign character or a single digit
at the end has none. -/
def decode? : List Char → Option Octets
  | [] => some []
  | [_] => none
  | high :: low :: rest => do
      let h ← value? high
      let l ← value? low
      let octets ← decode? rest
      return UInt8.ofNat (16 * h + l) :: octets

/-- The written text of a string of octets. -/
def text (octets : Octets) : String :=
  String.ofList (encode octets)

/-- The number with exactly {lit}`width` digits, the highest first. -/
def padded (width n : Nat) : List Char :=
  (List.range width).reverse.map fun i => digit (n >>> (4 * i) % 16)

/-! ## Reading what was written -/

/-- A written digit reads back as its value. -/
theorem value?_digit : ∀ n, n < 16 → value? (digit n) = some n := by
  decide

/-- Two digits for each octet. -/
@[simp]
theorem encode_length (octets : Octets) :
    (encode octets).length = 2 * octets.length := by
  induction octets with
  | nil => rfl
  | cons b rest ih => simp [encode, ih]; omega

/-- Reading a written text gives the octets back. -/
theorem decode?_encode (octets : Octets) : decode? (encode octets) = some octets := by
  induction octets with
  | nil => rfl
  | cons b rest ih =>
      have hb : b.toNat < 256 := b.toNat_lt
      have hhigh : value? (digit (b.toNat / 16)) = some (b.toNat / 16) :=
        value?_digit _ (by omega)
      have hlow : value? (digit (b.toNat % 16)) = some (b.toNat % 16) :=
        value?_digit _ (by omega)
      have hsum : 16 * (b.toNat / 16) + b.toNat % 16 = b.toNat := by omega
      rw [encode, decode?, hhigh, hlow, ih]
      simp only [Option.bind_eq_bind, Option.bind_some, hsum, UInt8.ofNat_toNat]
      rfl

end Hex

end StakeLedger
