import StakeLedger.Text.Hex

/-!
# Base64 text of octets

Writing uses the URL-safe alphabet and pads to a multiple of four characters.
Reading is lenient: both alphabets are understood, foreign characters are
passed over, and padding matters only where it can close an open group.

Main definitions:

- {lit}`Base64.encode`: the URL-safe text of a string of octets.
- {lit}`Base64.decode?`: the octets of a text, unless a group stays open.
-/

namespace StakeLedger.Base64

/-- The digit of a value below sixty-four in the URL-safe alphabet. -/
def digit (n : Nat) : Char :=
  if n < 26 then Char.ofNat (65 + n)
  else if n < 52 then Char.ofNat (71 + n)
  else if n < 62 then Char.ofNat (n - 4)
  else if n = 62 then '-'
  else '_'

/-- The value of a digit of either alphabet. -/
def value? (c : Char) : Option Nat :=
  if 'A' ≤ c ∧ c ≤ 'Z' then some (c.toNat - 65)
  else if 'a' ≤ c ∧ c ≤ 'z' then some (c.toNat - 71)
  else if '0' ≤ c ∧ c ≤ '9' then some (c.toNat + 4)
  else if c = '-' ∨ c = '+' then some 62
  else if c = '_' ∨ c = '/' then some 63
  else none

/-- Four digits for three octets; one or two octets at the end are padded. -/
def encode : Octets → List Char
  | [] => []
  | [a] =>
      let n := a.toNat * 16
      [digit (n / 64), digit (n % 64), '=', '=']
  | [a, b] =>
      let n := (a.toNat * 256 + b.toNat) * 4
      [digit (n / 4096), digit (n / 64 % 64), digit (n % 64), '=']
  | a :: b :: c :: rest =>
      let n := (a.toNat * 256 + b.toNat) * 256 + c.toNat
      digit (n / 262144) :: digit (n / 4096 % 64) :: digit (n / 64 % 64) ::
        digit (n % 64) :: encode rest

/-- The octets that an open group of two or three values holds. -/
def close : List Nat → Octets
  | [a, b] => [UInt8.ofNat (a * 4 + b / 16)]
  | [a, b, c] => [UInt8.ofNat (a * 4 + b / 16), UInt8.ofNat (b % 16 * 16 + c / 4)]
  | _ => []

/-- Read characters after an open group and a count of padding marks.  Padding
that fills the group ends the text; a group still open at the end is an error. -/
def decodeFrom : List Nat → Nat → List Char → Option Octets
  | [], _, [] => some []
  | _ :: _, _, [] => none
  | group, pads, c :: rest =>
      if c = '=' then
        if group.length < 2 then decodeFrom group pads rest
        else if 4 ≤ group.length + (pads + 1) then some (close group)
        else decodeFrom group (pads + 1) rest
      else
        match value? c with
        | none => decodeFrom group pads rest
        | some d =>
            match group with
            | [x, y, z] => do
                let octets ← decodeFrom [] 0 rest
                let last := UInt8.ofNat (z % 4 * 64 + d)
                return close [x, y, z] ++ last :: octets
            | _ => decodeFrom (group ++ [d]) 0 rest

/-- The octets of a text, unless a group stays open at its end. -/
def decode? (text : List Char) : Option Octets :=
  decodeFrom [] 0 text

end StakeLedger.Base64
