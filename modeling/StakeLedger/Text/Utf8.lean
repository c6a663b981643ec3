import StakeLedger.Text.Hex

/-!
# Characters as octets

The octets of a text are those of UTF-8.  Reading is a machine that takes one
octet at a time; an ill-formed stretch is reported as one gap, at the point
where it stops being the beginning of any character.

Main definitions:

- {lit}`Utf8.encode`: the octets of a text.
- {lit}`Utf8.scan`: the characters of a string of octets, with a gap for each
  ill-formed stretch.
- {lit}`Utf8.decode?` and {lit}`Utf8.decodeLossy`: texts without gaps only, and
  texts with U+FFFD in each gap.
- {lit}`Utf8.Garbled`: octets that are no text.
-/

namespace StakeLedger.Utf8

/-- The octets of one character, from one to four of them. -/
def encodeChar (c : Char) : Octets :=
  let n := c.toNat
  if n < 0x80 then [UInt8.ofNat n]
  else if n < 0x800 then [UInt8.ofNat (0xC0 + n / 64), UInt8.ofNat (0x80 + n % 64)]
  else if n < 0x10000 then
    [UInt8.ofNat (0xE0 + n / 4096), UInt8.ofNat (0x80 + n / 64 % 64),
      UInt8.ofNat (0x80 + n % 64)]
  else
    [UInt8.ofNat (0xF0 + n / 262144), UInt8.ofNat (0x80 + n / 4096 % 64),
      UInt8.ofNat (0x80 + n / 64 % 64), UInt8.ofNat (0x80 + n % 64)]

/-- The octets of a text. -/
def encode (text : List Char) : Octets :=
  text.flatMap encodeChar

/-- A character of which some octets are read: how many are missing, the bounds
of the next one, and the bits so far. -/
structure Pending where
  missing : Nat
  low : Nat
  high : Nat
  bits : Nat

/-- What a first octet begins: the bounds of the second one leave out overlong
forms, surrogates and values above U+10FFFF. -/
def lead? (b : Nat) : Option Pending :=
  if b < 0x80 then some ⟨0, 0, 0, b⟩
  else if b < 0xC2 then none
  else if b < 0xE0 then some ⟨1, 0x80, 0xBF, b - 0xC0⟩
  else if b = 0xE0 then some ⟨2, 0xA0, 0xBF, 0⟩
  else if b = 0xED then some ⟨2, 0x80, 0x9F, 0xD⟩
  else if b < 0xF0 then some ⟨2, 0x80, 0xBF, b - 0xE0⟩
  else if b = 0xF0 then some ⟨3, 0x90, 0xBF, 0⟩
  else if b < 0xF4 then some ⟨3, 0x80, 0xBF, b - 0xF0⟩
  else if b = 0xF4 then some ⟨3, 0x80, 0x8F, 4⟩
  else none

/-- Read an octet where a character begins: what is finished, and what is begun. -/
def start (b : UInt8) : List (Option Char) × Option Pending :=
  match lead? b.toNat with
  | none => ([none], none)
  | some p => if p.missing = 0 then ([some (Char.ofNat p.bits)], none) else ([], some p)

/-- Read one octet.  An octet out of bounds closes a gap and begins anew. -/
def step : Option Pending → UInt8 → List (Option Char) × Option Pending
  | none, b => start b
  | some p, b =>
      if p.low ≤ b.toNat ∧ b.toNat ≤ p.high then
        let bits := 64 * p.bits + b.toNat % 64
        if p.missing ≤ 1 then ([some (Char.ofNat bits)], none)
        else ([], some ⟨p.missing - 1, 0x80, 0xBF, bits⟩)
      else
        let (out, pending) := start b
        (none :: out, pending)

/-- Read the octets that follow a given state; an unfinished character at the
end is a gap. -/
def scanFrom : Option Pending → Octets → List (Option Char)
  | none, [] => []
  | some _, [] => [none]
  | pending, b :: rest =>
      let (out, next) := step pending b
      out ++ scanFrom next rest

/-- The characters of a string of octets, with a gap for each ill-formed
stretch. -/
def scan (octets : Octets) : List (Option Char) :=
  scanFrom none octets

/-- The text of well-formed octets. -/
def decode? (octets : Octets) : Option (List Char) :=
  (scan octets).mapM id

/-- Octets that are the text of nothing. -/
abbrev Garbled :=
  { octets : Octets // decode? octets = none }

/-- The text of any octets, with U+FFFD in each gap. -/
def decodeLossy (octets : Octets) : List Char :=
  (scan octets).map fun c => c.getD '\uFFFD'

end StakeLedger.Utf8
