import StakeLedger.Address.Word

/-!
# Checked words behind a human-readable part

A checked text is a human-readable part, the last digit one of the text, and
words of which the last six are a checksum.  The checksum is the remainder left
in a register of thirty bits; what remains tells the two variants apart.

Main definitions:

- {lit}`Bech32.Variant`: the two checksum constants.
- {lit}`Bech32.remainder`: the register after some words.
- {lit}`Bech32.split`: the parts of a checked text, or the first fault found.
- {lit}`Bech32.checksum`: the six words that complete a text.
-/

namespace StakeLedger.Bech32

/-- The two variants of the checksum. -/
inductive Variant where
  | plain
  | modified
deriving DecidableEq, Repr

/-- The register that a complete text of a variant leaves. -/
def Variant.constant : Variant → BitVec 30
  | .plain => 1
  | .modified => 0x2bc830a3

/-- The variant of a register, if it is one. -/
def Variant.ofConstant? (register : BitVec 30) : Option Variant :=
  if register = Variant.plain.constant then some .plain
  else if register = Variant.modified.constant then some .modified
  else none

/-- What is added to the register for each of its five top bits. -/
def generator : List (BitVec 30) :=
  [0x3b6a57b2, 0x26508e6d, 0x1ea119fa, 0x3d4233dd, 0x2a1462b3]

/-- What the five top bits of a register add when they are shifted out. -/
def feedback (register : BitVec 30) : BitVec 30 :=
  (List.range 5).foldl
    (fun sum i => if register.getLsbD (25 + i) then sum ^^^ generator.getD i 0 else sum) 0

/-- Shift a word into the register.  A word may be any integer; its low thirty
bits count. -/
def step (register : BitVec 30) (word : BitVec 30) : BitVec 30 :=
  (register <<< 5) ^^^ word ^^^ feedback register

/-- The register after some words. -/
def remainder (words : List (BitVec 30)) : BitVec 30 :=
  words.foldl step 1

/-- A word in the register's width. -/
def widen (w : Word) : BitVec 30 :=
  BitVec.ofNat 30 w.val

/-- The words that stand for a human-readable part: the high bits of its
characters, a zero, and their low bits. -/
def expand (hrp : List Char) : List (BitVec 30) :=
  hrp.map (fun c => BitVec.ofNat 30 (c.toNat / 32)) ++
    0 :: hrp.map fun c => BitVec.ofNat 30 (c.toNat % 32)

/-- Why a text is not a checked text. -/
inductive Fault where
  | foreignCharacter
  | mixedCase
  | tooLong
  | separator
  | badCharacter
  | checksum
deriving DecidableEq, Repr

/-- What is said of a fault. -/
def Fault.message : Fault → String
  | .foreignCharacter => "invalid characters in address"
  | .mixedCase => "mixed case address"
  | .tooLong => "address too long"
  | .separator => "invalid separator position"
  | .badCharacter => "invalid bech32 character"
  | .checksum => "invalid checksum"

/-- The parts of a checked text. -/
structure Parts where
  hrp : List Char
  words : List Word
  variant : Variant
deriving DecidableEq

/-- The longest checked text. -/
def maxLength : Nat := 90

/-- How many words a checksum has. -/
def checksumLength : Nat := 6

/-- A text before and after its last digit one. -/
def splitAtSeparator (text : List Char) : Option (List Char × List Char) :=
  let tail := (text.reverse.takeWhile (· ≠ '1')).reverse
  if tail.length < text.length then
    some (text.take (text.length - tail.length - 1), tail)
  else none

/-- The parts of a text in lower case. -/
def splitLower (text : List Char) : Except Fault Parts :=
  match splitAtSeparator text with
  | none => .error .separator
  | some (hrp, tail) =>
      if hrp = [] ∨ tail.length < checksumLength then .error .separator
      else
        match tail.mapM Word.ofChar? with
        | none => .error .badCharacter
        | some words =>
            match Variant.ofConstant? (remainder (expand hrp ++ words.map widen)) with
            | none => .error .checksum
            | some variant =>
                .ok ⟨hrp, words.take (words.length - checksumLength), variant⟩

/-- The parts of a text: printable characters without blanks, of one case, and
not too many of them. -/
def split (text : List Char) : Except Fault Parts :=
  if text.any fun c => c.toNat < 33 || 126 < c.toNat then .error .foreignCharacter
  else if text.any Char.isUpper && text.any Char.isLower then .error .mixedCase
  else if maxLength < text.length then .error .tooLong
  else splitLower (text.map Char.toLower)

/-- The six words that complete a text of a variant. -/
def checksum (variant : Variant) (hrp : List Char) (words : List (BitVec 30)) : List Word :=
  let register := remainder (expand hrp ++ words ++ List.replicate checksumLength 0) ^^^
    variant.constant
  (List.range checksumLength).map fun i => Word.ofNat (register.toNat >>> (5 * (5 - i)))

end StakeLedger.Bech32
