import StakeLedger.Text.Hex

/-!
# Five-bit words

Addresses spell octets in words of five bits.  Octets and words are regrouped
through the list of their bits, the highest first; the last word of a string of
octets is filled up by zeros, and only such a filling is taken off again.

Main definitions:

- {lit}`Word`: a value below thirty-two, and its character.
- {lit}`Word.ofOctets`: the words of a string of octets.
- {lit}`Word.toOctets?`: the octets of words, if nothing but zeros is left over.

Main results:

- Theorem {lit}`Word.ofChar?_toChar`: the character of a word names it.
-/

namespace StakeLedger

/-- A word of five bits. -/
abbrev Word := Fin 32

namespace Word

/-- The characters of the words, in order. -/
def charset : List Char :=
  "qpzry9x8gf2tvdw0s3jn54khce6mua7l".toList

/-- The character of a word. -/
def toChar (w : Word) : Char :=
  charset.getD w.val 'q'

/-- The word of a lower-case character. -/
def ofChar? (c : Char) : Option Word :=
  (List.finRange 32).find? fun w => toChar w == c

/-- The lowest {lit}`width` bits of a number, the highest first. -/
def bits (width n : Nat) : List Bool :=
  (List.range width).reverse.map n.testBit

/-- The number of some bits, the highest first. -/
def ofBits (bs : List Bool) : Nat :=
  bs.foldl (fun n b => 2 * n + b.toNat) 0

/-- The word of the five lowest bits of a number. -/
def ofNat (n : Nat) : Word :=
  Fin.ofNat 32 n

/-- The word of at most five bits, with zeros after them. -/
def pack (bs : List Bool) : Word :=
  ofNat (ofBits bs <<< (5 - bs.length))

/-- Bits by fives, the last group filled up by zeros. -/
def fives : List Bool → List Word
  | a :: b :: c :: d :: e :: rest => pack [a, b, c, d, e] :: fives rest
  | [] => []
  | short => [pack short]

/-- Bits by eights.  Fewer than five zeros may be left over. -/
def eights? : List Bool → Option Octets
  | a :: b :: c :: d :: e :: f :: g :: h :: rest =>
      (eights? rest).map (UInt8.ofNat (ofBits [a, b, c, d, e, f, g, h]) :: ·)
  | short => if short.length < 5 ∧ short.all (! ·) then some [] else none

/-- The words of a string of octets. -/
def ofOctets (octets : Octets) : List Word :=
  fives (octets.flatMap fun b => bits 8 b.toNat)

/-- The octets of words, if nothing but zeros is left over. -/
def toOctets? (words : List Word) : Option Octets :=
  eights? (words.flatMap fun w => bits 5 w.val)

/-- The character of a word names it. -/
theorem ofChar?_toChar : ∀ w : Word, ofChar? (toChar w) = some w := by
  decide

end Word

end StakeLedger
