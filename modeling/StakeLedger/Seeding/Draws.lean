import StakeLedger.Text.Hex

/-!
# Random draws

Whatever needs chance takes it from a source of draws over a state.  The only
whole numbers drawn are those below a bound; every other choice is made from
them.

Main definitions:

- {lit}`Draws`: a source of octets and of numbers below a bound.
- {lit}`Draws.between`: a number between two bounds.
- {lit}`Congruential`: the state of a linear congruential source.

Main results:

- Theorem {lit}`Draws.between_mem`: a drawn number is within its bounds.
-/

namespace StakeLedger

/-- A source of draws over a state.  Numbers below a positive bound stay below
it. -/
structure Draws (σ : Type) where
  octets : Nat → σ → Octets × σ
  below : Nat → σ → Nat × σ
  below_lt : ∀ n s, 0 < n → (below n s).1 < n

namespace Draws

/-- A number between two bounds, both included. -/
def between {σ : Type} (draws : Draws σ) (low high : Nat) (s : σ) : Nat × σ :=
  let (n, s) := draws.below (high - low + 1) s
  (low + n, s)

/-- A drawn number is within its bounds. -/
theorem between_mem {σ : Type} (draws : Draws σ) (low high : Nat) (s : σ) (h : low ≤ high) :
    low ≤ (draws.between low high s).1 ∧ (draws.between low high s).1 ≤ high := by
  have hlt := draws.below_lt (high - low + 1) s (by omega)
  have hle : low + (draws.below (high - low + 1) s).1 ≤ high := by omega
  exact ⟨Nat.le_add_right _ _, hle⟩

end Draws

/-! ## A linear congruential source -/

/-- The numbers that a linear congruential sequence goes through. -/
abbrev Residue := Fin 0x80000000

namespace Residue

/-- The first number of the sequence of a seed. -/
def ofSeed (seed : Int) : Residue :=
  Fin.ofNat 0x80000000 (seed % 0x80000000).toNat

/-- The number after a number. -/
def next (x : Residue) : Residue :=
  Fin.ofNat 0x80000000 (x.val * 1103515245 + 12345)

/-- What a number of the sequence yields: its eight lowest bits repeat too soon
and are left out. -/
def yield (x : Residue) : Nat :=
  x.val >>> 8

/-- An octet of what a number yields. -/
def octet (x : Residue) : UInt8 :=
  UInt8.ofNat (x.yield >>> 8)

end Residue

/-- Two sequences, one for octets and one for numbers. -/
structure Congruential where
  forOctets : Residue
  forNumbers : Residue

namespace Congruential

/-- The source of two seeds. -/
def ofSeeds (octets numbers : Int) : Congruential :=
  ⟨.ofSeed octets, .ofSeed numbers⟩

/-- Some octets in a row, and the number they end at. -/
def octetsFrom : Nat → Residue → Octets × Residue
  | 0, x => ([], x)
  | n + 1, x =>
      let x := x.next
      let (rest, last) := octetsFrom n x
      (x.octet :: rest, last)

/-- Draws from two sequences. -/
def draws : Draws Congruential where
  octets n s :=
    let (octets, x) := octetsFrom n s.forOctets
    (octets, { s with forOctets := x })
  below n s :=
    let x := s.forNumbers.next
    (x.yield % n, { s with forNumbers := x })
  below_lt _ _ h := Nat.mod_lt _ h

end Congruential

end StakeLedger
