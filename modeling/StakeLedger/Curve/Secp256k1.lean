import StakeLedger.Text.Hex

/-!
# The curve of Bitcoin keys

Points of {lit}`y ^ 2 = x ^ 3 + 7` over a prime field, in projective coordinates of
weights two and three, so that one inversion at the end is enough.

Main definitions:

- {lit}`Secp256k1.Point`: a point in weighted coordinates, and its group operations.
- {lit}`Secp256k1.scale`: a multiple of a point.
- {lit}`Secp256k1.compress`: the parity and x coordinate of a point.
-/

namespace StakeLedger.Secp256k1

/-- The order of the field. -/
def fieldOrder : Nat :=
  0xFFFFFFFFFFFFFFFFFFFFFFFFFFFFFFFFFFFFFFFFFFFFFFFFFFFFFFFEFFFFFC2F

/-- The order of the group. -/
def groupOrder : Nat :=
  0xFFFFFFFFFFFFFFFFFFFFFFFFFFFFFFFEBAAEDCE6AF48A03BBFD25E8CD0364141

/-- The point {lit}`(x / z ^ 2, y / z ^ 3)`; with {lit}`z = 0` the neutral point. -/
structure Point where
  x : Nat
  y : Nat
  z : Nat
deriving DecidableEq

/-- The neutral point. -/
def neutral : Point := ⟨1, 1, 0⟩

/-- The generator of the group. -/
def generator : Point where
  x := 0x79BE667EF9DCBBAC55A06295CE870B07029BFCDB2DCE28D959F2815B16F81798
  y := 0x483ADA7726A3C4655DA4FBFC0E1108A8FD17B448A68554199C47D08FFB10D4B8
  z := 1

/-- Difference in the field. -/
def fsub (a b : Nat) : Nat := (a + (fieldOrder - b % fieldOrder)) % fieldOrder

/-- Product in the field. -/
def fmul (a b : Nat) : Nat := a * b % fieldOrder

/-- Power in the field, from the bits of the exponent, the highest first. -/
def fpow (a : Nat) (bits : List Bool) : Nat :=
  bits.foldl (fun r b => let s := fmul r r; if b then fmul s a else s) 1

/-- The bits of a number of at most 256 bits, the highest first. -/
def scalarBits (n : Nat) : List Bool :=
  (List.range 256).reverse.map n.testBit

/-- Inverse in the field; zero has itself. -/
def finv (a : Nat) : Nat :=
  fpow a (scalarBits (fieldOrder - 2))

/-- Twice a point. -/
def double (p : Point) : Point :=
  if p.z = 0 ∨ p.y = 0 then neutral
  else
    let yy := fmul p.y p.y
    let s := fmul 4 (fmul p.x yy)
    let m := fmul 3 (fmul p.x p.x)
    let x := fsub (fmul m m) (fmul 2 s)
    let y := fsub (fmul m (fsub s x)) (fmul 8 (fmul yy yy))
    ⟨x, y, fmul 2 (fmul p.y p.z)⟩

/-- The sum of two points. -/
def add (p q : Point) : Point :=
  if p.z = 0 then q
  else if q.z = 0 then p
  else
    let pp := fmul p.z p.z
    let qq := fmul q.z q.z
    let u := fmul p.x qq
    let v := fmul q.x pp
    let s := fmul p.y (fmul qq q.z)
    let t := fmul q.y (fmul pp p.z)
    if u = v then if s = t then double p else neutral
    else
      let h := fsub v u
      let r := fsub t s
      let hh := fmul h h
      let hhh := fmul hh h
      let w := fmul u hh
      let x := fsub (fsub (fmul r r) hhh) (fmul 2 w)
      let y := fsub (fmul r (fsub w x)) (fmul s hhh)
      ⟨x, y, fmul h (fmul p.z q.z)⟩

/-- The multiple of a point by a number of at most 256 bits. -/
def scale (n : Nat) (p : Point) : Point :=
  (scalarBits n).foldl (fun sum b => let d := double sum; if b then add d p else d) neutral

/-- A number as octets, the highest first. -/
def octets (length n : Nat) : Octets :=
  (List.range length).reverse.map fun i => UInt8.ofNat (n >>> (8 * i))

/-- The number of octets, the highest first. -/
def ofOctets (bytes : Octets) : Nat :=
  bytes.foldl (fun n b => 256 * n + b.toNat) 0

/-- The parity of y and the x coordinate of a point. -/
def compress (p : Point) : Octets :=
  let inverse := finv p.z
  let square := fmul inverse inverse
  let x := fmul p.x square
  let y := fmul p.y (fmul square inverse)
  UInt8.ofNat (2 + y % 2) :: octets 32 x

end StakeLedger.Secp256k1
