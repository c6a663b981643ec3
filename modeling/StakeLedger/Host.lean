import StakeLedger.Text.Hex
import StakeLedger.Text.Pieces

/-!
# Host addresses

A server listens at an address of four decimal octets or of eight hexadecimal
groups.  Groups may leave out one run of zeros, end in four octets, and be
followed by the name of a zone.

Main definitions:

- {lit}`Host.octets?`: the octets of an address of version four.
- {lit}`Host.groups?`: the groups of an address of version six.
- {lit}`Host.isAddress`: whether a text is an address of either version.
-/

namespace StakeLedger.Host

/-- The number of decimal digits. -/
def decimal (digits : List Char) : Nat :=
  digits.foldl (fun n c => 10 * n + (c.toNat - 48)) 0

/-- An octet in decimal digits without leading zeros. -/
def octet? (text : List Char) : Option Nat :=
  let wellFormed := text ≠ [] ∧ text.length ≤ 3 ∧ text.all Char.isDigit ∧
    (text.head? = some '0' → text = ['0'])
  if wellFormed ∧ decimal text ≤ 255 then some (decimal text) else none

/-- The four octets of an address of version four. -/
def octets? (text : List Char) : Option (List Nat) :=
  let parts := pieces '.' text
  if parts.length = 4 then parts.mapM octet? else none

/-- A group of at most four hexadecimal digits. -/
def group? (text : List Char) : Option Nat :=
  if text ≠ [] ∧ text.length ≤ 4 then
    (text.mapM Hex.value?).map fun digits => digits.foldl (fun n d => 16 * n + d) 0
  else none

/-- How many groups an address of version six has. -/
def groupCount : Nat := 8

/-- Pieces with octets at the end written as the two groups that they make. -/
def spellOctets? (parts : List (List Char)) : Option (List (List Char)) :=
  match parts.getLast? with
  | none => some parts
  | some last =>
      if last.contains '.' then
        (octets? last).map fun octets =>
          match octets with
          | [a, b, c, d] =>
              parts.dropLast ++ [Hex.padded 4 (256 * a + b), Hex.padded 4 (256 * c + d)]
          | _ => parts
      else some parts

/-- The positions of empty pieces that are neither the first nor the last one. -/
def gaps (parts : List (List Char)) : List Nat :=
  (List.range parts.length).filter fun i =>
    0 < i && i + 1 < parts.length && parts[i]? == some []

/-- The pieces before a gap.  One at the very beginning has an empty piece before
it, and no other may begin with one. -/
def beforeGap? (parts : List (List Char)) : Option (List (List Char)) :=
  match parts with
  | [[]] => some []
  | [] :: _ => none
  | _ => some parts

/-- The pieces behind a gap, by the same rule from the other end. -/
def behindGap? (parts : List (List Char)) : Option (List (List Char)) :=
  (beforeGap? parts.reverse).map List.reverse

/-- The groups of pieces, with zeros in the gap if there is one. -/
def groupsOf? (parts : List (List Char)) : Option (List Nat) :=
  match gaps parts with
  | [] => if parts.length = groupCount then parts.mapM group? else none
  | [i] => do
      let before ← beforeGap? (parts.take i)
      let behind ← behindGap? (parts.drop (i + 1))
      let count := before.length + behind.length
      if count < groupCount then
        let high ← before.mapM group?
        let low ← behind.mapM group?
        return high ++ List.replicate (groupCount - count) 0 ++ low
      else none
  | _ => none

/-- An address without its zone, if the zone has a name and no second sign of
one. -/
def withoutZone? (text : List Char) : Option (List Char) :=
  let zone := text.dropWhile (· ≠ '%')
  if zone = [] ∨ (zone.drop 1 ≠ [] ∧ !(zone.drop 1).contains '%') then
    some (text.takeWhile (· ≠ '%'))
  else none

/-- The eight groups of an address of version six. -/
def groups? (text : List Char) : Option (List Nat) :=
  if text.contains '/' then none
  else do
    let parts := pieces ':' (← withoutZone? text)
    if parts.length < 3 then none
    else
      let parts ← spellOctets? parts
      if parts.length ≤ groupCount + 1 then groupsOf? parts else none

/-- Whether a text is an address of either version. -/
def isAddress (text : String) : Bool :=
  (octets? text.toList).isSome || (groups? text.toList).isSome

end StakeLedger.Host
