import StakeLedger.Address.Bech32
import StakeLedger.Network

/-!
# Native segwit addresses

An address of a network is a witness version and a witness program behind the
network's human-readable part.  Version zero uses the plain checksum and the
others the modified one.

Main definitions:

- {lit}`Segwit.decode`: the version and program of an address, or the first fault.
- {lit}`Segwit.encode?`: the address of a version and a program.
-/

namespace StakeLedger.Segwit

/-- Why a text is not an address of a network. -/
inductive Fault where
  | text (fault : Bech32.Fault)
  | network (net : Network)
  | noData
  | version
  | program
  | plainChecksum
  | programLength
  | modifiedChecksum
deriving DecidableEq, Repr

/-- What is said of a fault. -/
def Fault.message : Fault → String
  | .text fault => fault.message
  | .network net => s!"address is not for network {net.name}"
  | .noData => "empty witness data"
  | .version => "invalid witness version"
  | .program => "invalid witness program"
  | .plainChecksum => "segwit v0 address must use bech32 checksum"
  | .programLength => "invalid segwit v0 program length"
  | .modifiedChecksum => "segwit v1+ address must use bech32m checksum"

/-- A witness version and program. -/
structure Witness where
  version : Nat
  program : Octets
deriving DecidableEq

/-- The highest witness version. -/
def maxVersion : Nat := 16

/-- The checksum variant of a witness version. -/
def variantFor (version : Int) : Bech32.Variant :=
  if version = 0 then .plain else .modified

/-- The witness of checked parts. -/
def ofParts (parts : Bech32.Parts) (net : Network) : Except Fault Witness :=
  if parts.hrp ≠ net.hrp.toList then .error (.network net)
  else
    match parts.words with
    | [] => .error .noData
    | version :: words =>
        if maxVersion < version.val then .error .version
        else
          match Word.toOctets? words with
          | none => .error .program
          | some program =>
              if program.length < 2 ∨ 40 < program.length then .error .program
              else if version.val = 0 then
                if parts.variant ≠ .plain then .error .plainChecksum
                else if program.length ≠ 20 ∧ program.length ≠ 32 then .error .programLength
                else .ok ⟨0, program⟩
              else if parts.variant ≠ .modified then .error .modifiedChecksum
              else .ok ⟨version.val, program⟩

/-- The witness of an address of a network. -/
def decode (text : List Char) (net : Network) : Except Fault Witness :=
  match Bech32.split text with
  | .error fault => .error (.text fault)
  | .ok parts => ofParts parts net

/-- The character that a version takes: versions below zero count from the end
of the characters, and there are thirty-two of them. -/
def versionChar? (version : Int) : Option Char :=
  if 0 ≤ version ∧ version < 32 then some (Word.toChar (Word.ofNat version.toNat))
  else if -32 ≤ version ∧ version < 0 then
    some (Word.toChar (Word.ofNat (version + 32).toNat))
  else none

/-- The address of a version and a program, unless the version has no
character. -/
def encode? (version : Int) (program : Octets) (net : Network) : Option (List Char) := do
  let first ← versionChar? version
  let hrp := net.hrp.toList
  let words := Word.ofOctets program
  let check := Bech32.checksum (variantFor version) hrp
    (BitVec.ofInt 30 version :: words.map Bech32.widen)
  return hrp ++ '1' :: first :: (words ++ check).map Word.toChar

end StakeLedger.Segwit
