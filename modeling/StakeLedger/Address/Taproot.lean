import StakeLedger.Address.Segwit

/-!
# Taproot addresses

Stakers are known by Taproot addresses: witness version one and a program of
thirty-two octets, the x coordinate of the output key.

Main definitions:

- {lit}`Taproot.Address`: an accepted address in lower case with its program.
- {lit}`Taproot.decode`: the address of a text, or why it is none.
- {lit}`Taproot.encode?`: the address of an output key.
-/

namespace StakeLedger.Taproot

/-- Why a text is not a Taproot address of a network. -/
inductive Fault where
  | empty
  | segwit (fault : Segwit.Fault)
  | otherKind
deriving DecidableEq, Repr

/-- What is said of a fault. -/
def Fault.message : Fault → String
  | .empty => "address is required"
  | .segwit fault => s!"invalid BTC address: {fault.message}"
  | .otherKind => "address is not a Taproot address"

/-- A Taproot address: its lower-case text, its network and its program. -/
structure Address where
  text : String
  network : Network
  program : Octets
deriving DecidableEq

/-- The witness version of Taproot. -/
def version : Nat := 1

/-- How many octets an output key has. -/
def keyLength : Nat := 32

/-- The Taproot address that a text spells for a network. -/
def decode (text : String) (net : Network) : Except Fault Address :=
  if text = "" then .error .empty
  else
    match Segwit.decode text.toList net with
    | .error fault => .error (.segwit fault)
    | .ok witness =>
        if witness.version = version ∧ witness.program.length = keyLength then
          .ok ⟨String.ofList (text.toList.map Char.toLower), net, witness.program⟩
        else .error .otherKind

/-- Whether a text is a Taproot address of a network. -/
def isAddress (text : String) (net : Network) : Bool :=
  match decode text net with
  | .ok _ => true
  | .error _ => false

/-- The address of an output key, if it has the right length. -/
def encode? (key : Octets) (net : Network) : Option String :=
  if key.length = keyLength then
    (Segwit.encode? version key net).map String.ofList
  else none

/-- What is said of an output key of another length. -/
def keyLengthMessage : String :=
  s!"taproot output key must be {keyLength} bytes"

end StakeLedger.Taproot
