import StakeLedger.Curve.Secp256k1

/-!
# Keys and hashes

A client names a staker or a finality provider by a compressed public key in hexadecimal text,
and a delegation by the hash of its staking transaction, sixty-four hexadecimal digits.  Either
case is accepted, and the lower-case form is kept.  A private key is thirty-two octets whose
number is positive and below the order of the group.

Main definitions:

- {lit}`PublicKey.parse`: the octets of a public key, or why a text is none.
- {lit}`PublicKey.normalize`: the lower-case text of a public key.
- {lit}`TxHash.normalize`: the lower-case text of a hash, or why a text is none.
- {lit}`PrivateKey.publicKey`: the compressed public key of a private key.
-/

namespace StakeLedger

/-! ## Public keys -/

namespace PublicKey

/-- How many octets a compressed key has: one for the parity and thirty-two for
the x coordinate. -/
def compressedLength : Nat := 33

/-- Why a text is not a public key. -/
inductive Fault where
  | empty
  | notHex
  | length (octets : Nat)
deriving DecidableEq, Repr

/-- What is said of a fault. -/
def Fault.message : Fault → String
  | .empty => "public key is required"
  | .notHex => "public key is not valid hex"
  | .length octets =>
      s!"invalid public key length: expected {compressedLength} bytes, got {octets}"

/-- The octets of a key. -/
def parse (text : String) : Except Fault Octets :=
  if text = "" then .error .empty
  else
    match Hex.decode? text.toList with
    | none => .error .notHex
    | some octets =>
        if octets.length = compressedLength then .ok octets
        else .error (.length octets.length)

/-- The lower-case text of a key. -/
def normalize (text : String) : Except Fault String :=
  (parse text).map Hex.text

end PublicKey

/-! ## Hashes of transactions -/

namespace TxHash

/-- How many digits a hash has. -/
def digits : Nat := 64

/-- Why a text is not a hash. -/
inductive Fault where
  | empty
  | malformed
deriving DecidableEq, Repr

/-- What is said of a fault. -/
def Fault.message : Fault → String
  | .empty => "staking_tx_hash_hex is required"
  | .malformed => "invalid staking_tx_hash_hex"

/-- The lower-case text of a hash. -/
def normalize (text : String) : Except Fault String :=
  if text = "" then .error .empty
  else if text.toList.length = digits ∧ text.toList.all Hex.isDigit then
    .ok (String.ofList (text.toList.map Char.toLower))
  else .error .malformed

end TxHash

/-! ## Private keys -/

namespace PrivateKey

/-- How many octets a private key has. -/
def size : Nat := 32

/-- Why octets are not a private key. -/
inductive Fault where
  | length (octets : Nat)
  | range
deriving DecidableEq, Repr

/-- What is said of a fault. -/
def Fault.message : Fault → String
  | .length octets => s!"Invalid length of private key, received {octets}, expected {size}"
  | .range =>
      s!"Invalid value for secexp, expected integer between 1 and {Secp256k1.groupOrder}"

/-- The compressed public key of a private key. -/
def publicKey (octets : Octets) : Except Fault Octets :=
  if octets.length ≠ size then .error (.length octets.length)
  else
    let n := Secp256k1.ofOctets octets
    if n = 0 ∨ Secp256k1.groupOrder ≤ n then .error .range
    else .ok (Secp256k1.compress (Secp256k1.scale n Secp256k1.generator))

end PrivateKey

end StakeLedger
