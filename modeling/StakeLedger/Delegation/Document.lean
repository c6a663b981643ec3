import StakeLedger.Delegation.Basic
import StakeLedger.Schema.Scalar
import StakeLedger.Json.Reader
import StakeLedger.Json.Writer
import StakeLedger.Text.Utf8

/-!
# Delegations as documents

A delegation is stored and answered as a document with fixed keys.  Reading is
lenient about scalars and passes over unknown keys; writing gives every key.

Main definitions:

- {lit}`Delegation.ofValue`: the delegation of a document, or its faults.
- {lit}`Delegation.toValue`: the document of a delegation.
- {lit}`Delegation.ofBody`, {lit}`Delegation.body`: the same for the text that the ledger keeps.
- {lit}`Delegation.ofOctets`: the same where octets are kept in place of the text.
-/

namespace StakeLedger

open Schema

/-- The timelock of a document. -/
def Timelock.ofValue : Value → Checked Timelock :=
  Schema.fields fun fs =>
    Checked.ap (Checked.ap (Checked.ap (Checked.ap (Checked.ap (.ok Timelock.mk)
      (required fs "tx_hex" Schema.text))
      (required fs "output_index" Schema.int))
      (required fs "start_timestamp" Schema.int))
      (required fs "start_height" Schema.int))
      (required fs "timelock" Schema.int)

/-- The document of a timelock. -/
def Timelock.toValue (t : Timelock) : Value :=
  .dict [
    ("tx_hex", .text t.txHex),
    ("output_index", .int t.outputIndex),
    ("start_timestamp", .int t.startTimestamp),
    ("start_height", .int t.startHeight),
    ("timelock", .int t.blocks)]

namespace Delegation

/-- The state of a document. -/
def State.ofValue : Value → Checked State
  | .text s =>
      match State.ofName? s with
      | some state => .ok state
      | none => .fail .notListed
  | _ => .fail .notListed

/-- The delegation of a document, or all its faults. -/
def ofValue : Value → Checked Delegation :=
  Schema.fields fun fs =>
    Checked.ap (Checked.ap (Checked.ap (Checked.ap (Checked.ap (Checked.ap (Checked.ap
      (Checked.ap (.ok Delegation.mk)
      (required fs "staking_tx_hash_hex" Schema.text))
      (required fs "staker_pk_hex" Schema.text))
      (required fs "finality_provider_pk_hex" Schema.text))
      (required fs "staking_value" Schema.int))
      (required fs "state" State.ofValue))
      (required fs "staking_tx" Timelock.ofValue))
      (withDefault fs "unbonding_tx" none (nullable Timelock.ofValue)))
      (withDefault fs "is_overflow" false Schema.bool)

/-- The document of a delegation. -/
def toValue (d : Delegation) : Value :=
  .dict [
    ("staking_tx_hash_hex", .text d.txHash),
    ("staker_pk_hex", .text d.staker),
    ("finality_provider_pk_hex", .text d.provider),
    ("staking_value", .int d.value),
    ("state", .text d.state.name),
    ("staking_tx", d.staking.toValue),
    ("unbonding_tx", (d.unbonding.map Timelock.toValue).getD .null),
    ("is_overflow", .bool d.isOverflow)]

/-- The text that the ledger keeps for a delegation. -/
def body (d : Delegation) : String :=
  Json.render d.toValue

/-- The delegation of a kept text, or all its faults. -/
def ofBody (text : String) : Checked Delegation :=
  match Json.accept? text with
  | none => .fail .jsonInvalid
  | some v => ofValue v

/-- The delegation of octets that are kept in place of a text. -/
def ofOctets (octets : Octets) : Checked Delegation :=
  match Utf8.decode? octets with
  | none => .fail .jsonInvalid
  | some text => ofBody (String.ofList text)

/-- The name of the schema in messages. -/
def schemaName : String := "DelegationRecord"

end Delegation

end StakeLedger
