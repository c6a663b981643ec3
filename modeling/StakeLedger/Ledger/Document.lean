import StakeLedger.Ledger.Basic
import StakeLedger.Json.Reader
import StakeLedger.Json.Writer
import StakeLedger.Schema.Scalar

/-!
# Ledgers as documents

A ledger is kept in a file as a document with its rows and its mappings.  A cell is kept
as its text, or as the digits of its octets under a name that tells how they are marked.

Main definitions:

- {lit}`Ledger.toText`: the document of a ledger.
- {lit}`Ledger.ofText?`: the ledger of a document.
-/

namespace StakeLedger.Ledger

/-- A cell as a text or as named octets. -/
def Cell.toValue : Cell → Value
  | .text s => .text s
  | .garbled g => .dict [("garbled", .text (Hex.text g.val))]
  | .octets o => .dict [("octets", .text (Hex.text o))]

/-- The cell of a text or of named octets. -/
def Cell.ofValue? : Value → Option Cell
  | .text s => some (.text s)
  | .dict [("garbled", .text digits)] => do
      let o ← Hex.decode? digits.toList
      if h : Utf8.decode? o = none then some (.garbled ⟨o, h⟩) else none
  | .dict [("octets", .text digits)] => (Hex.decode? digits.toList).map .octets
  | _ => none

/-- A row as a list of its columns. -/
def Row.toValue (r : Row) : Value :=
  .list [.text r.txHash, .text r.staker, .text r.provider, .text r.state, .int r.height,
    .int r.timestamp, r.body.toValue]

/-- The row of a list of columns. -/
def Row.ofValue? : Value → Option Row
  | .list [.text txHash, .text staker, .text provider, .text state, .int height,
      .int timestamp, body] => do
      return ⟨txHash, staker, provider, state, height, timestamp, ← Cell.ofValue? body⟩
  | _ => none

/-- A mapping as a list of an address and a key. -/
def mappingValue (pair : String × Cell) : Value :=
  .list [.text pair.1, pair.2.toValue]

/-- The mapping of a list of an address and a key. -/
def mappingOf? : Value → Option (String × Cell)
  | .list [.text address, staker] => do return (address, ← Cell.ofValue? staker)
  | _ => none

/-- The document of a ledger. -/
def toText (l : Ledger) : String :=
  Json.render (.dict [("delegations", .list ((l.delegations.getD []).map Row.toValue)),
    ("mappings", .list ((l.mappings.getD []).map mappingValue))])

/-- The ledger of a document. -/
def ofText? (text : String) : Option Ledger := do
  match ← Json.parse? text with
  | .dict [("delegations", .list rows), ("mappings", .list pairs)] =>
      return {
        delegations := some (← rows.mapM Row.ofValue?)
        mappings := some (← pairs.mapM mappingOf?) }
  | _ => none

end StakeLedger.Ledger
