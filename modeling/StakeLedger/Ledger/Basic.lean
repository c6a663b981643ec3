import StakeLedger.Delegation.Document

/-!
# The ledger

The ledger keeps a table of delegations, one row for each transaction hash, and
a table of the staker keys behind Taproot addresses.  It can be closed, and its
tables can be gone; every access says so instead of answering.  The bodies of rows and the
keys of stakers are put in as texts, but a cell for text takes any octets.

Main definitions:

- {lit}`Ledger.Cell`: what a cell for text can hold.
- {lit}`Ledger`: both tables and whether the ledger is open.
- {lit}`Ledger.save`, {lit}`Ledger.put`, {lit}`Ledger.map`: writes.
- {lit}`Ledger.close`, {lit}`Ledger.drop`, {lit}`Ledger.reopen`: changes of condition.

Main results:

- Theorem {lit}`Ledger.mem_upsert`: the rows after a row was put in.
-/

namespace StakeLedger

/-- What a cell for text holds: a text, octets that are marked as text and spell none, or
octets that are marked as octets. -/
inductive Ledger.Cell where
  | text (s : String)
  | garbled (g : Utf8.Garbled)
  | octets (octets : Octets)
deriving DecidableEq, Repr

instance : Coe String Ledger.Cell where
  coe := .text

/-- A row of the table of delegations: the columns that look-ups use, and the
text of the whole delegation. -/
structure Ledger.Row where
  txHash : String
  staker : String
  provider : String
  state : String
  height : Int
  timestamp : Int
  body : Ledger.Cell
deriving DecidableEq, Repr

/-- The two tables. -/
inductive Ledger.Table where
  | delegations
  | mappings
deriving DecidableEq, Repr

/-- The name of a table in messages. -/
def Ledger.Table.name : Ledger.Table → String
  | .delegations => "delegations"
  | .mappings => "pk_address_mappings"

/-- Why the ledger could not complete an access. -/
inductive StorageFault where
  | closed
  | noTable (name : String)
  | undecodable (column : String) (octets : Octets)
  | damaged (schema : String) (faults : List Schema.Fault)
deriving DecidableEq, Repr

/-- The start of a message about octets that are no text, as far as it fits: they end at a
zero, and octets outside ASCII are told by a mark. -/
def StorageFault.undecodableMessage (column : String) (octets : Octets) : String :=
  let shown := (octets.takeWhile (· ≠ 0)).map fun b =>
    if b.toNat < 0x80 then Char.ofNat b.toNat else '\uFFFD'
  let text := s!"Could not decode to UTF-8 column '{column}' with text '".toList ++ shown ++ ['\'']
  String.ofList ((text.take 198).takeWhile (· ≠ '\n'))

/-- The first line that is said of a storage fault. -/
def StorageFault.message : StorageFault → String
  | .closed => "Cannot operate on a closed database."
  | .noTable name => s!"no such table: {name}"
  | .undecodable column octets => undecodableMessage column octets
  | .damaged schema faults => Schema.headline schema faults

/-- Why an access ended without a result. -/
inductive Ledger.Fault where
  | storage (fault : StorageFault)
  /-- A number does not fit in a column. -/
  | outOfRange
  /-- A page without items has no last one. -/
  | noLastItem
deriving DecidableEq, Repr

/-- The first line that is said of a fault. -/
def Ledger.Fault.message : Ledger.Fault → String
  | .storage fault => fault.message
  | .outOfRange => "Python int too large to convert to SQLite INTEGER"
  | .noLastItem => "list index out of range"

/-- Both tables, unless they are gone, and whether the ledger is open. -/
structure Ledger where
  delegations : Option (List Ledger.Row) := some []
  mappings : Option (List (String × Ledger.Cell)) := some []
  isOpen : Bool := true
deriving DecidableEq, Repr

namespace Ledger

/-- An open ledger with two empty tables. -/
def empty : Ledger := {}

/-- Whether a number fits in a column. -/
def fits (n : Int) : Bool :=
  -0x8000000000000000 ≤ n && n < 0x8000000000000000

/-- The rows of an open ledger that has its table of delegations. -/
def rows (l : Ledger) : Except Fault (List Row) :=
  if l.isOpen then
    match l.delegations with
    | some rows => .ok rows
    | none => .error (.storage (.noTable Table.delegations.name))
  else .error (.storage .closed)

/-- The mappings of an open ledger that has their table. -/
def mapped (l : Ledger) : Except Fault (List (String × Cell)) :=
  if l.isOpen then
    match l.mappings with
    | some pairs => .ok pairs
    | none => .error (.storage (.noTable Table.mappings.name))
  else .error (.storage .closed)

/-- The rows with one more, in place of the row with its hash. -/
def upsert (rows : List Row) (row : Row) : List Row :=
  row :: rows.filter fun r => r.txHash ≠ row.txHash

/-- The rows after a row was put in: that row, and the others with another
hash. -/
theorem mem_upsert (rows : List Row) (row r : Row) :
    r ∈ upsert rows row ↔ r = row ∨ (r ∈ rows ∧ r.txHash ≠ row.txHash) := by
  simp [upsert]

/-- Put a row in, whatever its body is. -/
def put (l : Ledger) (row : Row) : Except Fault Ledger :=
  match l.rows with
  | .error fault => .error fault
  | .ok rows =>
      if fits row.height && fits row.timestamp then
        .ok { l with delegations := some (upsert rows row) }
      else .error .outOfRange

/-- The row of a delegation. -/
def Row.ofDelegation (d : Delegation) : Row where
  txHash := d.txHash
  staker := d.staker
  provider := d.provider
  state := d.state.name
  height := d.staking.startHeight
  timestamp := d.staking.startTimestamp
  body := .text d.body

/-- Save a delegation. -/
def save (l : Ledger) (d : Delegation) : Except Fault Ledger :=
  l.put (Row.ofDelegation d)

/-- Map an address to the key of its staker. -/
def map (l : Ledger) (staker address : String) : Except Fault Ledger :=
  match l.mapped with
  | .error fault => .error fault
  | .ok pairs =>
      .ok { l with
        mappings := some ((address, .text staker) :: pairs.filter fun p => p.1 ≠ address) }

/-- Close the ledger. -/
def close (l : Ledger) : Ledger :=
  { l with isOpen := false }

/-- Remove a table by its name. -/
def drop (l : Ledger) (name : String) : Except Fault Ledger :=
  if !l.isOpen then .error (.storage .closed)
  else if name = Table.delegations.name ∧ l.delegations.isSome then
    .ok { l with delegations := none }
  else if name = Table.mappings.name ∧ l.mappings.isSome then
    .ok { l with mappings := none }
  else .error (.storage (.noTable name))

/-- Open a ledger that was kept in a file: missing tables are made anew. -/
def reopen (l : Ledger) : Ledger where
  delegations := some (l.delegations.getD [])
  mappings := some (l.mappings.getD [])
  isOpen := true

/-- Whether the ledger answers at all. -/
def ping (l : Ledger) : Except Fault Bool :=
  if l.isOpen then .ok true else .error (.storage .closed)

end Ledger

end StakeLedger
