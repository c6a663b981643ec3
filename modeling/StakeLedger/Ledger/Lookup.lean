import StakeLedger.Ledger.Basic

/-!
# Reading the ledger

Delegations are listed with the greatest start height first, and of equal heights
with the greatest transaction hash first.  Each is read from the body of its row.
All bodies of an access are fetched before any of them is read: one that is marked as text
and spells none fails the whole access, and so does then one that does not fit its schema.

Main definitions:

- {lit}`Ledger.newestFirst`: rows in the order of listings.
- {lit}`Ledger.Cell.fetch`, {lit}`Ledger.Content`: what is answered for a cell.
- {lit}`Ledger.readAll`: the delegations of rows.
- {lit}`Ledger.ofStaker`, {lit}`Ledger.ofProvider`, {lit}`Ledger.find?`,
  {lit}`Ledger.stakerOf?`: look-ups.
-/

namespace StakeLedger.Ledger

/-- Whether a row comes before another one in listings. -/
def Row.precedes (a b : Row) : Bool :=
  decide (b.height < a.height) || (a.height == b.height && decide (b.txHash < a.txHash))

/-- Rows in the order of listings. -/
def newestFirst (rows : List Row) : List Row :=
  rows.mergeSort fun a b => !b.precedes a

/-- What is answered for a cell. -/
inductive Content where
  | text (s : String)
  | octets (octets : Octets)
deriving DecidableEq, Repr

/-- Fetch a cell of a column. -/
def Cell.fetch (column : String) : Cell → Except Fault Content
  | .text s => .ok (.text s)
  | .octets o => .ok (.octets o)
  | .garbled g => .error (.storage (.undecodable column g.val))

/-- The delegation of a body, or all its faults. -/
def Content.delegation : Content → Schema.Checked Delegation
  | .text s => Delegation.ofBody s
  | .octets o => Delegation.ofOctets o

/-- Read the delegation of a body. -/
def Content.read (body : Content) : Except Fault Delegation :=
  match body.delegation with
  | .ok d => .ok d
  | .error faults => .error (.storage (.damaged Delegation.schemaName faults))

/-- Fetch the body of a row. -/
def Row.fetch (row : Row) : Except Fault Content :=
  row.body.fetch "data"

/-- The delegation of a row, or the fault of its body. -/
def Row.read (row : Row) : Except Fault Delegation :=
  row.fetch.bind Content.read

/-- The delegations of rows, or a fault of one of their bodies. -/
def readAll (rows : List Row) : Except Fault (List Delegation) :=
  (rows.mapM Row.fetch).bind fun bodies => bodies.mapM Content.read

/-- All delegations whose rows pass a test, in the order of listings. -/
def select (l : Ledger) (test : Row → Bool) : Except Fault (List Delegation) :=
  match l.rows with
  | .error fault => .error fault
  | .ok rows => readAll (newestFirst (rows.filter test))

/-- All delegations of a staker. -/
def ofStaker (l : Ledger) (staker : String) : Except Fault (List Delegation) :=
  l.select fun row => row.staker == staker

/-- All delegations to a finality provider. -/
def ofProvider (l : Ledger) (provider : String) : Except Fault (List Delegation) :=
  l.select fun row => row.provider == provider

/-- The delegation of a transaction hash. -/
def find? (l : Ledger) (txHash : String) : Except Fault (Option Delegation) :=
  match l.rows with
  | .error fault => .error fault
  | .ok rows =>
      match rows.find? fun row => row.txHash == txHash with
      | none => .ok none
      | some row => row.read.map some

/-- Whether what is answered for a key is the key of a row; octets are the key of none. -/
def Content.isKey (key : Content) (column : String) : Bool :=
  match key with
  | .text s => column == s
  | .octets _ => false

/-- The key of the staker behind an address. -/
def stakerOf? (l : Ledger) (address : String) : Except Fault (Option Content) :=
  match l.mapped with
  | .error fault => .error fault
  | .ok pairs =>
      match pairs.lookup address with
      | none => .ok none
      | some cell => (cell.fetch "staker_pk_hex").map some

/-- All delegations of the staker behind an address. -/
def ofKey (l : Ledger) (key : Content) : Except Fault (List Delegation) :=
  l.select fun row => key.isKey row.staker

end StakeLedger.Ledger
