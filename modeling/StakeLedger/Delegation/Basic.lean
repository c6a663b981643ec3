/-!
# Delegations

A staker locks an amount in a staking transaction and delegates it to a finality
provider.  The delegation goes through states until it is unbonded or withdrawn.

Main definitions:

- {lit}`Delegation.State`: the states of a delegation.
- {lit}`Timelock`: a transaction that locks an amount for some blocks.
- {lit}`Delegation`: one delegation as the indexer knows it.
- {lit}`Delegation.isCountable`, {lit}`Delegation.isActive`: the states that counts and
  checks look for.

Main results:

- Theorem {lit}`Delegation.State.ofName?_name`: every state is found by its name.
-/

namespace StakeLedger

/-- The states of a delegation. -/
inductive Delegation.State where
  | active
  | unbondingRequested
  | unbonding
  | unbonded
  | withdrawn
deriving DecidableEq, Repr

namespace Delegation.State

/-- The name of a state in documents. -/
def name : State → String
  | .active => "active"
  | .unbondingRequested => "unbonding_requested"
  | .unbonding => "unbonding"
  | .unbonded => "unbonded"
  | .withdrawn => "withdrawn"

/-- All states. -/
def all : List State :=
  [.active, .unbondingRequested, .unbonding, .unbonded, .withdrawn]

/-- The state of a name. -/
def ofName? (name : String) : Option State :=
  all.find? fun s => s.name == name

/-- Every state is found by its name. -/
theorem ofName?_name (s : State) : ofName? s.name = some s := by
  cases s <;> decide

end Delegation.State

/-- A transaction that locks an amount: its text, the output that is locked, the
block that included it, and for how many blocks it is locked. -/
structure Timelock where
  txHex : String
  outputIndex : Int
  startTimestamp : Int
  startHeight : Int
  blocks : Int
deriving DecidableEq, Repr

/-- One delegation as the indexer knows it. -/
structure Delegation where
  txHash : String
  staker : String
  provider : String
  value : Int
  state : Delegation.State
  staking : Timelock
  unbonding : Option Timelock := none
  isOverflow : Bool := false
deriving DecidableEq, Repr

namespace Delegation

/-- When the delegation was made, in Unix seconds. -/
def createdAt (d : Delegation) : Int :=
  d.staking.startTimestamp

/-- Whether counts include the delegation: an unbonded one is over. -/
def isCountable (d : Delegation) : Bool :=
  d.state ≠ .unbonded

/-- Whether the delegation is active. -/
def isActive (d : Delegation) : Bool :=
  d.state = .active

end Delegation

end StakeLedger
