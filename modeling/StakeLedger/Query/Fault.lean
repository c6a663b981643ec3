import StakeLedger.Ledger.Basic
import StakeLedger.Key
import StakeLedger.Address.Taproot
import StakeLedger.Timeframe

/-!
# Faults of queries

A query ends with a fault of its client, because nothing was found, because the
ledger could not complete it, or with an internal fault that nobody expects.

Main definitions:

- {lit}`Operation`: the six operations.
- {lit}`ClientFault`, {lit}`QueryFault`: why a query has no answer.
- {lit}`QueryFault.label`, {lit}`QueryFault.message`, {lit}`QueryFault.status?`: how
  faults are shown.
-/

namespace StakeLedger

/-- The operations that queries perform. -/
inductive Operation where
  | listDelegations
  | countStakers
  | countProviderDelegations
  | countStakerDelegations
  | checkActivity
  | findDelegation
deriving DecidableEq, Repr

/-- The name of an operation in log lines, metrics and answers. -/
def Operation.name : Operation → String
  | .listDelegations => "delegations_by_staker_pk"
  | .countStakers => "staker_count_by_finality_provider"
  | .countProviderDelegations => "delegations_count_by_finality_provider"
  | .countStakerDelegations => "delegations_count_by_staker_pk"
  | .checkActivity => "check_staker_has_active_delegation"
  | .findDelegation => "delegation_by_tx_hash"

/-- All operations. -/
def Operation.all : List Operation :=
  [.listDelegations, .countStakers, .countProviderDelegations, .countStakerDelegations,
    .checkActivity, .findDelegation]

/-- What a client did wrong. -/
inductive ClientFault where
  | publicKey (fault : PublicKey.Fault)
  | address (fault : Taproot.Fault)
  | paginationKey
  | timeframe
  | txHash (fault : TxHash.Fault)
deriving DecidableEq, Repr

namespace ClientFault

/-- The name of a client fault in metrics and answers. -/
def label : ClientFault → String
  | .publicKey _ => "InvalidPublicKey"
  | .address _ => "InvalidAddress"
  | .paginationKey => "InvalidPaginationKey"
  | .timeframe => "InvalidTimeframe"
  | .txHash _ => "InvalidTxHash"

/-- What is said of a client fault. -/
def message : ClientFault → String
  | .publicKey fault => fault.message
  | .address fault => fault.message
  | .paginationKey => "invalid pagination key format"
  | .timeframe => Timeframe.unknownMessage
  | .txHash fault => fault.message

end ClientFault

/-- A fault that no layer expects. -/
inductive InternalFault where
  | outOfRange
  | noLastItem
  | dateRange
deriving DecidableEq, Repr

namespace InternalFault

/-- The name of an internal fault in metrics and answers. -/
def label : InternalFault → String
  | .outOfRange => "OverflowError"
  | .noLastItem => "IndexError"
  | .dateRange => "OverflowError"

/-- What is said of an internal fault. -/
def message : InternalFault → String
  | .outOfRange => Ledger.Fault.outOfRange.message
  | .noLastItem => Ledger.Fault.noLastItem.message
  | .dateRange => Calendar.Fault.dateRange.message

end InternalFault

/-- Why a query has no answer. -/
inductive QueryFault where
  | client (fault : ClientFault)
  | notFound
  | storage (operation : Operation) (cause : StorageFault)
  | internal (fault : InternalFault)
deriving DecidableEq, Repr

namespace QueryFault

/-- The name of a fault in metrics and answers. -/
def label : QueryFault → String
  | .client fault => fault.label
  | .notFound => "NotFound"
  | .storage _ _ => "UpstreamQueryFailed"
  | .internal fault => fault.label

/-- What is said of a fault; of the ledger's own faults clients learn nothing. -/
def message : QueryFault → String
  | .client fault => fault.message
  | .notFound => "staking delegation not found, please retry"
  | .storage _ _ => "Failed to query delegations, please try again later"
  | .internal fault => fault.message

/-- The code and the status of a fault in responses; an internal one has none. -/
def status? : QueryFault → Option (String × Nat)
  | .client _ => some ("BAD_REQUEST", 400)
  | .notFound => some ("NOT_FOUND", 404)
  | .storage _ _ => some ("INTERNAL_SERVICE_ERROR", 500)
  | .internal _ => none

/-- The fault of an operation whose access to the ledger had a fault. -/
def ofLedger (op : Operation) : Ledger.Fault → QueryFault
  | .storage cause => .storage op cause
  | .outOfRange => .internal .outOfRange
  | .noLastItem => .internal .noLastItem

end QueryFault

end StakeLedger
