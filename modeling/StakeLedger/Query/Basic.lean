import StakeLedger.Query.Fault
import StakeLedger.Ledger.Page
import StakeLedger.Journal

/-!
# Queries

A query is checked, then read from the ledger, then tallied.  Checks never touch
the ledger, and faults of the ledger are answered as a whole, never in part.

Main definitions:

- {lit}`Query`: what a client asks for.
- {lit}`Answer`: what it is told.
- {lit}`Outcome`: an answer or a fault, with the journal lines on the way and the
  number of delegations that were scanned.
- {lit}`Query.run`: the outcome of a query over a ledger.
-/

namespace StakeLedger

open Journal

/-- What a client asks for. -/
inductive Query where
  | listDelegations (staker paginationKey : String)
  | countStakers (provider : String)
  | countProviderDelegations (provider : String)
  | countStakerDelegations (staker : String)
  | checkActivity (address timeframe : String)
  | findDelegation (txHash : String)
deriving DecidableEq, Repr

/-- The operation of a query. -/
def Query.operation : Query → Operation
  | .listDelegations _ _ => .listDelegations
  | .countStakers _ => .countStakers
  | .countProviderDelegations _ => .countProviderDelegations
  | .countStakerDelegations _ => .countStakerDelegations
  | .checkActivity _ _ => .checkActivity
  | .findDelegation _ => .findDelegation

/-- What a client is told. -/
inductive Answer where
  | page (p : Page)
  | count (n : Nat)
  | verdict (b : Bool)
  | delegation (d : Delegation)
deriving DecidableEq, Repr

/-- An answer or a fault, the journal lines on the way, and how many delegations
were scanned if that is accounted for. -/
structure Outcome where
  result : Except QueryFault Answer
  entries : List Entry := []
  scanned : Option Nat := none

namespace Outcome

/-- A fault without further traces. -/
def fail (fault : QueryFault) : Outcome :=
  { result := .error fault }

/-- A fault of a client. -/
def reject (fault : ClientFault) : Outcome :=
  fail (.client fault)

/-- An answer with journal lines. -/
def answer (a : Answer) (entries : List Entry := []) (scanned : Option Nat := none) : Outcome :=
  { result := .ok a, entries, scanned }

/-- The outcome with journal lines before its own. -/
def after (entries : List Entry) (o : Outcome) : Outcome :=
  { o with entries := entries ++ o.entries }

/-- The outcome of an access that had a fault.  Storage faults leave a line. -/
def ofLedgerFault (op : Operation) (fault : Ledger.Fault) : Outcome where
  result := .error (.ofLedger op fault)
  entries :=
    match fault with
    | .storage cause => [⟨.error, s!"{op.name}: storage query failed: {cause.message}"⟩]
    | _ => []

end Outcome

/-- A truth value as journal lines spell it. -/
def truth (b : Bool) : String :=
  if b then "True" else "False"

/-- What queries are asked of: the ledger, the network of its addresses, the
number of delegations on a page, and the clock. -/
structure Setting where
  ledger : Ledger
  network : Network
  pageSize : Int
  clock : Int

namespace Query

/-- A line of an operation. -/
def note (op : Operation) (text : String) : Entry :=
  ⟨.debug, s!"{op.name}: {text}"⟩

/-- Count over the delegations of an access. -/
def countOver (op : Operation) (access : Except Ledger.Fault (List Delegation))
    (tally : List Delegation → Nat) : Outcome :=
  match access with
  | .error fault => .ofLedgerFault op fault
  | .ok ds =>
      .answer (.count (tally ds)) [note op s!"delegations len:{ds.length}"] (some ds.length)

/-- A page of the delegations of a staker. -/
def listing (env : Setting) (staker paginationKey : String) : Outcome :=
  let op := Operation.listDelegations
  match PublicKey.normalize staker with
  | .error fault => .reject (.publicKey fault)
  | .ok key =>
      match Cursor.ofKey? paginationKey with
      | none => .reject .paginationKey
      | some cursor =>
          match env.ledger.page key cursor env.pageSize with
          | .error fault => .ofLedgerFault op fault
          | .ok page =>
              .answer (.page page)
                [note op
                  s!"staker:{key} returned:{page.items.length} has_more:{truth page.hasMore}"]

/-- A tally over the delegations to a provider. -/
def overProvider (op : Operation) (tally : List Delegation → Nat) (env : Setting)
    (provider : String) : Outcome :=
  match PublicKey.normalize provider with
  | .error fault => .reject (.publicKey fault)
  | .ok key =>
      (countOver op (env.ledger.ofProvider key) tally).after
        [note op s!"finalityProviderPkHex:{key}"]

/-- A tally over the delegations of a staker. -/
def overStaker (op : Operation) (tally : List Delegation → Nat) (env : Setting)
    (staker : String) : Outcome :=
  match PublicKey.normalize staker with
  | .error fault => .reject (.publicKey fault)
  | .ok key =>
      (countOver op (env.ledger.ofStaker key) tally).after [note op s!"stakerPkHex:{key}"]

/-- Whether the staker behind an address has an active delegation in a window. -/
def activity (env : Setting) (address timeframe : String) : Outcome :=
  let op := Operation.checkActivity
  match Taproot.decode address env.network with
  | .error fault => .reject (.address fault)
  | .ok taproot =>
      match Timeframe.ofText? timeframe with
      | none => .reject .timeframe
      | some frame =>
          match frame.window env.clock with
          | .error _ => .fail (.internal .dateRange)
          | .ok window =>
              match env.ledger.stakerOf? taproot.text with
              | .error fault => .ofLedgerFault op fault
              | .ok none =>
                  .answer (.verdict false)
                    [note op s!"no staker known for address {taproot.text}"]
              | .ok (some staker) =>
                  match env.ledger.ofKey staker with
                  | .error fault => .ofLedgerFault op fault
                  | .ok ds =>
                      let found := Tally.hasActive ds window
                      .answer (.verdict found)
                        [note op (s!"address:{taproot.text} after:{window.lowerBound} " ++
                          s!"exists:{truth found}")]
                        (some ds.length)

/-- The delegation of a transaction hash. -/
def lookup (env : Setting) (txHash : String) : Outcome :=
  let op := Operation.findDelegation
  match TxHash.normalize txHash with
  | .error fault => .reject (.txHash fault)
  | .ok hash =>
      match env.ledger.find? hash with
      | .error fault => .ofLedgerFault op fault
      | .ok none => .fail .notFound
      | .ok (some d) => .answer (.delegation d)

/-- The outcome of a query. -/
def run (env : Setting) : Query → Outcome
  | .listDelegations staker key => listing env staker key
  | .countStakers provider => overProvider .countStakers Tally.stakers env provider
  | .countProviderDelegations provider =>
      overProvider .countProviderDelegations Tally.delegations env provider
  | .countStakerDelegations staker =>
      overStaker .countStakerDelegations Tally.delegations env staker
  | .checkActivity address timeframe => activity env address timeframe
  | .findDelegation txHash => lookup env txHash

end Query

end StakeLedger
