import StakeLedger.Metrics

/-!
# The desk

The desk answers queries over a ledger and accounts for them.  Its journal lines
carry the name of the request that they belong to.

Main definitions:

- {lit}`Desk`: the ledger, the network, the page size and the metrics.
- {lit}`Desk.ask`: answer a query.
- {lit}`Desk.walk`: follow the pages of a listing.
- {lit}`Desk.health`: whether the ledger answers.
-/

namespace StakeLedger

open Journal

/-- What answers queries, and what it has accounted for. -/
structure Desk where
  ledger : Ledger := {}
  network : Network := .mainnet
  pageSize : Int := 100
  metrics : Metrics := {}

namespace Desk

/-- What a query is asked of at a time of the clock. -/
def setting (d : Desk) (clock : Int) : Setting where
  ledger := d.ledger
  network := d.network
  pageSize := d.pageSize
  clock := clock

/-- The outcome of a query of a request. -/
def outcome (d : Desk) (clock : Int) (request : String) (q : Query) : Outcome :=
  let o := q.run (d.setting clock)
  { o with entries := o.entries.map (Entry.ofRequest request) }

/-- Answer a query of a request: its outcome, and the desk that has accounted for
it. -/
def ask (d : Desk) (clock : Int) (request : String) (q : Query) : Outcome × Desk :=
  let o := d.outcome clock request q
  (o, { d with metrics := d.metrics.record q.operation o })

/-- The pages of a walk, the journal lines on the way, and the fault at its end
if there is one. -/
structure Walk where
  pages : List Page := []
  entries : List Entry := []
  fault : Option QueryFault := none

/-- Follow the pages of a staker's delegations from a key on, for at most a
number of pages. -/
def walk (clock : Int) (request staker : String) : Nat → String → Desk → Walk × Desk
  | 0, _, d => ({}, d)
  | more + 1, key, d =>
      let (o, d) := d.ask clock request (.listDelegations staker key)
      match o.result with
      | .error fault => ({ entries := o.entries, fault := some fault }, d)
      | .ok (.page page) =>
          if page.hasMore then
            let (rest, d) := walk clock request staker more page.nextKey d
            ({ rest with pages := page :: rest.pages, entries := o.entries ++ rest.entries }, d)
          else ({ pages := [page], entries := o.entries }, d)
      | .ok _ => ({ entries := o.entries }, d)

/-- Whether the ledger answers, and a line if it does not. -/
def health (d : Desk) : Bool × List Entry :=
  match d.ledger.ping with
  | .ok answer => (answer, [])
  | .error (.storage fault) => (false, [⟨.error, s!"Health check failed: {fault.message}"⟩])
  | .error _ => (false, [])

end Desk

end StakeLedger
