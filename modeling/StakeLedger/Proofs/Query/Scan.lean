import Mathlib.Data.List.Forall2
import StakeLedger.Query.Basic

/-!
# What queries scan

Counts and checks of activity read all delegations of a key and tell how many these
were, but only if they end with an answer; a check of an address that no staker is
behind reads none.  Listings and look-ups by hash tell nothing.

Main definitions:

- {lit}`Ledger.matching`: how many rows an access reads.
- {lit}`Query.rowsRead`: how many rows a query reads.
- {lit}`Query.isMapped`: checks of the address of a known staker.

Main results:

- Theorem {lit}`Ledger.length_of_select`: a look-up reads every row that passes its test.
- Theorem {lit}`Query.scanned_run`: what the outcome of a query says about its scan.
-/

namespace StakeLedger

namespace Ledger

/-- How many rows pass a test; none are there to be read if the rows cannot be
reached. -/
def matching (l : Ledger) (test : Row → Bool) : Nat :=
  match l.rows with
  | .ok rows => rows.countP test
  | .error _ => 0

/-- What is made of the members of a list, one after the other. -/
theorem forall₂_of_mapM {α β : Type} {f : α → Except Fault β} {xs : List α} {ys : List β}
    (h : xs.mapM f = .ok ys) : List.Forall₂ (fun x y => f x = .ok y) xs ys := by
  induction xs generalizing ys with
  | nil =>
      obtain rfl := Except.ok.inj h
      exact .nil
  | cons x rest ih =>
      rw [List.mapM_cons] at h
      cases hx : f x with
      | error fault =>
          rw [hx] at h
          exact nomatch h
      | ok y =>
          cases hrest : rest.mapM f with
          | error fault =>
              rw [hx, hrest] at h
              exact nomatch h
          | ok more =>
              rw [hx, hrest] at h
              obtain rfl := Except.ok.inj h
              exact .cons hx (ih hrest)

/-- As many delegations are read as there are rows. -/
theorem length_of_readAll {rows : List Row} {ds : List Delegation} (h : readAll rows = .ok ds) :
    ds.length = rows.length := by
  cases hfetch : rows.mapM Row.fetch with
  | error fault =>
      rw [readAll, hfetch] at h
      exact nomatch h
  | ok bodies =>
      rw [readAll, hfetch] at h
      rw [← (forall₂_of_mapM h).length_eq, ← (forall₂_of_mapM hfetch).length_eq]

/-- A look-up reads every row that passes its test. -/
theorem length_of_select {l : Ledger} {test : Row → Bool} {ds : List Delegation}
    (h : l.select test = .ok ds) : ds.length = l.matching test := by
  unfold select at h
  split at h
  · exact nomatch h
  · rename_i rows hrows
    simp only [length_of_readAll h, newestFirst, List.length_mergeSort, matching, hrows,
      List.countP_eq_length_filter]

end Ledger

/-- The operations that count. -/
def Operation.counts : Operation → Bool
  | .countStakers => true
  | .countProviderDelegations => true
  | .countStakerDelegations => true
  | _ => false

namespace Query

/-- How many rows a count over the rows of a key reads. -/
def rowsOfKey (env : Setting) (column : Ledger.Row → String) (text : String) : Nat :=
  match PublicKey.normalize text with
  | .ok key => env.ledger.matching fun row => column row == key
  | .error _ => 0

/-- The staker behind an address, if the address is one and the staker is known. -/
def stakerBehind? (env : Setting) (address : String) : Option Ledger.Content :=
  match Taproot.decode address env.network with
  | .ok taproot => (env.ledger.stakerOf? taproot.text).toOption.join
  | .error _ => none

/-- How many rows a query reads for its tally. -/
def rowsRead (env : Setting) : Query → Nat
  | .countStakers provider => rowsOfKey env Ledger.Row.provider provider
  | .countProviderDelegations provider => rowsOfKey env Ledger.Row.provider provider
  | .countStakerDelegations staker => rowsOfKey env Ledger.Row.staker staker
  | .checkActivity address _ =>
      match stakerBehind? env address with
      | some staker => env.ledger.matching fun row => staker.isKey row.staker
      | none => 0
  | .listDelegations _ _ => 0
  | .findDelegation _ => 0

/-- Whether a query checks the address of a known staker. -/
def isMapped (env : Setting) : Query → Bool
  | .checkActivity address _ => (stakerBehind? env address).isSome
  | _ => false

/-- Whether a query tells what it scanned once it is answered. -/
def tells (env : Setting) (q : Query) : Bool :=
  q.operation.counts || q.isMapped env

/-- A count that is answered tells how many delegations it read. -/
theorem scanned_countOver (op : Operation) (l : Ledger) (test : Ledger.Row → Bool)
    (tally : List Delegation → Nat) :
    (countOver op (l.select test) tally).scanned =
      if (countOver op (l.select test) tally).result.isOk then some (l.matching test)
      else none := by
  cases hread : l.select test with
  | error fault => rfl
  | ok ds =>
      rw [← Ledger.length_of_select hread]
      rfl

/-- A count over a provider tells how many delegations it read, if it is answered. -/
theorem scanned_overProvider (op : Operation) (tally : List Delegation → Nat) (env : Setting)
    (provider : String) :
    (overProvider op tally env provider).scanned =
      if (overProvider op tally env provider).result.isOk then
        some (rowsOfKey env Ledger.Row.provider provider) else none := by
  unfold overProvider rowsOfKey
  cases PublicKey.normalize provider with
  | error fault => rfl
  | ok key => exact scanned_countOver op env.ledger _ tally

/-- A count over a staker tells how many delegations it read, if it is answered. -/
theorem scanned_overStaker (op : Operation) (tally : List Delegation → Nat) (env : Setting)
    (staker : String) :
    (overStaker op tally env staker).scanned =
      if (overStaker op tally env staker).result.isOk then
        some (rowsOfKey env Ledger.Row.staker staker) else none := by
  unfold overStaker rowsOfKey
  cases PublicKey.normalize staker with
  | error fault => rfl
  | ok key => exact scanned_countOver op env.ledger _ tally

/-- A listing tells nothing. -/
theorem scanned_listing (env : Setting) (staker paginationKey : String) :
    (listing env staker paginationKey).scanned = none := by
  unfold listing
  repeat' split
  all_goals rfl

/-- A look-up by hash tells nothing. -/
theorem scanned_lookup (env : Setting) (txHash : String) :
    (lookup env txHash).scanned = none := by
  unfold lookup
  repeat' split
  all_goals rfl

/-- A check of activity tells how many delegations it read, if it is answered and read
any; of an address that no staker is behind it answers without reading. -/
theorem scanned_activity (env : Setting) (address timeframe : String) :
    (activity env address timeframe).scanned =
      if (activity env address timeframe).result.isOk && (stakerBehind? env address).isSome then
        some ((checkActivity address timeframe).rowsRead env) else none := by
  cases htaproot : Taproot.decode address env.network with
  | error fault => simp only [activity, htaproot]; rfl
  | ok taproot =>
  have hbehind : stakerBehind? env address =
      (env.ledger.stakerOf? taproot.text).toOption.join := by
    rw [stakerBehind?, htaproot]
  cases hframe : Timeframe.ofText? timeframe with
  | none => simp only [activity, htaproot, hframe]; rfl
  | some frame =>
  cases hwindow : frame.window env.clock with
  | error fault => simp only [activity, htaproot, hframe, hwindow]; rfl
  | ok window =>
  cases hfound : env.ledger.stakerOf? taproot.text with
  | error fault => simp only [activity, htaproot, hframe, hwindow, hfound]; rfl
  | ok found =>
  rw [hfound] at hbehind
  cases found with
  | none =>
      simp only [activity, htaproot, hframe, hwindow, hfound, hbehind]
      rfl
  | some staker =>
  cases hread : env.ledger.ofKey staker with
  | error fault => simp only [activity, htaproot, hframe, hwindow, hfound, hread]; rfl
  | ok ds =>
      simp only [activity, htaproot, hframe, hwindow, hfound, hread, hbehind, rowsRead,
        Outcome.answer, Ledger.length_of_select hread]
      rfl

/-- Queries that tell what they scanned tell how many rows they read, if they are
answered; the others tell nothing. -/
theorem scanned_run (env : Setting) (q : Query) :
    (q.run env).scanned =
      if (q.run env).result.isOk && q.tells env then some (q.rowsRead env) else none := by
  cases q with
  | listDelegations staker key =>
      simpa [run, tells, operation, Operation.counts, isMapped] using scanned_listing env staker key
  | countStakers provider =>
      simpa [run, tells, operation, Operation.counts, rowsRead] using
        scanned_overProvider .countStakers Tally.stakers env provider
  | countProviderDelegations provider =>
      simpa [run, tells, operation, Operation.counts, rowsRead] using
        scanned_overProvider .countProviderDelegations Tally.delegations env provider
  | countStakerDelegations staker =>
      simpa [run, tells, operation, Operation.counts, rowsRead] using
        scanned_overStaker .countStakerDelegations Tally.delegations env staker
  | checkActivity address timeframe =>
      simpa [run, tells, operation, Operation.counts, isMapped] using
        scanned_activity env address timeframe
  | findDelegation txHash =>
      simpa [run, tells, operation, Operation.counts, isMapped] using scanned_lookup env txHash

end Query

end StakeLedger
