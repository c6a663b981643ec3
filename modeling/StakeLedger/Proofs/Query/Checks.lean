import StakeLedger.Desk
import StakeLedger.Proofs.Query.Foreseen

/-!
# Checks come before reading

Whether a query is the fault of its client, and which fault it is, depends on its
arguments and on the network alone: the checks are made in a fixed order before the
ledger is touched.  Over a closed ledger everything that passes them fails alike, with
the fault of the ledger under the name of the operation and one line in the journal.

Main definitions:

- {lit}`Query.objection?`: the first fault in the arguments of a query.
- {lit}`Desk.ChecksFirst`: what is promised of the checks of a desk.

Main results:

- Theorem {lit}`Query.result_run_eq_client_iff`: queries are rejected for the faults in
  their arguments, whatever the ledger is.
- Theorem {lit}`Query.run_of_closed`: what becomes of the other queries over a closed
  ledger.
- Theorem {lit}`Desk.checks_first`: every desk checks first.
-/

namespace StakeLedger

open Journal

namespace Query

/-! ## Faults in the arguments -/

/-- What is wrong with the text of a public key, if anything is. -/
def keyObjection? (text : String) : Option ClientFault :=
  match PublicKey.normalize text with
  | .error fault => some (.publicKey fault)
  | .ok _ => none

/-- What is wrong with a pagination key, if anything is. -/
def cursorObjection? (text : String) : Option ClientFault :=
  if (Cursor.ofKey? text).isNone then some .paginationKey else none

/-- What is wrong with an address of a network, if anything is. -/
def addressObjection? (net : Network) (text : String) : Option ClientFault :=
  match Taproot.decode text net with
  | .error fault => some (.address fault)
  | .ok _ => none

/-- What is wrong with the name of a timeframe, if anything is. -/
def timeframeObjection? (text : String) : Option ClientFault :=
  if (Timeframe.ofText? text).isNone then some .timeframe else none

/-- What is wrong with the text of a hash, if anything is. -/
def hashObjection? (text : String) : Option ClientFault :=
  match TxHash.normalize text with
  | .error fault => some (.txHash fault)
  | .ok _ => none

/-- The first fault in the arguments of a query, if there is one: keys are checked
before pagination keys, and addresses before timeframes. -/
def objection? (net : Network) : Query → Option ClientFault
  | .listDelegations staker paginationKey =>
      (keyObjection? staker).or (cursorObjection? paginationKey)
  | .countStakers provider => keyObjection? provider
  | .countProviderDelegations provider => keyObjection? provider
  | .countStakerDelegations staker => keyObjection? staker
  | .checkActivity address timeframe =>
      (addressObjection? net address).or (timeframeObjection? timeframe)
  | .findDelegation txHash => hashObjection? txHash

/-! ## Rejected queries -/

/-- An outcome that is the fault of no client. -/
def NotClient (o : Outcome) : Prop :=
  ∀ fault, o.result ≠ .error (.client fault)

/-- A fault of the ledger is not that of a client. -/
theorem notClient_ofLedgerFault (op : Operation) (fault : Ledger.Fault) :
    NotClient (.ofLedgerFault op fault) := by
  intro client h
  cases fault <;> exact nomatch h

/-- A count over an access is not the fault of a client. -/
theorem notClient_countOver (op : Operation) (access : Except Ledger.Fault (List Delegation))
    (tally : List Delegation → Nat) : NotClient (countOver op access tally) := by
  cases access with
  | error fault => exact notClient_ofLedgerFault op fault
  | ok ds => exact fun _ h => nomatch h

/-- Rejected for an objection, or the fault of no client if there is none. -/
inductive Judged (objection : Option ClientFault) (o : Outcome) : Prop where
  | rejected {fault : ClientFault} (hobjection : objection = some fault)
      (hresult : o.result = .error (.client fault))
  | passed (hobjection : objection = none) (hresult : NotClient o)

/-- A judged outcome is a client's fault for its objection. -/
theorem Judged.result_eq_iff {objection : Option ClientFault} {o : Outcome}
    (h : Judged objection o) (fault : ClientFault) :
    o.result = .error (.client fault) ↔ objection = some fault := by
  cases h with
  | rejected hobjection hresult => rw [hobjection, hresult]; simp
  | passed hobjection hresult => simpa [hobjection] using hresult fault

/-- Tallies over a provider are judged by the key. -/
theorem judged_overProvider (op : Operation) (tally : List Delegation → Nat) (env : Setting)
    (provider : String) :
    Judged (keyObjection? provider) (overProvider op tally env provider) := by
  unfold keyObjection? overProvider
  cases PublicKey.normalize provider with
  | error fault => exact .rejected rfl rfl
  | ok key => exact .passed rfl (notClient_countOver op _ tally)

/-- Tallies over a staker are judged by the key. -/
theorem judged_overStaker (op : Operation) (tally : List Delegation → Nat) (env : Setting)
    (staker : String) : Judged (keyObjection? staker) (overStaker op tally env staker) := by
  unfold keyObjection? overStaker
  cases PublicKey.normalize staker with
  | error fault => exact .rejected rfl rfl
  | ok key => exact .passed rfl (notClient_countOver op _ tally)

/-- A listing is judged by the key of the staker and then by the pagination key. -/
theorem judged_listing (env : Setting) (staker paginationKey : String) :
    Judged ((keyObjection? staker).or (cursorObjection? paginationKey))
      (listing env staker paginationKey) := by
  unfold keyObjection? cursorObjection? listing
  cases PublicKey.normalize staker with
  | error fault => exact .rejected rfl rfl
  | ok key =>
      cases Cursor.ofKey? paginationKey with
      | none => exact .rejected rfl rfl
      | some cursor =>
          refine .passed rfl ?_
          dsimp only
          cases env.ledger.page key cursor env.pageSize with
          | error fault => exact notClient_ofLedgerFault _ fault
          | ok page => exact fun _ h => nomatch h

/-- A check of activity is judged by the address and then by the timeframe. -/
theorem judged_activity (env : Setting) (address timeframe : String) :
    Judged ((addressObjection? env.network address).or (timeframeObjection? timeframe))
      (activity env address timeframe) := by
  cases htaproot : Taproot.decode address env.network with
  | error fault =>
      simp only [addressObjection?, activity, htaproot]
      exact .rejected rfl rfl
  | ok taproot =>
      cases hframe : Timeframe.ofText? timeframe with
      | none =>
          simp only [addressObjection?, timeframeObjection?, activity, htaproot, hframe]
          exact .rejected rfl rfl
      | some frame =>
          simp only [addressObjection?, timeframeObjection?, activity, htaproot, hframe]
          refine .passed rfl ?_
          split
          · exact fun _ h => nomatch h
          split
          · exact notClient_ofLedgerFault _ _
          · exact fun _ h => nomatch h
          split
          · exact notClient_ofLedgerFault _ _
          · exact fun _ h => nomatch h

/-- A look-up is judged by the hash. -/
theorem judged_lookup (env : Setting) (txHash : String) :
    Judged (hashObjection? txHash) (lookup env txHash) := by
  unfold hashObjection? lookup
  cases TxHash.normalize txHash with
  | error fault => exact .rejected rfl rfl
  | ok hash =>
      refine .passed rfl ?_
      dsimp only
      split
      · exact notClient_ofLedgerFault _ _
      · exact fun _ h => nomatch h
      · exact fun _ h => nomatch h

/-- Every query is judged by its arguments and the network alone. -/
theorem judged_run (env : Setting) (q : Query) :
    Judged (q.objection? env.network) (q.run env) := by
  cases q with
  | listDelegations staker key => exact judged_listing env staker key
  | countStakers provider => exact judged_overProvider _ _ env provider
  | countProviderDelegations provider => exact judged_overProvider _ _ env provider
  | countStakerDelegations staker => exact judged_overStaker _ _ env staker
  | checkActivity address timeframe => exact judged_activity env address timeframe
  | findDelegation txHash => exact judged_lookup env txHash

/-- Queries are rejected for the faults in their arguments, whatever the ledger is. -/
theorem result_run_eq_client_iff (env : Setting) (q : Query) (fault : ClientFault) :
    (q.run env).result = .error (.client fault) ↔ q.objection? env.network = some fault :=
  (judged_run env q).result_eq_iff fault

/-! ## Closed ledgers -/

/-- The lines of an outcome that tell of an error. -/
def errors (o : Outcome) : List Entry :=
  o.entries.filter fun e => e.level = .error

/-- The line about an operation over a closed ledger. -/
def closedLine (op : Operation) : Entry :=
  ⟨.error, s!"{op.name}: storage query failed: {StorageFault.closed.message}"⟩

/-- An outcome of an operation whose access found the ledger closed, with one line about
that. -/
structure FoundClosed (op : Operation) (o : Outcome) : Prop where
  result : o.result = .error (.storage op .closed)
  errors : errors o = [closedLine op]

/-- The outcome of an access that found the ledger closed. -/
theorem foundClosed_ofLedgerFault (op : Operation) :
    FoundClosed op (.ofLedgerFault op (.storage .closed)) :=
  ⟨rfl, rfl⟩

/-- Notes before do not tell of an error. -/
theorem FoundClosed.after_note {op : Operation} {o : Outcome} (h : FoundClosed op o)
    (text : String) : FoundClosed op (o.after [note op text]) :=
  ⟨h.result, h.errors⟩

/-- What passes for a key has a normal form. -/
theorem exists_key {text : String} (h : keyObjection? text = none) :
    ∃ key, PublicKey.normalize text = .ok key := by
  unfold keyObjection? at h
  split at h
  · exact nomatch h
  · exact ⟨_, by assumption⟩

/-- What passes for a pagination key is that of a cursor. -/
theorem exists_cursor {text : String} (h : cursorObjection? text = none) :
    ∃ cursor, Cursor.ofKey? text = some cursor := by
  rw [← Option.ne_none_iff_exists']
  simpa [cursorObjection?] using h

/-- What passes for an address is one. -/
theorem exists_taproot {net : Network} {text : String} (h : addressObjection? net text = none) :
    ∃ taproot, Taproot.decode text net = .ok taproot := by
  unfold addressObjection? at h
  split at h
  · exact nomatch h
  · exact ⟨_, by assumption⟩

/-- What passes for a timeframe is one. -/
theorem exists_frame {text : String} (h : timeframeObjection? text = none) :
    ∃ frame, Timeframe.ofText? text = some frame := by
  rw [← Option.ne_none_iff_exists']
  simpa [timeframeObjection?] using h

/-- What passes for a hash has a normal form. -/
theorem exists_hash {text : String} (h : hashObjection? text = none) :
    ∃ hash, TxHash.normalize text = .ok hash := by
  unfold hashObjection? at h
  split at h
  · exact nomatch h
  · exact ⟨_, by assumption⟩

section Closed

variable {env : Setting} (hclosed : env.ledger.isOpen = false)

include hclosed

/-- The rows of a closed ledger cannot be reached. -/
theorem rows_of_closed : env.ledger.rows = .error (.storage .closed) := by
  simp [Ledger.rows, hclosed]

/-- A look-up in a closed ledger fails. -/
theorem select_of_closed (test : Ledger.Row → Bool) :
    env.ledger.select test = .error (.storage .closed) := by
  simp only [Ledger.select, rows_of_closed hclosed]

/-- Tallies over a provider find the ledger closed. -/
theorem closed_overProvider (op : Operation) (tally : List Delegation → Nat) {provider : String}
    (h : keyObjection? provider = none) :
    FoundClosed op (overProvider op tally env provider) := by
  obtain ⟨key, hkey⟩ := exists_key h
  simp only [overProvider, hkey, Ledger.ofProvider, select_of_closed hclosed, countOver]
  exact (foundClosed_ofLedgerFault op).after_note _

/-- Tallies over a staker find the ledger closed. -/
theorem closed_overStaker (op : Operation) (tally : List Delegation → Nat) {staker : String}
    (h : keyObjection? staker = none) :
    FoundClosed op (overStaker op tally env staker) := by
  obtain ⟨key, hkey⟩ := exists_key h
  simp only [overStaker, hkey, Ledger.ofStaker, select_of_closed hclosed, countOver]
  exact (foundClosed_ofLedgerFault op).after_note _

/-- A listing finds the ledger closed. -/
theorem closed_listing {staker paginationKey : String} (hstaker : keyObjection? staker = none)
    (hcursor : cursorObjection? paginationKey = none) :
    FoundClosed .listDelegations (listing env staker paginationKey) := by
  obtain ⟨key, hkey⟩ := exists_key hstaker
  obtain ⟨cursor, hcursor⟩ := exists_cursor hcursor
  simp only [listing, hkey, hcursor, Ledger.page, rows_of_closed hclosed]
  exact foundClosed_ofLedgerFault _

/-- In the years of the calendar a check of activity finds the ledger closed. -/
theorem closed_activity (hfirst : -62135596800 ≤ env.clock) (hlast : env.clock ≤ 253402300799)
    {address timeframe : String} (haddress : addressObjection? env.network address = none)
    (htimeframe : timeframeObjection? timeframe = none) :
    FoundClosed .checkActivity (activity env address timeframe) := by
  obtain ⟨taproot, htaproot⟩ := exists_taproot haddress
  obtain ⟨frame, hframe⟩ := exists_frame htimeframe
  obtain ⟨window, hwindow⟩ := exists_window frame hfirst hlast
  have hstaker : env.ledger.stakerOf? taproot.text = .error (.storage .closed) := by
    simp [Ledger.stakerOf?, Ledger.mapped, hclosed]
  simp only [activity, htaproot, hframe, hwindow, hstaker]
  exact foundClosed_ofLedgerFault _

/-- A look-up finds the ledger closed. -/
theorem closed_lookup {txHash : String} (h : hashObjection? txHash = none) :
    FoundClosed .findDelegation (lookup env txHash) := by
  obtain ⟨hash, hhash⟩ := exists_hash h
  simp only [lookup, hhash, Ledger.find?, rows_of_closed hclosed]
  exact foundClosed_ofLedgerFault _

/-- In the years of the calendar every query without a fault in its arguments finds the
ledger closed. -/
theorem run_of_closed (hfirst : -62135596800 ≤ env.clock) (hlast : env.clock ≤ 253402300799)
    {q : Query} (h : q.objection? env.network = none) : FoundClosed q.operation (q.run env) := by
  cases q with
  | listDelegations staker key =>
      obtain ⟨hstaker, hkey⟩ := Option.or_eq_none_iff.mp h
      exact closed_listing hclosed hstaker hkey
  | countStakers provider => exact closed_overProvider hclosed _ _ h
  | countProviderDelegations provider => exact closed_overProvider hclosed _ _ h
  | countStakerDelegations staker => exact closed_overStaker hclosed _ _ h
  | checkActivity address timeframe =>
      obtain ⟨haddress, htimeframe⟩ := Option.or_eq_none_iff.mp h
      exact closed_activity hclosed hfirst hlast haddress htimeframe
  | findDelegation txHash => exact closed_lookup hclosed h

end Closed

end Query

namespace Desk

/-- A desk over another ledger. -/
def onto (desk : Desk) (ledger : Ledger) : Desk :=
  { desk with ledger }

/-- What is promised of the checks of a desk for a query.  It is rejected for the first
fault in its arguments over every ledger, and so over two ledgers for the same one.
Without such a fault, and in the years of the calendar, a closed ledger makes it fail with
a fault that tells the operation and the cause, whose message says nothing of either, and
with one line about an error, under the name of the request. -/
structure ChecksFirst (desk : Desk) (clock : Int) (request : String) (q : Query) : Prop where
  rejected : ∀ ledger fault,
    ((desk.onto ledger).ask clock request q).1.result = .error (.client fault) ↔
      q.objection? desk.network = some fault
  alike : ∀ first second fault,
    ((desk.onto first).ask clock request q).1.result = .error (.client fault) ↔
      ((desk.onto second).ask clock request q).1.result = .error (.client fault)
  closed : -62135596800 ≤ clock → clock ≤ 253402300799 →
    ∀ ledger : Ledger, ledger.isOpen = false → q.objection? desk.network = none →
    ((desk.onto ledger).ask clock request q).1.result = .error (.storage q.operation .closed) ∧
      (QueryFault.storage q.operation .closed).message =
        "Failed to query delegations, please try again later" ∧
      Query.errors ((desk.onto ledger).ask clock request q).1 =
        [(Query.closedLine q.operation).ofRequest request]

/-- The lines of a desk about errors are those of the query, under the name of the
request. -/
theorem errors_ask (desk : Desk) (clock : Int) (request : String) (q : Query) :
    Query.errors (desk.ask clock request q).1 =
      (Query.errors (q.run (desk.setting clock))).map (Entry.ofRequest request) := by
  simp only [Query.errors, ask, outcome, List.filter_map]
  rfl

/-- Every desk checks first. -/
theorem checks_first (desk : Desk) (clock : Int) (request : String) (q : Query) :
    desk.ChecksFirst clock request q := by
  have hrejected (ledger : Ledger) (fault : ClientFault) :
      ((desk.onto ledger).ask clock request q).1.result = .error (.client fault) ↔
        q.objection? desk.network = some fault :=
    Query.result_run_eq_client_iff ((desk.onto ledger).setting clock) q fault
  refine ⟨hrejected, fun first second fault => ?_, fun hfirst hlast ledger hclosed hpassed => ?_⟩
  · rw [hrejected first fault, hrejected second fault]
  · have hfound := @Query.run_of_closed ((desk.onto ledger).setting clock) hclosed hfirst hlast q
      hpassed
    exact ⟨hfound.result, rfl, by rw [errors_ask, hfound.errors]; rfl⟩

/-- Of two bad keys the first one counts. -/
example : (Query.listDelegations "x" "y").objection? .signet = some (.publicKey .notHex) := by
  decide

end Desk

end StakeLedger
