import StakeLedger.Proofs.Delegation.Tally
import StakeLedger.Proofs.Desk.Walk
import StakeLedger.Proofs.Query.Scan

/-!
# Answers are made of all rows or not at all

A table may be gone, and the cells of its rows may hold anything.  A query that tallies the rows
of a key is answered if every one of them spells a delegation, and then from all of them; one
that does not makes the query fail as a whole, wherever it stands among the others, and rows of
other keys do not matter.  A row whose text is none comes before those that do not fit.  A page
is given only if its rows and the one behind them all spell delegations.

Main definitions:

- {lit}`Ledger.Row.Sound`, {lit}`Ledger.Row.HasFault`: rows that spell delegations, and what is
  wrong with the others.
- {lit}`Ledger.ReadsAll`: what becomes of reading some rows.
- {lit}`Query.NeverPartial`, {lit}`Query.Whole`: what is promised of answers that are made of
  rows.
- {lit}`Desk.NeverPartial`: the same for all queries of a desk.

Main results:

- Theorem {lit}`Ledger.readsAll_readAll`: rows are read together or not at all.
- Theorem {lit}`Query.whole_madeOf`: an answer that is made of what was read is whole.
- Theorem {lit}`Desk.never_partial`: no desk answers from a part of its rows.
-/

namespace StakeLedger

namespace Ledger

/-! ## Reading rows -/

/-- The delegation that a row spells. -/
def Row.delegation? (row : Row) : Option Delegation :=
  row.read.toOption

/-- A row that spells a delegation. -/
def Row.Sound (row : Row) : Prop :=
  ∃ d, row.read = .ok d

/-- A row whose body is marked as text and spells none. -/
def Row.IsGarbled (row : Row) : Prop :=
  ∃ g, row.body = .garbled g

/-- What is wrong with the body of a row: it cannot be fetched, or it does not fit the schema of
delegations. -/
inductive Row.HasFault (row : Row) : StorageFault → Prop where
  | garbled {g : Utf8.Garbled} (hbody : row.body = .garbled g) :
      HasFault row (.undecodable "data" g.val)
  | damaged {content : Content} {faults : List Schema.Fault} (hfetch : row.fetch = .ok content)
      (hfaults : content.delegation = .error faults) :
      HasFault row (.damaged Delegation.schemaName faults)

/-- What becomes of reading some rows: they are read if all of them are sound, and otherwise the
fault of one of them is told, of one that cannot be fetched if there is any. -/
inductive ReadsAll (rows : List Row) : Except Fault (List Delegation) → Prop where
  | whole (hsound : ∀ row ∈ rows, row.Sound) :
      ReadsAll rows (.ok (rows.filterMap Row.delegation?))
  | faulty {row : Row} {cause : StorageFault} (hrow : row ∈ rows) (hfault : row.HasFault cause)
      (hfirst : (∃ other ∈ rows, other.IsGarbled) → row.IsGarbled) :
      ReadsAll rows (.error (.storage cause))

/-- A row that is not fetched is garbled. -/
theorem Row.garbled_of_fetch {row : Row} {fault : Fault} (h : row.fetch = .error fault) :
    ∃ g, row.body = .garbled g ∧ fault = .storage (.undecodable "data" g.val) := by
  rw [Row.fetch] at h
  cases hbody : row.body with
  | text s =>
      rw [hbody, Cell.fetch] at h
      exact nomatch h
  | octets o =>
      rw [hbody, Cell.fetch] at h
      exact nomatch h
  | garbled g =>
      rw [hbody, Cell.fetch] at h
      exact ⟨g, rfl, (Except.error.inj h).symm⟩

/-- A row that is garbled is not fetched. -/
theorem Row.IsGarbled.fetch_ne {row : Row} (h : row.IsGarbled) (content : Content) :
    row.fetch ≠ .ok content := by
  obtain ⟨g, hbody⟩ := h
  rw [Row.fetch, hbody, Cell.fetch]
  exact nofun

/-- A row that was fetched and is not read does not fit the schema. -/
theorem Row.hasFault_of_read {row : Row} {content : Content} {fault : Fault}
    (hfetch : row.fetch = .ok content) (h : row.read = .error fault) :
    ∃ cause, row.HasFault cause ∧ fault = .storage cause := by
  rw [Row.read, hfetch] at h
  change content.read = .error fault at h
  unfold Content.read at h
  split at h
  · cases h
  · next faults hfaults =>
    exact ⟨_, .damaged hfetch hfaults, (Except.error.inj h).symm⟩

/-- A row that is not read has a fault. -/
theorem Row.hasFault_of_read_error {row : Row} {fault : Fault} (h : row.read = .error fault) :
    ∃ cause, row.HasFault cause ∧ fault = .storage cause := by
  cases hfetch : row.fetch with
  | ok content => exact Row.hasFault_of_read hfetch h
  | error other =>
      obtain ⟨g, hbody, rfl⟩ := Row.garbled_of_fetch hfetch
      rw [Row.read, hfetch] at h
      exact ⟨_, .garbled hbody, (Except.error.inj h).symm⟩

/-- A row with a fault is not read. -/
theorem Row.HasFault.read_eq {row : Row} {cause : StorageFault} (h : row.HasFault cause) :
    row.read = .error (.storage cause) := by
  rw [Row.read]
  cases h with
  | garbled hbody =>
      rw [Row.fetch, hbody]
      rfl
  | damaged hfetch hfaults =>
      rw [hfetch]
      change Content.read _ = _
      rw [Content.read, hfaults]

/-- A row with a fault is not sound. -/
theorem Row.HasFault.not_sound {row : Row} {cause : StorageFault} (h : row.HasFault cause) :
    ¬row.Sound := by
  rintro ⟨d, hd⟩
  exact nomatch hd.symm.trans h.read_eq

/-- The first fault that is met in making something of the members of a list. -/
theorem exists_of_mapM_error {α β : Type} {f : α → Except Fault β} {xs : List α} {fault : Fault}
    (h : xs.mapM f = .error fault) : ∃ x ∈ xs, f x = .error fault := by
  induction xs with
  | nil => exact nomatch h
  | cons x rest ih =>
      rw [List.mapM_cons] at h
      cases hx : f x with
      | error other =>
          rw [hx] at h
          exact ⟨x, List.mem_cons_self, hx.trans (congrArg _ (Except.error.inj h))⟩
      | ok y =>
          cases hrest : rest.mapM f with
          | error other =>
              rw [hx, hrest] at h
              obtain ⟨later, hlater, hfault⟩ := ih (hrest.trans (congrArg _ (Except.error.inj h)))
              exact ⟨later, List.mem_cons_of_mem x hlater, hfault⟩
          | ok more =>
              rw [hx, hrest] at h
              exact nomatch h

/-- If there is no fault, something is made of every member of a list. -/
theorem filterMap_of_mapM {α β : Type} {f : α → Except Fault β} {xs : List α} {ys : List β}
    (h : xs.mapM f = .ok ys) :
    (∀ x ∈ xs, ∃ y, f x = .ok y) ∧ xs.filterMap (fun x => (f x).toOption) = ys := by
  have hmade := forall₂_of_mapM h
  clear h
  induction hmade with
  | nil => exact ⟨List.forall_mem_nil _, rfl⟩
  | @cons x y rest more hx _ ih =>
      refine ⟨List.forall_mem_cons.mpr ⟨⟨y, hx⟩, ih.1⟩, ?_⟩
      rw [List.filterMap_cons, hx]
      exact congrArg (List.cons y) ih.2

/-- Once all bodies are fetched, the rows are read one by one. -/
theorem mapM_read_of_fetch {rows : List Row} {bodies : List Content}
    (h : rows.mapM Row.fetch = .ok bodies) : bodies.mapM Content.read = rows.mapM Row.read := by
  have hfetched := forall₂_of_mapM h
  clear h
  induction hfetched with
  | nil => rfl
  | cons hfetch _ ih =>
      rw [List.mapM_cons, List.mapM_cons, ih, Row.read, hfetch]
      rfl

/-- Rows are read together or not at all. -/
theorem readsAll_readAll (rows : List Row) : ReadsAll rows (readAll rows) := by
  rw [readAll]
  cases hfetch : rows.mapM Row.fetch with
  | error fault =>
      obtain ⟨row, hrow, hfault⟩ := exists_of_mapM_error hfetch
      obtain ⟨g, hbody, rfl⟩ := Row.garbled_of_fetch hfault
      exact .faulty hrow (.garbled hbody) fun _ => ⟨g, hbody⟩
  | ok bodies =>
      change ReadsAll rows (bodies.mapM Content.read)
      rw [mapM_read_of_fetch hfetch]
      have hfetched := (filterMap_of_mapM hfetch).1
      cases hread : rows.mapM Row.read with
      | error fault =>
          obtain ⟨row, hrow, hfault⟩ := exists_of_mapM_error hread
          obtain ⟨content, hcontent⟩ := hfetched row hrow
          obtain ⟨cause, hcause, rfl⟩ := Row.hasFault_of_read hcontent hfault
          refine .faulty hrow hcause ?_
          rintro ⟨other, hother, hgarbled⟩
          obtain ⟨content, hcontent⟩ := hfetched other hother
          exact absurd hcontent (hgarbled.fetch_ne content)
      | ok ds =>
          obtain ⟨hsound, rfl⟩ := filterMap_of_mapM hread
          exact .whole hsound

/-- Rows in the order of listings are the same rows. -/
theorem newestFirst_perm (rows : List Row) : (newestFirst rows).Perm rows :=
  List.mergeSort_perm _ _

/-- The rows that are read for a page of so many: those of the staker that come first behind the
cursor, one more than the page may hold. -/
def readFor (staker : String) (cursor : Cursor) (size : Nat) (rows : List Row) : List Row :=
  (newestFirst (rows.filter fun row => row.staker == staker && cursor.admits row)).take (size + 1)

/-- A page of what was read holds the first delegations. -/
theorem items_of_pageOf {limit : Int} (hlimit : 0 ≤ limit) {read : List Delegation} {page : Page}
    (h : pageOf limit read = .ok page) : page.items = read.take limit.toNat := by
  unfold pageOf at h
  split at h
  · next hfew =>
    cases h
    have hlength : read.length ≤ limit.toNat := by omega
    exact (List.take_of_length_le hlength).symm
  dsimp only at h
  split at h
  · cases h
  split at h
  · cases h
  · cases h
    rw [takeInt, if_pos hlimit]

end Ledger

/-! ## Answers that are made of rows -/

namespace Query

open Ledger

/-- What is promised of an operation that makes its answer of those rows of a table that match:
it is answered only if the table is there and all of them are sound, and then with what is made
of the delegations that they spell.  If the table is gone, or one of them is not sound, the
operation fails under its name.  It is told then that the table is gone, or the fault of a row;
and that of one whose text is none, if there is any. -/
structure NeverPartial (op : Operation) (table : Option (List Row)) (matched : List Row → List Row)
    (made : List Delegation → Answer → Prop) (result : Except QueryFault Answer) : Prop where
  answer : ∀ a, result = .ok a → ∃ rows, table = some rows ∧
    (∀ row ∈ matched rows, row.Sound) ∧ made ((matched rows).filterMap Row.delegation?) a
  gone : table = none → result = .error (.storage op (.noTable Table.delegations.name))
  fault : ∀ rows, table = some rows → (∃ row ∈ matched rows, ¬row.Sound) →
    ∃ row ∈ matched rows, ∃ cause, row.HasFault cause ∧ result = .error (.storage op cause) ∧
      ((∃ other ∈ matched rows, other.IsGarbled) → row.IsGarbled)

/-- What is promised of an operation that is moreover answered whenever its table is there and
all rows that match are sound. -/
structure Whole (op : Operation) (table : Option (List Row)) (matched : List Row → List Row)
    (made : List Delegation → Answer → Prop) (result : Except QueryFault Answer) : Prop
    extends NeverPartial op table matched made result where
  answered_iff : (∃ a, result = .ok a) ↔
    ∃ rows, table = some rows ∧ ∀ row ∈ matched rows, row.Sound

section Whole

variable {op : Operation} {matched : List Row → List Row} {made : List Delegation → Answer → Prop}
  {rows : List Row}

/-- An operation whose table is gone. -/
theorem Whole.of_gone :
    Whole op none matched made (.error (.storage op (.noTable Table.delegations.name))) where
  answer _ h := nomatch h
  gone _ := rfl
  fault _ h := nomatch h
  answered_iff := by
    constructor
    · exact fun ⟨_, h⟩ => nomatch h
    · exact fun ⟨_, h, _⟩ => nomatch h

/-- An operation that fails with the fault of one of its rows. -/
theorem Whole.of_fault {row : Row} {cause : StorageFault} (hrow : row ∈ matched rows)
    (hfault : row.HasFault cause)
    (hfirst : (∃ other ∈ matched rows, other.IsGarbled) → row.IsGarbled) :
    Whole op (some rows) matched made (.error (.storage op cause)) where
  answer _ h := nomatch h
  gone h := nomatch h
  fault := by
    intro _ hrows _
    obtain rfl := Option.some.inj hrows
    exact ⟨row, hrow, cause, hfault, rfl, hfirst⟩
  answered_iff := by
    constructor
    · exact fun ⟨_, h⟩ => nomatch h
    · rintro ⟨_, hrows, hsound⟩
      obtain rfl := Option.some.inj hrows
      exact absurd (hsound row hrow) hfault.not_sound

/-- An operation that answers from rows that are all sound. -/
theorem Whole.of_sound {a : Answer} (hsound : ∀ row ∈ matched rows, row.Sound)
    (hmade : made ((matched rows).filterMap Row.delegation?) a) :
    Whole op (some rows) matched made (.ok a) where
  answer := by
    intro _ hresult
    obtain rfl := Except.ok.inj hresult
    exact ⟨rows, rfl, hsound, hmade⟩
  gone h := nomatch h
  fault := by
    rintro _ hrows ⟨row, hrow, hdamaged⟩
    obtain rfl := Option.some.inj hrows
    exact absurd (hsound row hrow) hdamaged
  answered_iff := iff_of_true ⟨a, rfl⟩ ⟨rows, rfl, hsound⟩

end Whole

/-- The result of an operation that makes its answer of what an access reads. -/
def madeOf (op : Operation) (make : List Delegation → Answer) :
    Except Ledger.Fault (List Delegation) → Except QueryFault Answer
  | .ok ds => .ok (make ds)
  | .error fault => .error (.ofLedger op fault)

/-- An answer that is made of the rows of an open ledger that an access reads is whole, if it does
not depend on the order in which the rows were read. -/
theorem whole_madeOf {l : Ledger} (hopen : l.isOpen = true) (op : Operation) (test : Row → Bool)
    {make : List Delegation → Answer} (hmake : ∀ ds es, ds.Perm es → make ds = make es) :
    Whole op l.delegations (List.filter test) (fun ds a => a = make ds)
      (madeOf op make (l.select test)) := by
  cases htable : l.delegations with
  | none =>
      have hgone : l.select test = .error (.storage (.noTable Table.delegations.name)) := by
        simp [select, Ledger.rows, hopen, htable]
      rw [hgone]
      exact .of_gone
  | some rows =>
      have hperm := newestFirst_perm (rows.filter test)
      have hread : l.select test = readAll (newestFirst (rows.filter test)) := by
        simp [select, Ledger.rows, hopen, htable]
      have hall := readsAll_readAll (newestFirst (rows.filter test))
      rw [hread]
      generalize readAll (newestFirst (rows.filter test)) = access at hall
      cases hall with
      | faulty hrow hfault hfirst =>
          refine .of_fault (hperm.mem_iff.mp hrow) hfault ?_
          rintro ⟨other, hother, hgarbled⟩
          exact hfirst ⟨other, hperm.mem_iff.mpr hother, hgarbled⟩
      | whole hsound =>
          refine .of_sound (fun row hrow => hsound row (hperm.mem_iff.mpr hrow)) ?_
          exact hmake _ _ (hperm.filterMap Row.delegation?)

/-! ## Operations -/

variable {env : Setting} {key : String}

/-- A count over an access to the rows that pass a test is made of all of them. -/
theorem whole_countOver (hopen : env.ledger.isOpen = true) (op : Operation) (test : Row → Bool)
    {tally : List Delegation → Nat} (htally : ∀ ds es, ds.Perm es → tally ds = tally es) :
    Whole op env.ledger.delegations (List.filter test) (fun ds a => a = .count (tally ds))
      (countOver op (env.ledger.select test) tally).result := by
  have hresult : (countOver op (env.ledger.select test) tally).result =
      madeOf op (fun ds => .count (tally ds)) (env.ledger.select test) := by
    cases env.ledger.select test <;> rfl
  rw [hresult]
  refine whole_madeOf hopen op test fun ds es hds => ?_
  rw [htally ds es hds]

/-- Tallies over a provider are made of all of its rows. -/
theorem whole_overProvider (hopen : env.ledger.isOpen = true) {provider : String}
    (hkey : PublicKey.normalize provider = .ok key) (op : Operation)
    {tally : List Delegation → Nat} (htally : ∀ ds es, ds.Perm es → tally ds = tally es) :
    Whole op env.ledger.delegations (List.filter fun row => row.provider == key)
      (fun ds a => a = .count (tally ds)) (overProvider op tally env provider).result := by
  simp only [overProvider, hkey]
  exact whole_countOver hopen op _ htally

/-- Tallies over a staker are made of all of its rows. -/
theorem whole_overStaker (hopen : env.ledger.isOpen = true) {staker : String}
    (hkey : PublicKey.normalize staker = .ok key) (op : Operation)
    {tally : List Delegation → Nat} (htally : ∀ ds es, ds.Perm es → tally ds = tally es) :
    Whole op env.ledger.delegations (List.filter fun row => row.staker == key)
      (fun ds a => a = .count (tally ds)) (overStaker op tally env staker).result := by
  simp only [overStaker, hkey]
  exact whole_countOver hopen op _ htally

/-- A check for activity that is valid: its address is that of an output key, and its timeframe
has a window. -/
structure Check (env : Setting) (address timeframe : String) (taproot : Taproot.Address)
    (window : Window) : Prop where
  address : Taproot.decode address env.network = .ok taproot
  window : ∃ frame, Timeframe.ofText? timeframe = some frame ∧ frame.window env.clock = .ok window

/-- What is promised of a check of an address for a window: the key behind it is looked up first,
and then the check is made of all rows of that key. -/
structure WholeCheck (l : Ledger) (address : String) (window : Window)
    (result : Except QueryFault Answer) : Prop where
  gone : l.mappings = none →
    result = .error (.storage .checkActivity (.noTable Table.mappings.name))
  unmapped : ∀ pairs, l.mappings = some pairs → pairs.lookup address = none →
    result = .ok (.verdict false)
  garbled : ∀ pairs g, l.mappings = some pairs → pairs.lookup address = some (.garbled g) →
    result = .error (.storage .checkActivity (.undecodable "staker_pk_hex" g.val))
  mapped : ∀ pairs cell content, l.mappings = some pairs → pairs.lookup address = some cell →
    cell.fetch "staker_pk_hex" = .ok content →
      Whole .checkActivity l.delegations (List.filter fun row => content.isKey row.staker)
        (fun ds a => a = .verdict (Tally.hasActive ds window)) result

section Activity

variable {address timeframe : String} {taproot : Taproot.Address} {window : Window}

/-- A check whose address cannot be looked up fails with the fault of the look-up. -/
theorem result_activity_of_fault (h : Check env address timeframe taproot window)
    {cause : StorageFault} (hstaker : env.ledger.stakerOf? taproot.text = .error (.storage cause)) :
    (activity env address timeframe).result = .error (.storage .checkActivity cause) := by
  obtain ⟨haddress, frame, hframe, hwindow⟩ := h
  simp [activity, haddress, hframe, hwindow, hstaker, Outcome.ofLedgerFault, QueryFault.ofLedger]

/-- A check of an address that is not mapped is answered without any row. -/
theorem result_activity_of_none (h : Check env address timeframe taproot window)
    (hstaker : env.ledger.stakerOf? taproot.text = .ok none) :
    (activity env address timeframe).result = .ok (.verdict false) := by
  obtain ⟨haddress, frame, hframe, hwindow⟩ := h
  simp [activity, haddress, hframe, hwindow, hstaker, Outcome.answer]

/-- A check of an address that is mapped is made of all rows of the key behind it. -/
theorem whole_activity (hopen : env.ledger.isOpen = true)
    (h : Check env address timeframe taproot window) {content : Content}
    (hstaker : env.ledger.stakerOf? taproot.text = .ok (some content)) :
    Whole .checkActivity env.ledger.delegations (List.filter fun row => content.isKey row.staker)
      (fun ds a => a = .verdict (Tally.hasActive ds window))
      (activity env address timeframe).result := by
  obtain ⟨haddress, frame, hframe, hwindow⟩ := h
  have hresult : (activity env address timeframe).result =
      madeOf .checkActivity (fun ds => .verdict (Tally.hasActive ds window))
        (env.ledger.select fun row => content.isKey row.staker) := by
    simp only [activity, haddress, hframe, hwindow, hstaker, Ledger.ofKey]
    cases env.ledger.select fun row => content.isKey row.staker <;> rfl
  rw [hresult]
  refine whole_madeOf hopen .checkActivity _ fun ds es hds => ?_
  rw [Tally.hasActive, hds.any_eq, Tally.hasActive]

/-- A check is made of what is behind its address. -/
theorem wholeCheck_activity (hopen : env.ledger.isOpen = true)
    (h : Check env address timeframe taproot window) :
    WholeCheck env.ledger taproot.text window (activity env address timeframe).result where
  gone hgone := by
    refine result_activity_of_fault h ?_
    simp [Ledger.stakerOf?, mapped, hopen, hgone]
  unmapped pairs hpairs hnone := by
    refine result_activity_of_none h ?_
    simp [Ledger.stakerOf?, mapped, hopen, hpairs, hnone]
  garbled pairs g hpairs hcell := by
    refine result_activity_of_fault h ?_
    simp [Ledger.stakerOf?, mapped, hopen, hpairs, hcell, Cell.fetch, Except.map]
  mapped pairs cell content hpairs hcell hcontent := by
    refine whole_activity hopen h ?_
    simp [Ledger.stakerOf?, mapped, hopen, hpairs, hcell, hcontent, Except.map]

end Activity

/-- A look-up by hash is made of the row of the hash. -/
theorem whole_lookup (hopen : env.ledger.isOpen = true) {txHash hash : String}
    (hhash : TxHash.normalize txHash = .ok hash)
    (hone : ∀ rows, env.ledger.delegations = some rows →
      ∃ row, rows.filter (fun row => row.txHash == hash) = [row]) :
    Whole .findDelegation env.ledger.delegations (List.filter fun row => row.txHash == hash)
      (fun ds a => ∃ d, ds = [d] ∧ a = .delegation d) (lookup env txHash).result := by
  cases htable : env.ledger.delegations with
  | none =>
      have hgone : (lookup env txHash).result =
          .error (.storage .findDelegation (.noTable Table.delegations.name)) := by
        simp [lookup, hhash, Ledger.find?, Ledger.rows, hopen, htable, Outcome.ofLedgerFault,
          QueryFault.ofLedger]
      rw [hgone]
      exact .of_gone
  | some rows =>
      obtain ⟨row, hrow⟩ := hone rows htable
      have hfind : rows.find? (fun row => row.txHash == hash) = some row := by
        rw [← List.head?_filter, hrow, List.head?_cons]
      have hmem : row ∈ rows.filter fun row => row.txHash == hash := by
        rw [hrow]
        exact List.mem_singleton_self row
      have hlook : env.ledger.find? hash = row.read.map some := by
        simp only [Ledger.find?, Ledger.rows, hopen, htable, if_true, hfind]
      cases hread : row.read with
      | ok d =>
          have hresult : (lookup env txHash).result = .ok (.delegation d) := by
            simp only [lookup, hhash, hlook, hread, Except.map, Outcome.answer]
          rw [hresult]
          have hspelled : row.delegation? = some d := by
            rw [Row.delegation?, hread]
            rfl
          refine .of_sound ?_ ?_
          · rw [hrow]
            exact List.forall_mem_singleton.mpr ⟨d, hread⟩
          · rw [hrow, List.filterMap_cons_some hspelled, List.filterMap_nil]
            exact ⟨d, rfl, rfl⟩
      | error fault =>
          obtain ⟨cause, hfault, rfl⟩ := Row.hasFault_of_read_error hread
          have hresult : (lookup env txHash).result =
              .error (.storage .findDelegation cause) := by
            simp only [lookup, hhash, hlook, hread, Except.map, Outcome.ofLedgerFault,
              QueryFault.ofLedger]
          rw [hresult]
          refine .of_fault hmem hfault ?_
          rw [hrow]
          rintro ⟨other, hother, hgarbled⟩
          rwa [List.mem_singleton.mp hother] at hgarbled

/-- A page is made of its rows and the one behind them. -/
theorem neverPartial_listing (hopen : env.ledger.isOpen = true) {staker paginationKey : String}
    (hkey : PublicKey.normalize staker = .ok key) {cursor : Cursor}
    (hcursor : Cursor.ofKey? paginationKey = some cursor) (hlow : 1 ≤ env.pageSize)
    (hhigh : env.pageSize ≤ 2 ^ 63 - 2) :
    NeverPartial .listDelegations env.ledger.delegations
      (readFor key cursor env.pageSize.toNat)
      (fun ds a => ∃ page, a = .page page ∧ page.items = ds.take env.pageSize.toNat)
      (listing env staker paginationKey).result := by
  have hfits : fits (env.pageSize + 1) = true := by
    simp only [fits, Bool.and_eq_true, decide_eq_true_eq]
    omega
  cases htable : env.ledger.delegations with
  | none =>
      have hgone : (listing env staker paginationKey).result =
          .error (.storage .listDelegations (.noTable Table.delegations.name)) := by
        simp [listing, hkey, hcursor, Ledger.page, Ledger.rows, hopen, htable,
          Outcome.ofLedgerFault, QueryFault.ofLedger]
      rw [hgone]
      exact Whole.of_gone.toNeverPartial
  | some rows =>
      have hpage : env.ledger.page key cursor env.pageSize =
          (readAll (readFor key cursor env.pageSize.toNat rows)).bind (pageOf env.pageSize) := by
        have hnat : (env.pageSize + 1).toNat = env.pageSize.toNat + 1 := by omega
        simp only [page, Ledger.rows, hopen, htable, hfits, if_true, limited,
          if_neg (show ¬env.pageSize + 1 < 0 by omega), hnat, readFor]
        cases readAll _ <;> rfl
      have hread := readsAll_readAll (readFor key cursor env.pageSize.toNat rows)
      simp only [listing, hkey, hcursor, hpage]
      generalize readAll _ = read at hread
      cases hread with
      | faulty hrow hfault hfirst =>
          have hwhole : Whole .listDelegations (some rows)
              (readFor key cursor env.pageSize.toNat)
              (fun ds a => ∃ page, a = .page page ∧ page.items = ds.take env.pageSize.toNat) _ :=
            .of_fault hrow hfault hfirst
          exact hwhole.toNeverPartial
      | whole hsound =>
          refine ⟨?_, ?gone, ?_⟩
          case gone =>
            intro hgone
            cases hgone
          · intro a ha
            refine ⟨rows, rfl, hsound, ?_⟩
            simp only [Except.bind] at ha
            split at ha
            · cases ha
            · next page hmade =>
              cases ha
              exact ⟨page, rfl, items_of_pageOf (by omega) hmade⟩
          · rintro _ hrows ⟨row, hrow, hdamaged⟩
            obtain rfl := Option.some.inj hrows
            exact absurd (hsound row hrow) hdamaged

end Query

namespace Desk

/-! ## Desks -/

/-- What is promised of a desk over tables that may be gone and whose cells may hold anything.
Counts, and checks of the addresses that are mapped, are answered if and only if their table is
there and all rows of their key are sound, and then from all of these.  A look-up is answered from
the row of its hash.  A page is given only if the rows that it shows and the one behind them are
sound.  What is not answered fails under the name of its operation. -/
structure NeverPartial (desk : Desk) : Prop where
  stakers : ∀ text key, PublicKey.normalize text = .ok key → ∀ clock request,
    Query.Whole .countStakers desk.ledger.delegations (List.filter fun row => row.provider == key)
      (fun ds a => a = .count (Tally.stakers ds))
      (desk.ask clock request (.countStakers text)).1.result
  providerDelegations : ∀ text key, PublicKey.normalize text = .ok key → ∀ clock request,
    Query.Whole .countProviderDelegations desk.ledger.delegations
      (List.filter fun row => row.provider == key)
      (fun ds a => a = .count (Tally.delegations ds))
      (desk.ask clock request (.countProviderDelegations text)).1.result
  stakerDelegations : ∀ text key, PublicKey.normalize text = .ok key → ∀ clock request,
    Query.Whole .countStakerDelegations desk.ledger.delegations
      (List.filter fun row => row.staker == key)
      (fun ds a => a = .count (Tally.delegations ds))
      (desk.ask clock request (.countStakerDelegations text)).1.result
  activity : ∀ clock address timeframe taproot window,
    Query.Check (desk.setting clock) address timeframe taproot window → ∀ request,
      Query.WholeCheck desk.ledger taproot.text window
        (desk.ask clock request (.checkActivity address timeframe)).1.result
  lookup : ∀ text hash, TxHash.normalize text = .ok hash →
    (∀ rows, desk.ledger.delegations = some rows →
      ∃ row, rows.filter (fun row => row.txHash == hash) = [row]) → ∀ clock request,
      Query.Whole .findDelegation desk.ledger.delegations
        (List.filter fun row => row.txHash == hash)
        (fun ds a => ∃ d, ds = [d] ∧ a = .delegation d)
        (desk.ask clock request (.findDelegation text)).1.result
  listing : 1 ≤ desk.pageSize → desk.pageSize ≤ 2 ^ 63 - 2 →
    ∀ text key, PublicKey.normalize text = .ok key →
    ∀ place cursor, Cursor.ofKey? place = some cursor → ∀ clock request,
      Query.NeverPartial .listDelegations desk.ledger.delegations
        (Ledger.readFor key cursor desk.pageSize.toNat)
        (fun ds a => ∃ page, a = .page page ∧ page.items = ds.take desk.pageSize.toNat)
        (desk.ask clock request (.listDelegations text place)).1.result

/-- No desk over an open ledger answers from a part of its rows, whatever the ledger holds. -/
theorem never_partial {desk : Desk} (hopen : desk.ledger.isOpen = true) : desk.NeverPartial where
  stakers text key hkey clock _ :=
    @Query.whole_overProvider (desk.setting clock) key hopen text hkey .countStakers _
      fun _ _ => Tally.stakers_of_perm
  providerDelegations text key hkey clock _ :=
    @Query.whole_overProvider (desk.setting clock) key hopen text hkey .countProviderDelegations _
      fun _ _ => Tally.delegations_of_perm
  stakerDelegations text key hkey clock _ :=
    @Query.whole_overStaker (desk.setting clock) key hopen text hkey .countStakerDelegations _
      fun _ _ => Tally.delegations_of_perm
  activity clock address timeframe _ _ hcheck _ :=
    @Query.wholeCheck_activity (desk.setting clock) address timeframe _ _ hopen hcheck
  lookup text hash hhash hone clock _ :=
    @Query.whole_lookup (desk.setting clock) hopen text hash hhash hone
  listing hlow hhigh text key hkey place cursor hcursor clock _ :=
    @Query.neverPartial_listing (desk.setting clock) key hopen text place hkey cursor hcursor hlow
      hhigh

/-- The row of a delegation whose body is lost. -/
def lost : Ledger.Row :=
  { Ledger.Row.ofDelegation (single "a" 7) with body := .text "" }

/-- A desk for pages of one delegation, with two delegations of a staker.  The one that is listed
last is lost. -/
def halfLost : Desk where
  ledger := { delegations := some [Ledger.Row.ofDelegation (single "b" 7), lost] }
  pageSize := 1

/-- Neither is the other delegation counted nor is it shown on a page, behind which the lost one
would lie. -/
theorem never_partial_lost :
    (halfLost.ask 0 "" (.countStakerDelegations (single "b" 7).staker)).1.result =
        .error (.storage .countStakerDelegations
          (.damaged "DelegationRecord" [⟨[], .jsonInvalid⟩])) ∧
      (halfLost.ask 0 "" (.listDelegations (single "b" 7).staker "")).1.result =
        .error (.storage .listDelegations (.damaged "DelegationRecord" [⟨[], .jsonInvalid⟩])) := by
  have hpartial := @never_partial halfLost rfl
  have hkey : PublicKey.normalize (single "b" 7).staker = .ok (single "b" 7).staker := by
    decide
  have hlost : lost.HasFault (.damaged "DelegationRecord" [⟨[], .jsonInvalid⟩]) :=
    @Ledger.Row.HasFault.damaged lost (.text "") _ rfl (by decide)
  -- Only the row whose body is lost has a fault.
  have hfaults {row : Ledger.Row} {cause : StorageFault}
      (hrow : row ∈ [Ledger.Row.ofDelegation (single "b" 7), lost])
      (hcause : row.HasFault cause) : cause = .damaged "DelegationRecord" [⟨[], .jsonInvalid⟩] := by
    rcases List.mem_pair.mp hrow with rfl | rfl
    · have hlegible : (single "b" 7).IsLegible := by
        decide
      exact absurd ⟨_, (Ledger.Row.read_ofDelegation _).trans (if_pos hlegible)⟩ hcause.not_sound
    · have hsame := hcause.read_eq.symm.trans hlost.read_eq
      exact Ledger.Fault.storage.inj (Except.error.inj hsame)
  constructor
  · have hcount := hpartial.stakerDelegations _ _ hkey 0 ""
    have hmem : lost ∈ [Ledger.Row.ofDelegation (single "b" 7), lost].filter fun row =>
        row.staker == (single "b" 7).staker := by
      simp [lost, Ledger.Row.ofDelegation, single]
    rcases hcount.fault _ rfl ⟨lost, hmem, hlost.not_sound⟩ with
      ⟨row, hrow, cause, hcause, hresult, -⟩
    rw [hresult, hfaults (List.mem_of_mem_filter hrow) hcause]
  · have hpage := hpartial.listing (by decide) (by decide) _ _ hkey "" .start
      (by simp [Cursor.ofKey?]) 0 ""
    have hall : (Ledger.readFor (single "b" 7).staker .start halfLost.pageSize.toNat
        [Ledger.Row.ofDelegation (single "b" 7), lost]).Perm
          [Ledger.Row.ofDelegation (single "b" 7), lost] := by
      rw [Ledger.readFor, List.take_of_length_le]
      · exact Ledger.newestFirst_perm _
      · rw [(Ledger.newestFirst_perm _).length_eq]
        decide
    rcases hpage.fault _ rfl ⟨lost, hall.mem_iff.mpr (by simp), hlost.not_sound⟩ with
      ⟨row, hrow, cause, hcause, hresult, -⟩
    rw [hresult, hfaults (hall.mem_iff.mp hrow) hcause]

/-- The row of a delegation whose body was put in as the text of an octet that spells none. -/
def garbled : Ledger.Row :=
  { Ledger.Row.ofDelegation (single "a" 7) with body := .garbled ⟨[0xff], by decide⟩ }

/-- A desk over a table of delegations. -/
def overTable (table : Option (List Ledger.Row)) : Desk where
  ledger := { delegations := table }

/-- No row is damaged where the table is gone, and still a count is not answered; and what is told
of a row that cannot be fetched is not that it does not fit the schema. -/
theorem not_answered_gone :
    (overTable none).ledger.isOpen = true ∧
      ((overTable none).ask 0 "" (.countStakerDelegations garbled.staker)).1.result =
        .error (.storage .countStakerDelegations (.noTable "delegations")) ∧
      ((overTable (some [garbled])).ask 0 "" (.countStakerDelegations garbled.staker)).1.result =
        .error (.storage .countStakerDelegations (.undecodable "data" [0xff])) := by
  have hkey : PublicKey.normalize garbled.staker = .ok garbled.staker := by
    decide
  refine ⟨rfl, ?_, ?_⟩
  all_goals
    simp [ask, outcome, Query.run, Query.overStaker, Query.countOver, setting, hkey, overTable,
      Ledger.ofStaker, Ledger.select, Ledger.rows, Outcome.after, Outcome.ofLedgerFault,
      QueryFault.ofLedger, Ledger.Table.name, Ledger.newestFirst]
  rfl

end Desk

end StakeLedger
