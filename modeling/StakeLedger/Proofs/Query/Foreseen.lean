import Mathlib.Algebra.Group.Int.Defs
import StakeLedger.Desk
import StakeLedger.Proofs.Key.PublicKey
import StakeLedger.Proofs.Settings.Checks

/-!
# Faults that are foreseen

Faults of clients, of look-ups that find nothing and of the storage have a status in
responses; the others are foreseen by nobody.  With settings that pass their check,
and a clock within the years of the calendar, the only one of these is that of a
listing whose page size is too large: together with the delegation that is read
beyond the page it does not fit in a column.

Main definitions:

- {lit}`Ledger.OnlyStorage`: accesses whose faults are those of the storage.
- {lit}`Outcome.Foreseen`: outcomes whose fault, if there is one, has a status.
- {lit}`Query.Oversized`: listings that ask for more than a query can be told.

Main results:

- Theorem {lit}`Ledger.onlyStorage_select`, {lit}`Ledger.onlyStorage_page`: which faults
  accesses have.
- Theorem {lit}`Query.foreseen_run_iff`: which queries have foreseen outcomes.
- Theorem {lit}`Desk.foreseen_ask_iff`: the same for settings that pass their check.
-/

namespace StakeLedger

/-! ## Faults of accesses -/

namespace Ledger

/-- An access that was answered, or that the storage could not complete. -/
inductive OnlyStorage {α : Type} : Except Fault α → Prop where
  | ok (a : α) : OnlyStorage (.ok a)
  | fault (cause : StorageFault) : OnlyStorage (.error (.storage cause))

variable {α β : Type}

/-- A fault of one access is passed on by another one. -/
theorem OnlyStorage.pass {fault : Fault} (h : OnlyStorage (.error fault : Except Fault α)) :
    OnlyStorage (.error fault : Except Fault β) := by
  cases h with
  | fault cause => exact .fault cause

/-- What is made of an answer has no other faults. -/
theorem OnlyStorage.map {access : Except Fault α} (h : OnlyStorage access) (f : α → β) :
    OnlyStorage (access.map f) := by
  cases h with
  | ok a => exact .ok (f a)
  | fault cause => exact .fault cause

/-- The rows of a ledger are there, or it is closed, or their table is gone. -/
theorem onlyStorage_rows (l : Ledger) : OnlyStorage l.rows := by
  unfold rows
  split
  · split
    · exact .ok _
    · exact .fault _
  · exact .fault _

/-- The mappings of a ledger are there, or it is closed, or their table is gone. -/
theorem onlyStorage_mapped (l : Ledger) : OnlyStorage l.mapped := by
  unfold mapped
  split
  · split
    · exact .ok _
    · exact .fault _
  · exact .fault _

/-- What is made of an answer by an access has the faults of both. -/
theorem OnlyStorage.bind {access : Except Fault α} (h : OnlyStorage access)
    {f : α → Except Fault β} (hf : ∀ a, OnlyStorage (f a)) : OnlyStorage (access.bind f) := by
  cases h with
  | ok a => exact hf a
  | fault cause => exact .fault cause

/-- What is made of the members of a list has the faults of each. -/
theorem onlyStorage_mapM {f : α → Except Fault β} (hf : ∀ a, OnlyStorage (f a)) (xs : List α) :
    OnlyStorage (xs.mapM f) := by
  induction xs with
  | nil => exact .ok []
  | cons x rest ih =>
      rw [List.mapM_cons]
      exact (hf x).bind fun y => ih.bind fun ys => .ok (y :: ys)

/-- A cell is fetched, or it is no text. -/
theorem Cell.onlyStorage_fetch (cell : Cell) (column : String) :
    OnlyStorage (cell.fetch column) := by
  cases cell with
  | text s => exact .ok _
  | octets o => exact .ok _
  | garbled g => exact .fault _

/-- A body is read, or it is damaged. -/
theorem Content.onlyStorage_read (body : Content) : OnlyStorage body.read := by
  unfold Content.read
  split
  · exact .ok _
  · exact .fault _

/-- Rows are read, or the body of one of them is no text or damaged. -/
theorem onlyStorage_readAll (rows : List Row) : OnlyStorage (readAll rows) :=
  (onlyStorage_mapM (fun row => row.body.onlyStorage_fetch "data") rows).bind
    (onlyStorage_mapM Content.onlyStorage_read)

/-- A look-up of delegations has only storage faults. -/
theorem onlyStorage_select (l : Ledger) (test : Row → Bool) : OnlyStorage (l.select test) := by
  unfold select
  split
  · rename_i hrows
    exact (hrows ▸ l.onlyStorage_rows).pass
  · exact onlyStorage_readAll _

/-- A look-up by hash has only storage faults. -/
theorem onlyStorage_find? (l : Ledger) (txHash : String) : OnlyStorage (l.find? txHash) := by
  unfold find?
  split
  · rename_i hrows
    exact (hrows ▸ l.onlyStorage_rows).pass
  split
  · exact .ok none
  · next row _ =>
    exact ((row.body.onlyStorage_fetch "data").bind Content.onlyStorage_read).map some

/-- A look-up by address has only storage faults. -/
theorem onlyStorage_stakerOf? (l : Ledger) (address : String) :
    OnlyStorage (l.stakerOf? address) := by
  unfold stakerOf?
  split
  · rename_i hmapped
    exact (hmapped ▸ l.onlyStorage_mapped).pass
  split
  · exact .ok none
  · next cell _ => exact (cell.onlyStorage_fetch "staker_pk_hex").map some

/-- A page that may hold a delegation has a last one if it is full, so it is made or
the cursor of its last delegation is damaged. -/
theorem onlyStorage_pageOf {limit : Int} (hlimit : 1 ≤ limit) (read : List Delegation) :
    OnlyStorage (pageOf limit read) := by
  unfold pageOf
  split
  · exact .ok _
  · rename_i hmore
    have hitems : takeInt limit read ≠ [] := by
      rw [takeInt, if_pos (by omega), Ne, List.take_eq_nil_iff, not_or]
      refine ⟨by omega, ?_⟩
      rintro rfl
      exact hmore (by simp only [List.length_nil]; omega)
    dsimp only
    split
    · rename_i hlast
      exact absurd (List.getLast?_eq_none_iff.mp hlast) hitems
    split
    · exact .fault _
    · exact .ok _

/-- A page has only storage faults, if its size and one more fit in a column. -/
theorem onlyStorage_page (l : Ledger) (staker : String) (cursor : Cursor) {limit : Int}
    (hlimit : 1 ≤ limit) (hfits : fits (limit + 1) = true) :
    OnlyStorage (l.page staker cursor limit) := by
  unfold page
  split
  · rename_i hrows
    exact (hrows ▸ l.onlyStorage_rows).pass
  rw [if_pos hfits]
  dsimp only
  split
  · rename_i hread
    exact (hread ▸ onlyStorage_readAll _).pass
  · exact onlyStorage_pageOf hlimit _

end Ledger

/-! ## Faults of queries -/

/-- An outcome whose fault, if there is one, has a status in responses. -/
def Outcome.Foreseen (o : Outcome) : Prop :=
  ∀ fault, o.result = .error fault → fault.status?.isSome = true

namespace Outcome

/-- An answer is foreseen. -/
theorem foreseen_answer (a : Answer) (entries : List Journal.Entry) (scanned : Option Nat) :
    (answer a entries scanned).Foreseen :=
  fun _ h => nomatch h

/-- A fault with a status is foreseen. -/
theorem foreseen_fail {fault : QueryFault} (h : fault.status?.isSome = true) :
    (fail fault).Foreseen := by
  intro other hother
  rw [← Except.error.inj hother]
  exact h

/-- Journal lines do not matter. -/
theorem Foreseen.after {o : Outcome} (h : o.Foreseen) (entries : List Journal.Entry) :
    (o.after entries).Foreseen :=
  h

/-- The fault of an access that has only storage faults is foreseen. -/
theorem foreseen_ofLedgerFault {α : Type} {fault : Ledger.Fault}
    (h : Ledger.OnlyStorage (.error fault : Except Ledger.Fault α)) (op : Operation) :
    (ofLedgerFault op fault).Foreseen := by
  cases h with
  | fault cause => exact foreseen_fail rfl

end Outcome

namespace Query

open Ledger

/-- Counting over an access that has only storage faults is foreseen. -/
theorem foreseen_countOver {access : Except Ledger.Fault (List Delegation)}
    (h : OnlyStorage access) (op : Operation) (tally : List Delegation → Nat) :
    (countOver op access tally).Foreseen := by
  unfold countOver
  split
  · exact Outcome.foreseen_ofLedgerFault h op
  · exact Outcome.foreseen_answer _ _ _

/-- Tallies over a provider are foreseen. -/
theorem foreseen_overProvider (op : Operation) (tally : List Delegation → Nat) (env : Setting)
    (provider : String) : (overProvider op tally env provider).Foreseen := by
  unfold overProvider
  split
  · exact Outcome.foreseen_fail rfl
  · exact (foreseen_countOver (env.ledger.onlyStorage_select _) op tally).after _

/-- Tallies over a staker are foreseen. -/
theorem foreseen_overStaker (op : Operation) (tally : List Delegation → Nat) (env : Setting)
    (staker : String) : (overStaker op tally env staker).Foreseen := by
  unfold overStaker
  split
  · exact Outcome.foreseen_fail rfl
  · exact (foreseen_countOver (env.ledger.onlyStorage_select _) op tally).after _

/-- Looking up a delegation is foreseen. -/
theorem foreseen_lookup (env : Setting) (txHash : String) : (lookup env txHash).Foreseen := by
  unfold lookup
  split
  · exact Outcome.foreseen_fail rfl
  split
  · rename_i hfind
    exact Outcome.foreseen_ofLedgerFault (hfind ▸ env.ledger.onlyStorage_find? _) _
  · exact Outcome.foreseen_fail rfl
  · exact Outcome.foreseen_answer _ _ _

/-- In the years of the calendar every timeframe has a window. -/
theorem exists_window (frame : Timeframe) {clock : Int} (hfirst : -62135596800 ≤ clock)
    (hlast : clock ≤ 253402300799) : ∃ window, frame.window clock = .ok window := by
  cases frame with
  | unlimited => exact ⟨{}, rfl⟩
  | today =>
      have hday : 0 ≤ clock / Calendar.secondsPerDay + Calendar.epochDay ∧
          clock / Calendar.secondsPerDay + Calendar.epochDay < Calendar.dayCount := by
        simp only [Calendar.secondsPerDay, Calendar.epochDay, Calendar.dayCount]
        omega
      simp only [Timeframe.window, Calendar.startOfDay, Calendar.utcDate?, if_pos hday]
      exact ⟨_, rfl⟩

/-- Checks of activity are foreseen in the years of the calendar. -/
theorem foreseen_activity {env : Setting} (hfirst : -62135596800 ≤ env.clock)
    (hlast : env.clock ≤ 253402300799) (address timeframe : String) :
    (activity env address timeframe).Foreseen := by
  unfold activity
  simp only
  split
  · exact Outcome.foreseen_fail rfl
  split
  · exact Outcome.foreseen_fail rfl
  rename_i frame _
  obtain ⟨window, hwindow⟩ := exists_window frame hfirst hlast
  simp only [hwindow]
  split
  · rename_i hstaker
    exact Outcome.foreseen_ofLedgerFault (hstaker ▸ env.ledger.onlyStorage_stakerOf? _) _
  · exact Outcome.foreseen_answer _ _ _
  rename_i staker _
  split
  · rename_i hread
    have hstorage : OnlyStorage (env.ledger.ofKey staker) := env.ledger.onlyStorage_select _
    exact Outcome.foreseen_ofLedgerFault (hread ▸ hstorage) _
  · exact Outcome.foreseen_answer _ _ _

/-- A listing whose checks pass and that reaches the rows of a ledger, but asks for more
of them than a query can be told. -/
def Oversized (l : Ledger) (pageSize : Int) : Query → Prop
  | .listDelegations staker paginationKey =>
      2 ^ 63 - 1 ≤ pageSize ∧ (∃ key, PublicKey.normalize staker = .ok key) ∧
        (∃ cursor, Cursor.ofKey? paginationKey = some cursor) ∧ ∃ rows, l.rows = .ok rows
  | _ => False

/-- One more than a page size is not too much for a column, unless the page size is
the greatest number in it or greater. -/
theorem fits_succ_iff {n : Int} (hn : 1 ≤ n) : fits (n + 1) = true ↔ ¬2 ^ 63 - 1 ≤ n := by
  simp only [fits, Bool.and_eq_true, decide_eq_true_eq]
  omega

/-- An oversized listing has a number that does not fit. -/
theorem result_of_oversized {env : Setting} (hsize : 1 ≤ env.pageSize) {q : Query}
    (h : q.Oversized env.ledger env.pageSize) :
    (q.run env).result = .error (.internal .outOfRange) := by
  cases q with
  | listDelegations staker paginationKey =>
      obtain ⟨hlarge, ⟨key, hkey⟩, ⟨cursor, hcursor⟩, rows, hrows⟩ := h
      have hfits : ¬fits (env.pageSize + 1) = true :=
        mt (fits_succ_iff hsize).mp (not_not_intro hlarge)
      have hpage : env.ledger.page key cursor env.pageSize = .error .outOfRange := by
        simp only [page, hrows, if_neg hfits]
      simp only [run, listing, hkey, hcursor, hpage]
      rfl
  | _ => exact h.elim

/-- A listing is foreseen unless it is oversized. -/
theorem foreseen_listing {env : Setting} (hsize : 1 ≤ env.pageSize) {staker paginationKey : String}
    (h : ¬(listDelegations staker paginationKey).Oversized env.ledger env.pageSize) :
    (listing env staker paginationKey).Foreseen := by
  unfold listing
  dsimp only
  split
  · exact Outcome.foreseen_fail rfl
  rename_i key hkey
  split
  · exact Outcome.foreseen_fail rfl
  rename_i cursor hcursor
  have hstorage : OnlyStorage (env.ledger.page key cursor env.pageSize) := by
    cases hrows : env.ledger.rows with
    | error cause =>
        simp only [page, hrows]
        exact (hrows ▸ env.ledger.onlyStorage_rows).pass
    | ok rows =>
        have hfits : fits (env.pageSize + 1) = true :=
          (fits_succ_iff hsize).mpr fun hlarge =>
            h ⟨hlarge, ⟨key, hkey⟩, ⟨cursor, hcursor⟩, rows, hrows⟩
        exact env.ledger.onlyStorage_page key cursor hsize hfits
  split
  · rename_i hpage
    exact Outcome.foreseen_ofLedgerFault (hpage ▸ hstorage) _
  · exact Outcome.foreseen_answer _ _ _

/-- With a page size that is positive and a clock in the years of the calendar, the
queries without foreseen outcome are the oversized listings. -/
theorem foreseen_run_iff {env : Setting} (hsize : 1 ≤ env.pageSize)
    (hfirst : -62135596800 ≤ env.clock) (hlast : env.clock ≤ 253402300799) (q : Query) :
    (q.run env).Foreseen ↔ ¬q.Oversized env.ledger env.pageSize := by
  constructor
  · intro hforeseen hover
    exact absurd (hforeseen _ (result_of_oversized hsize hover)) (by decide)
  · intro h
    cases q with
    | listDelegations staker paginationKey => exact foreseen_listing hsize h
    | countStakers provider => exact foreseen_overProvider _ _ env provider
    | countProviderDelegations provider => exact foreseen_overProvider _ _ env provider
    | countStakerDelegations staker => exact foreseen_overStaker _ _ env staker
    | checkActivity address timeframe => exact foreseen_activity hfirst hlast address timeframe
    | findDelegation txHash => exact foreseen_lookup env txHash

end Query

/-! ## Settings that pass their check -/

/-- Settings that pass their check name a network and have a positive page size. -/
theorem Settings.of_fault?_eq_none {s : Settings} (h : s.fault? = none) :
    (∃ net, s.network? = some net) ∧ 1 ≤ s.pageSize := by
  have hpasses := s.fault?_eq_none_iff.mp h
  exact ⟨hpasses.network, hpasses.pageSize⟩

namespace Desk

/-- The outcome of a desk, apart from the names on journal lines, is that of the query. -/
theorem foreseen_ask (desk : Desk) (clock : Int) (request : String) (q : Query) :
    (desk.ask clock request q).1.Foreseen ↔ (q.run (desk.setting clock)).Foreseen :=
  Iff.rfl

/-- With settings that pass their check and a clock in the years of the calendar, every
query of a desk is answered or has a fault with a status, whatever its ledger is,
unless it is an oversized listing, and that has a fault that nobody foresees. -/
theorem foreseen_ask_iff {s : Settings} (hs : s.fault? = none) {clock : Int}
    (hfirst : -62135596800 ≤ clock) (hlast : clock ≤ 253402300799) :
    ∃ net, s.network? = some net ∧
      ∀ desk : Desk, desk.network = net → desk.pageSize = s.pageSize →
        ∀ (request : String) (q : Query),
          ((desk.ask clock request q).1.Foreseen ↔ ¬q.Oversized desk.ledger s.pageSize) ∧
          (q.Oversized desk.ledger s.pageSize →
            (desk.ask clock request q).1.result = .error (.internal .outOfRange)) := by
  obtain ⟨⟨net, hnet⟩, hsize⟩ := Settings.of_fault?_eq_none hs
  refine ⟨net, hnet, fun desk _ hdesk request q => ?_⟩
  rw [← hdesk] at hsize ⊢
  constructor
  · rw [foreseen_ask]
    exact @Query.foreseen_run_iff (desk.setting clock) hsize hfirst hlast q
  · exact @Query.result_of_oversized (desk.setting clock) hsize q

/-- The settings that a server begins with, at the beginning of 1970, and a listing of
its empty ledger. -/
theorem foreseen_ask_iff_initial :
    ({} : Settings).fault? = none ∧
      (ask ⟨.empty, .signet, 100, {}⟩ 0 ""
        (.listDelegations (String.ofList (List.replicate 66 '1')) "")).1.Foreseen := by
  have hs : ({} : Settings).fault? = none := by decide
  refine ⟨hs, ?_⟩
  obtain ⟨net, hnet, hask⟩ := @foreseen_ask_iff {} hs 0 (by decide) (by decide)
  obtain rfl := Option.some.inj ((show ({} : Settings).network? = some .signet by decide).symm.trans
    hnet)
  refine (hask ⟨.empty, .signet, 100, {}⟩ rfl rfl "" _).1.mpr ?_
  rintro ⟨hlarge, -⟩
  exact absurd hlarge (by decide)

/-- The greatest number in a column passes the check of the settings, but as a page size
it makes a listing of an empty ledger fail with a fault that has no status. -/
theorem not_foreseen_ask_greatest :
    ∃ s : Settings, s.fault? = none ∧ s.network? = some .signet ∧
      ¬(ask ⟨.empty, .signet, s.pageSize, {}⟩ 0 ""
        (.listDelegations (String.ofList (List.replicate 66 '1')) "")).1.Foreseen := by
  refine ⟨{ pageSize := 2 ^ 63 - 1 }, by decide, by decide, ?_⟩
  rw [foreseen_ask]
  have hkey := (PublicKey.normalize_eq_self_iff _).mpr
    (PublicKey.isNormal_replicate (c := '1') (by decide))
  refine mt (Query.foreseen_run_iff (by decide) (by decide) (by decide) _).mp ?_
  exact not_not_intro ⟨by decide, ⟨_, hkey⟩, ⟨.start, by simp [Cursor.ofKey?]⟩, [], rfl⟩

end Desk

end StakeLedger
