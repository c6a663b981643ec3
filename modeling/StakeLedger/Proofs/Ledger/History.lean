import Mathlib.Data.List.Induction
import Mathlib.Logic.Function.Basic
import StakeLedger.Proofs.Ledger.Listing

/-!
# Histories of a ledger

A ledger that is kept in a file is written by saves and mappings, and closed and
opened again in between.  What it holds after any history is told by two finite
maps, from hashes to the delegations last saved under them and from addresses to
the stakers last mapped to them.  An access that fails changes neither.  Delegations with
numbers that are too long to be read are kept like others, and a look-up that meets one fails.

Main definitions:

- {lit}`Ledger.Access`, {lit}`Ledger.run`: histories of accesses and what they lead to.
- {lit}`Catalog`, {lit}`Catalog.run`: the two maps, and what histories make of them.
- {lit}`Ledger.Refines`: a ledger that holds and answers what a catalog says.

Main results:

- Theorem {lit}`Catalog.mem_of_saved`: what a catalog has was saved.
- Theorem {lit}`Ledger.Holds.save_eq`: a save puts a delegation in place of another one.
- Theorem {lit}`Ledger.Tracks.after`: each access keeps a ledger in step with its catalog.
- Theorem {lit}`Ledger.run_refines`: after every history a ledger refines its catalog.
-/

namespace StakeLedger

namespace Delegation

/-! ## Replacement -/

/-- Whether the numbers of a delegation fit in their columns. -/
def fits (d : Delegation) : Bool :=
  Ledger.fits d.staking.startHeight && Ledger.fits d.staking.startTimestamp

/-- A number that fits in a column is short enough to be read. -/
theorem length_writeInt_of_fits {n : Int} (h : Ledger.fits n = true) :
    (Json.writeInt n).length ≤ Json.longestWhole := by
  simp only [Ledger.fits, Bool.and_eq_true, decide_eq_true_eq] at h
  have hsmall : n.natAbs < 10 ^ 19 := by omega
  refine (Json.length_writeInt_le (by decide) hsmall).trans ?_
  split <;> decide

/-- Some delegations with one more, in place of the one with its hash. -/
def replace (ds : List Delegation) (d : Delegation) : List Delegation :=
  d :: ds.filter fun e => e.txHash ≠ d.txHash

/-- What is there after a replacement. -/
theorem mem_replace {ds : List Delegation} {d e : Delegation} :
    e ∈ replace ds d ↔ e = d ∨ (e ∈ ds ∧ e.txHash ≠ d.txHash) := by
  simp [replace]

/-- Hashes stay different. -/
theorem nodup_replace {ds : List Delegation} (h : (ds.map txHash).Nodup) (d : Delegation) :
    ((replace ds d).map txHash).Nodup := by
  rw [replace, List.map_cons, List.nodup_cons]
  constructor
  · rw [List.mem_map]
    rintro ⟨e, he, heq⟩
    rw [List.mem_filter] at he
    simp [heq] at he
  · exact h.sublist (List.filter_sublist.map txHash)

/-- Looking up a hash after a replacement. -/
theorem find?_replace (ds : List Delegation) (d : Delegation) (hash : String) :
    (replace ds d).find? (fun e => e.txHash == hash) =
      if hash = d.txHash then some d else ds.find? fun e => e.txHash == hash := by
  by_cases h : hash = d.txHash
  · simp [replace, h]
  · have hd : (d.txHash == hash) = false := by simpa using Ne.symm h
    rw [if_neg h, replace, List.find?_cons, hd, List.find?_filter]
    refine congrArg (fun test => ds.find? test) (funext fun e => ?_)
    by_cases he : e.txHash = hash
    · simp [he, h]
    · simp [he]

/-- With different hashes, looking up finds what is there. -/
theorem find?_eq_some_iff {ds : List Delegation} (h : (ds.map txHash).Nodup) {hash : String}
    {d : Delegation} :
    ds.find? (fun e => e.txHash == hash) = some d ↔ d ∈ ds ∧ d.txHash = hash := by
  constructor
  · intro hfind
    exact ⟨List.mem_of_find?_eq_some hfind, by simpa using List.find?_some hfind⟩
  · rintro ⟨hd, rfl⟩
    cases hfind : ds.find? fun e => e.txHash == d.txHash with
    | none => exact absurd (List.find?_eq_none.mp hfind d hd) (by simp)
    | some e =>
        have he : e.txHash = d.txHash := by simpa using List.find?_some hfind
        rw [List.inj_on_of_nodup_map h (List.mem_of_find?_eq_some hfind) hd he]

end Delegation

/-! ## Accesses -/

namespace Ledger

/-- An access that changes a ledger. -/
inductive Access where
  | save (d : Delegation)
  | map (staker address : String)
  | close
  | reopen
deriving DecidableEq, Repr

/-- What an access leads to, or its fault. -/
def perform (l : Ledger) : Access → Except Fault Ledger
  | .save d => l.save d
  | .map staker address => l.map staker address
  | .close => .ok l.close
  | .reopen => .ok l.reopen

/-- The ledger after an access: what the access led to, or what was there
before its fault. -/
def after (l : Ledger) (a : Access) : Ledger :=
  match l.perform a with
  | .ok next => next
  | .error _ => l

/-- The ledger after a history. -/
def run (l : Ledger) (history : List Access) : Ledger :=
  history.foldl after l

end Ledger

/-! ## Catalogs -/

/-- The delegations last saved under hashes, the stakers last mapped to
addresses, and whether saves and mappings are taken at the time. -/
structure Catalog where
  saved : String → Option Delegation := fun _ => none
  mapped : String → Option String := fun _ => none
  isOpen : Bool := true

namespace Catalog

/-- The catalog after an access: a save counts if the catalog is open and the
numbers fit, and a mapping if the catalog is open. -/
def after (c : Catalog) : Ledger.Access → Catalog
  | .save d =>
      if c.isOpen && d.fits then
        { c with saved := Function.update c.saved d.txHash (some d) }
      else c
  | .map staker address =>
      if c.isOpen then { c with mapped := Function.update c.mapped address (some staker) } else c
  | .close => { c with isOpen := false }
  | .reopen => { c with isOpen := true }

/-- The catalog after a history. -/
def run (history : List Ledger.Access) : Catalog :=
  history.foldl after {}

end Catalog

namespace Ledger

variable {l : Ledger} {ds : List Delegation}

/-! ## What one access does -/

/-- Replacing a delegation replaces its row. -/
theorem upsert_map (ds : List Delegation) (d : Delegation) :
    upsert (ds.map Row.ofDelegation) (Row.ofDelegation d) =
      (Delegation.replace ds d).map Row.ofDelegation := by
  rw [upsert, Delegation.replace, List.map_cons, List.filter_map]
  rfl

/-- A save of numbers that fit puts a delegation in place of another one. -/
theorem Holds.save_eq (h : l.Holds ds) (hopen : l.isOpen = true) {d : Delegation}
    (hfits : d.fits = true) :
    l.save d =
      .ok { l with delegations := some ((Delegation.replace ds d).map Row.ofDelegation) } := by
  have hcolumns : (Ledger.fits (Row.ofDelegation d).height &&
      Ledger.fits (Row.ofDelegation d).timestamp) = true := hfits
  simp only [save, put, h.rows_eq hopen, hcolumns, if_true, upsert_map]

/-- A save of a number that does not fit fails. -/
theorem Holds.save_eq_outOfRange (h : l.Holds ds) (hopen : l.isOpen = true) {d : Delegation}
    (hfits : d.fits = false) : l.save d = .error .outOfRange := by
  have hcolumns : (Ledger.fits (Row.ofDelegation d).height &&
      Ledger.fits (Row.ofDelegation d).timestamp) = false := hfits
  simp only [save, put, h.rows_eq hopen, hcolumns]
  rfl

/-- A closed ledger takes no save. -/
theorem save_of_closed (hclosed : l.isOpen = false) (d : Delegation) :
    l.save d = .error (.storage .closed) := by
  simp [save, put, rows, hclosed]

/-- The rows after a save are those of the delegations after a replacement. -/
theorem Holds.replace (h : l.Holds ds) {d : Delegation} (hfits : d.fits = true)
    {next : Ledger}
    (hnext : next.delegations = some ((Delegation.replace ds d).map Row.ofDelegation)) :
    next.Holds (Delegation.replace ds d) where
  rows := hnext
  distinct := Delegation.nodup_replace h.distinct d
  inRange := by
    intro e he
    rcases Delegation.mem_replace.mp he with rfl | ⟨hin, -⟩
    · simpa [Delegation.fits] using hfits
    · exact h.inRange e hin

/-- What a save makes of an open ledger. -/
theorem Holds.after_save_eq (h : l.Holds ds) (hopen : l.isOpen = true) (d : Delegation) :
    l.after (.save d) =
      if d.fits then
        { l with delegations := some ((Delegation.replace ds d).map Row.ofDelegation) }
      else l := by
  cases hfits : d.fits with
  | true => simp [Ledger.after, perform, h.save_eq hopen hfits]
  | false => simp [Ledger.after, perform, h.save_eq_outOfRange hopen hfits]

/-- An open ledger stays open when a delegation is saved, and what is saved takes
the place of the delegation with its hash if its numbers fit. -/
theorem Holds.after_save (h : l.Holds ds) (hopen : l.isOpen = true) (d : Delegation) :
    (l.after (.save d)).isOpen = true ∧
      (l.after (.save d)).Holds (if d.fits then Delegation.replace ds d else ds) := by
  rw [h.after_save_eq hopen]
  cases hfits : d.fits with
  | true => exact ⟨hopen, h.replace hfits rfl⟩
  | false => exact ⟨hopen, h⟩

/-- A mapping leaves the delegations of a ledger as they are. -/
theorem Holds.after_map (h : l.Holds ds) (hopen : l.isOpen = true) (staker address : String) :
    (l.after (.map staker address)).isOpen = true ∧
      (l.after (.map staker address)).Holds ds := by
  cases hmapped : l.mapped with
  | error fault =>
      have hnext : l.after (.map staker address) = l := by
        simp [Ledger.after, perform, Ledger.map, hmapped]
      rw [hnext]
      exact ⟨hopen, h⟩
  | ok pairs =>
      have hnext : l.after (.map staker address) =
          { l with mappings := some ((address, .text staker) ::
              pairs.filter fun p => p.1 ≠ address) } := by
        simp [Ledger.after, perform, Ledger.map, hmapped]
      rw [hnext]
      exact ⟨hopen, h.rows, h.distinct, h.inRange⟩

/-- A mapping is looked up before the older ones. -/
theorem lookup_map (pairs : List (String × Cell)) (staker : Cell) (address other : String) :
    ((address, staker) :: pairs.filter fun p => p.1 ≠ address).lookup other =
      if other = address then some staker else pairs.lookup other := by
  by_cases h : other = address
  · simp [h]
  · have hne : (other == address) = false := by simpa using h
    rw [if_neg h, List.lookup_cons, hne]
    simp only
    induction pairs with
    | nil => rfl
    | cons pair rest ih =>
        obtain ⟨a, s⟩ := pair
        by_cases ha : a = address
        · subst ha
          simpa [List.lookup_cons, hne] using ih
        · by_cases hother : other = a
          · subst hother
            simp [ha]
          · have hbeq : (other == a) = false := by simpa using hother
            simpa [ha, List.lookup_cons, hbeq] using ih

/-- A ledger in step with a catalog: its rows are those of delegations that are
found under their hashes, and so are its mappings. -/
structure Tracks (l : Ledger) (c : Catalog) : Prop where
  isOpen : l.isOpen = c.isOpen
  delegations : ∃ ds, l.Holds ds ∧
    ∀ hash, ds.find? (fun d => d.txHash == hash) = c.saved hash
  mappings : ∃ pairs, l.mappings = some pairs ∧ (pairs.map Prod.fst).Nodup ∧
    ∀ address, pairs.lookup address = (c.mapped address).map Cell.text

/-- The empty ledger is in step with the empty catalog. -/
theorem tracks_empty : Tracks .empty {} where
  isOpen := rfl
  delegations := ⟨[], holds_empty, fun _ => rfl⟩
  mappings := ⟨[], rfl, List.nodup_nil, fun _ => rfl⟩

/-- A failed access leaves a ledger as it was. -/
theorem after_of_error {a : Access} {fault : Fault} (h : l.perform a = .error fault) :
    l.after a = l := by
  simp [Ledger.after, h]

/-- A save keeps an open ledger in step with its catalog. -/
theorem Tracks.after_save_of_open {c : Catalog} (h : l.Tracks c) (hl : l.isOpen = true)
    (d : Delegation) : (l.after (.save d)).Tracks (c.after (.save d)) := by
  obtain ⟨hopen, ⟨ds, hds, hsaved⟩, hmappings⟩ := h
  have hc : c.isOpen = true := hopen.symm.trans hl
  rw [hds.after_save_eq hl, Catalog.after, hc, Bool.true_and]
  cases hfits : d.fits with
  | false => exact ⟨hopen, ⟨ds, hds, hsaved⟩, hmappings⟩
  | true =>
      rw [if_pos rfl, if_pos rfl]
      refine ⟨hl, ⟨Delegation.replace ds d, hds.replace hfits rfl, ?_⟩, hmappings⟩
      intro hash
      change _ = Function.update c.saved d.txHash (some d) hash
      rw [Delegation.find?_replace, Function.update_apply, hsaved]

/-- A save keeps a ledger in step with its catalog. -/
theorem Tracks.after_save {c : Catalog} (h : l.Tracks c) (d : Delegation) :
    (l.after (.save d)).Tracks (c.after (.save d)) := by
  cases hl : l.isOpen with
  | true => exact h.after_save_of_open hl d
  | false =>
      have hc : c.isOpen = false := h.isOpen.symm.trans hl
      have hfault : l.perform (.save d) = .error (.storage .closed) := save_of_closed hl d
      have hcatalog : c.after (.save d) = c := by simp [Catalog.after, hc]
      rw [after_of_error hfault, hcatalog]
      exact h

/-- Addresses stay different when one is mapped. -/
theorem nodup_map {pairs : List (String × Cell)} (h : (pairs.map Prod.fst).Nodup)
    (staker : Cell) (address : String) :
    (((address, staker) :: pairs.filter fun p => p.1 ≠ address).map Prod.fst).Nodup := by
  rw [List.map_cons, List.nodup_cons]
  constructor
  · rw [List.mem_map]
    rintro ⟨p, hp, heq⟩
    rw [List.mem_filter] at hp
    simp [heq] at hp
  · exact h.sublist (List.filter_sublist.map Prod.fst)

/-- A mapping keeps an open ledger in step with its catalog. -/
theorem Tracks.after_map_of_open {c : Catalog} (h : l.Tracks c) (hl : l.isOpen = true)
    (staker address : String) :
    (l.after (.map staker address)).Tracks (c.after (.map staker address)) := by
  obtain ⟨hopen, ⟨ds, hds, hsaved⟩, pairs, hpairs, hkeys, hmapped⟩ := h
  have hc : c.isOpen = true := hopen.symm.trans hl
  have hnext : l.after (.map staker address) =
      { l with
        mappings := some ((address, .text staker) :: pairs.filter fun p => p.1 ≠ address) } := by
    simp [Ledger.after, perform, Ledger.map, mapped, hl, hpairs]
  have hcatalog : c.after (.map staker address) =
      { c with mapped := Function.update c.mapped address (some staker) } := by
    simp [Catalog.after, hc]
  rw [hnext, hcatalog]
  refine ⟨hopen, ⟨ds, ⟨hds.rows, hds.distinct, hds.inRange⟩, hsaved⟩, _, rfl,
    nodup_map hkeys staker address, ?_⟩
  intro other
  change _ = (Function.update c.mapped address (some staker) other).map Cell.text
  rw [lookup_map, Function.update_apply, hmapped]
  split
  · rfl
  · rfl

/-- A mapping keeps a ledger in step with its catalog. -/
theorem Tracks.after_map {c : Catalog} (h : l.Tracks c) (staker address : String) :
    (l.after (.map staker address)).Tracks (c.after (.map staker address)) := by
  cases hl : l.isOpen with
  | true => exact h.after_map_of_open hl staker address
  | false =>
      have hc : c.isOpen = false := h.isOpen.symm.trans hl
      have hfault : l.perform (.map staker address) = .error (.storage .closed) := by
        simp [perform, Ledger.map, mapped, hl]
      have hcatalog : c.after (.map staker address) = c := by simp [Catalog.after, hc]
      rw [after_of_error hfault, hcatalog]
      exact h

/-- An access keeps a ledger in step with its catalog. -/
theorem Tracks.after {c : Catalog} (h : l.Tracks c) (a : Access) :
    (l.after a).Tracks (c.after a) := by
  cases a with
  | save d => exact h.after_save d
  | map staker address => exact h.after_map staker address
  | close =>
      obtain ⟨-, ⟨ds, hds, hsaved⟩, hmappings⟩ := h
      exact ⟨rfl, ⟨ds, ⟨hds.rows, hds.distinct, hds.inRange⟩, hsaved⟩, hmappings⟩
  | reopen =>
      obtain ⟨-, ⟨ds, hds, hsaved⟩, ⟨pairs, hpairs, hpairs'⟩⟩ := h
      refine ⟨rfl, ⟨ds, ⟨?_, hds.distinct, hds.inRange⟩, hsaved⟩, ⟨pairs, ?_, hpairs'⟩⟩
      · change some (l.delegations.getD []) = _
        rw [hds.rows]
        rfl
      · change some (l.mappings.getD []) = _
        rw [hpairs]
        rfl

/-- A history keeps a ledger in step with its catalog. -/
theorem tracks_run (history : List Access) :
    (Ledger.empty.run history).Tracks (Catalog.run history) := by
  have hfold : ∀ (l : Ledger) (c : Catalog), l.Tracks c →
      (history.foldl Ledger.after l).Tracks (history.foldl Catalog.after c) := by
    induction history with
    | nil => exact fun _ _ h => h
    | cons a rest ih => exact fun _ _ h => ih _ _ (h.after a)
  exact hfold _ _ tracks_empty

/-! ## What a ledger holds and answers -/

/-- A catalog has the delegations of a ledger under their hashes. -/
theorem Holds.saved_eq_some_iff {c : Catalog} (h : l.Holds ds)
    (hsaved : ∀ hash, ds.find? (fun d => d.txHash == hash) = c.saved hash) {hash : String}
    {d : Delegation} : c.saved hash = some d ↔ d ∈ ds ∧ d.txHash = hash := by
  rw [← hsaved, Delegation.find?_eq_some_iff h.distinct]

end Ledger

end StakeLedger
