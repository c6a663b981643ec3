import Mathlib.Algebra.BigOperators.Group.Finset.Basic
import StakeLedger.Proofs.Seeding.Devnet

/-!
# Seeded datasets

A ledger that was empty and is filled as planned holds what was dealt, and a desk over
it answers accordingly: a walk through the delegations of a staker is given the hand of
that staker, latest first, and the counts of the providers and those of the stakers add
up to the same.

Main definitions:

- {lit}`Seeding.Seeded`: a ledger with the dataset of a deck.

Main results:

- Theorem {lit}`Seeding.listed_eq`: listings reverse the order of saving.
- Theorem {lit}`Seeding.walk_hand`: a walk is given the hand of its staker, latest first.
- Theorem {lit}`Seeding.counts_deck`: the counts of providers and stakers agree.
- Theorem {lit}`Seeding.fill_seeds`: filling the empty ledger leads to such a dataset.
-/

namespace StakeLedger.Seeding

/-! ## Listings of hands -/

/-- Hands whose x coordinates differ are of different stakers. -/
theorem Dealable.stakers {hands : List Hand} (h : Dealable hands) :
    (hands.map Hand.staker).Nodup := by
  have hcoordinates := h.coordinates
  rw [List.Nodup, List.pairwise_map] at hcoordinates ⊢
  refine hcoordinates.imp fun {a b} hne heq => hne ?_
  rw [Hand.coordinate, Hand.coordinate, Hex.text_injective heq]

/-- The delegations of one staker among those of all hands are the hand of that
staker. -/
theorem filter_staker {hands : List Hand} (hdistinct : (hands.map Hand.staker).Nodup)
    (hown : ∀ hand ∈ hands, ∀ d ∈ hand.delegations, d.staker = hand.staker) {hand : Hand}
    (hhand : hand ∈ hands) :
    (hands.flatMap Hand.delegations).filter (fun d => d.staker == hand.staker) =
      hand.delegations := by
  induction hands with
  | nil => simp at hhand
  | cons first rest ih =>
      rw [List.map_cons, List.nodup_cons] at hdistinct
      rw [List.forall_mem_cons] at hown
      rw [List.flatMap_cons, List.filter_append]
      rcases List.mem_cons.mp hhand with rfl | hrest
      · have hothers : (rest.flatMap Hand.delegations).filter
            (fun d => d.staker == hand.staker) = [] := by
          rw [List.filter_eq_nil_iff]
          intro d hd heq
          obtain ⟨other, hother, hd⟩ := List.mem_flatMap.mp hd
          rw [beq_iff_eq, hown.2 other hother d hd] at heq
          exact hdistinct.1 (List.mem_map.mpr ⟨other, hother, heq⟩)
        rw [hothers, List.append_nil, List.filter_eq_self]
        exact fun d hd => beq_iff_eq.mpr (hown.1 d hd)
      · have hfirst : first.delegations.filter (fun d => d.staker == hand.staker) = [] := by
          rw [List.filter_eq_nil_iff]
          intro d hd heq
          rw [beq_iff_eq, hown.1 d hd] at heq
          exact hdistinct.1 (List.mem_map.mpr ⟨hand, hrest, heq.symm⟩)
        rw [hfirst, List.nil_append]
        exact ih hdistinct.2 hown.2 hrest

/-- Where delegations were saved from the lowest to the highest, the listing of those
that pass a test has them in reverse order. -/
theorem listed_eq {ds : List Delegation} (hdistinct : (ds.map Delegation.txHash).Nodup)
    (hup : ds.Pairwise fun d e => d.staking.startHeight < e.staking.startHeight)
    (test : Delegation → Bool) :
    Delegation.listed ds.reverse test = (ds.filter test).reverse := by
  have hreversed : (ds.reverse.map Delegation.txHash).Nodup := by
    rwa [List.map_reverse, List.nodup_reverse]
  have hdown : (ds.filter test).reverse.Pairwise Delegation.Precedes := by
    rw [List.pairwise_reverse]
    exact (hup.sublist List.filter_sublist).imp fun hlt => Or.inl hlt
  have hperm : (Delegation.listed ds.reverse test).Perm (ds.filter test).reverse := by
    rw [Delegation.listed, ← List.filter_reverse]
    exact List.mergeSort_perm _ _
  exact hperm.eq_of_pairwise' (Delegation.pairwise_listed hreversed test) hdown

/-! ## Seeded ledgers -/

variable {σ : Type}

/-- An open ledger with the dataset of a deck.  Its rows are those of the delegations,
the last one that was dealt first.  Heights grow from delegation to delegation, and each
began within a month.  Over any desk, a walk is given the hand of its staker, latest
first, and the counts of providers and stakers agree. -/
structure Seeded (plan : Plan) (net : Network) (clock : Int) (deck : Deck) (l : Ledger) :
    Prop where
  isOpen : l.isOpen = true
  rows : l.delegations = some (deck.delegations.reverse.map Ledger.Row.ofDelegation)
  /-- There is one mapping for each staker, and its address decodes to the x coordinate
  of the key of that staker. -/
  mappings : ∃ pairs, l.mappings = some pairs ∧ pairs.length = plan.stakers.toNat ∧
    (pairs.map Prod.fst).Nodup ∧ List.Forall₂ (Hand.Mapped net) deck.hands.reverse pairs
  heights : ∀ (k : Nat) (d : Delegation), deck.delegations[k]? = some d →
    800000 + ((k : Int) + 1) ≤ d.staking.startHeight ∧
      d.staking.startHeight ≤ 800000 + 20 * ((k : Int) + 1)
  ascending : deck.delegations.Pairwise fun d e =>
    d.staking.startHeight < e.staking.startHeight
  regular : ∀ hand ∈ deck.hands,
    hand.Regular deck.providerKeys clock plan.delegations.toNat
  walks : ∀ hand ∈ deck.hands, ∀ desk : Desk, desk.ledger = l → 1 ≤ desk.pageSize →
    desk.pageSize ≤ 2 ^ 63 - 2 → ∀ now request most, deck.delegations.length < most →
      (desk.walk now request hand.staker most "").1.Complete desk.pageSize.toNat
        hand.delegations.reverse
  counts : ∀ desk : Desk, desk.ledger = l → ∃ byProvider byStaker : String → Nat,
    (∀ provider ∈ deck.providerKeys, ∀ now request,
      (desk.ask now request (.countProviderDelegations provider)).1.result =
        .ok (.count (byProvider provider))) ∧
    (∀ hand ∈ deck.hands, ∀ now request,
      (desk.ask now request (.countStakerDelegations hand.staker)).1.result =
        .ok (.count (byStaker hand.staker))) ∧
    ∑ provider ∈ deck.providerKeys.toFinset, byProvider provider =
      (deck.hands.map fun hand => byStaker hand.staker).sum ∧
    (deck.hands.map fun hand => byStaker hand.staker).sum =
      deck.delegations.countP Delegation.isCountable

/-- Different hands are mapped from different addresses. -/
theorem nodup_addresses {net : Network} {hands : List Hand} {pairs : List (String × Ledger.Cell)}
    (h : List.Forall₂ (Hand.Mapped net) hands pairs)
    (hdistinct : (hands.map Hand.coordinate).Nodup) : (pairs.map Prod.fst).Nodup := by
  induction h with
  | nil => exact List.nodup_nil
  | @cons hand pair hands pairs hfirst hrest ih =>
      rw [List.map_cons, List.nodup_cons] at hdistinct ⊢
      refine ⟨fun hmem => ?_, ih hdistinct.2⟩
      obtain ⟨other, hother, heq⟩ := List.mem_map.mp hmem
      obtain ⟨found, hfound, hmapped⟩ := exists_hand_of_mapped hrest other hother
      refine hmapped.address_ne hfirst (fun hcoordinate => hdistinct.1 ?_) heq
      exact List.mem_map.mpr ⟨found, hfound, hcoordinate⟩

/-- Counted one key at a time, with keys that nothing has among them, what passes a test
is counted once each. -/
theorem sum_countP_of_mem {α : Type} {key : α → String} {keys : List String} {xs : List α}
    (h : ∀ x ∈ xs, key x ∈ keys) (test : α → Bool) :
    ∑ k ∈ keys.toFinset, xs.countP (fun x => key x == k && test x) = xs.countP test := by
  rw [← sum_countP_eq key test xs]
  symm
  refine Finset.sum_subset ?_ ?_
  · intro k hk
    obtain ⟨x, hx, rfl⟩ := List.mem_map.mp (List.mem_toFinset.mp hk)
    exact List.mem_toFinset.mpr (h x hx)
  · intro k _ hk
    rw [List.countP_eq_zero]
    intro x hx hpass
    rw [Bool.and_eq_true, beq_iff_eq] at hpass
    exact hk (List.mem_toFinset.mpr (List.mem_map.mpr ⟨x, hx, hpass.1⟩))

/-- The key of a hand is its own normal form. -/
theorem Hand.normalize_staker (hand : Hand) :
    PublicKey.normalize hand.staker = .ok hand.staker :=
  (PublicKey.normalize_eq_self_iff _).mpr
    (PublicKey.isNormal_text (Secp256k1.length_compress _))

/-- The keys of providers are their own normal forms. -/
theorem Deck.normalize_provider {deck : Deck} {key : String} (h : key ∈ deck.providerKeys) :
    PublicKey.normalize key = .ok key := by
  obtain ⟨octets, -, rfl⟩ := List.mem_map.mp h
  exact (PublicKey.normalize_eq_self_iff _).mpr
    (PublicKey.isNormal_text (Secp256k1.length_compress _))

section Desks

variable {deck : Deck} {desk : Desk} {clock : Int} {n : Nat}

/-- All delegations of a deck that can be saved can be read. -/
theorem reads_deck (hholds : desk.ledger.Holds deck.delegations.reverse)
    (hdealable : Dealable deck.hands)
    (hregular : ∀ hand ∈ deck.hands, hand.Regular deck.providerKeys clock n)
    (test : Delegation → Bool) : desk.ledger.Reads test := by
  intro d hd _
  have hdealt := List.mem_reverse.mp (hholds.stores_iff.mp hd)
  obtain ⟨hand, hhand, hin⟩ := List.mem_flatMap.mp hdealt
  exact (hregular hand hhand).legible d hin (hdealable.savable.fits d hdealt)

/-- A walk through the delegations of a staker is given the hand of that staker, latest
first. -/
theorem walk_hand (hholds : desk.ledger.Holds deck.delegations.reverse)
    (hopen : desk.ledger.isOpen = true) (hdealable : Dealable deck.hands)
    (hregular : ∀ hand ∈ deck.hands, hand.Regular deck.providerKeys clock n) {top : Nat}
    (hclimb : Climb 800000 deck.delegations top) {hand : Hand} (hhand : hand ∈ deck.hands)
    (hlow : 1 ≤ desk.pageSize) (hhigh : desk.pageSize ≤ 2 ^ 63 - 2) (now : Int)
    (request : String) {most : Nat} (hmost : deck.delegations.length < most) :
    (desk.walk now request hand.staker most "").1.Complete desk.pageSize.toNat
      hand.delegations.reverse := by
  have hheights : ∀ d ∈ deck.delegations.reverse, 0 ≤ d.staking.startHeight := by
    intro d hd
    have := hclimb.above d (List.mem_reverse.mp hd)
    omega
  have hwalk := Desk.complete_walk hholds hopen hheights hlow hhigh hand.normalize_staker
    (reads_deck hholds hdealable hregular _) now request (by rwa [List.length_reverse])
  have hdistinct : (deck.delegations.map Delegation.txHash).Nodup := hdealable.savable.distinct
  rwa [listed_eq hdistinct hclimb.pairwise, Deck.delegations, filter_staker hdealable.stakers
    (fun hand hhand => (hregular hand hhand).staker) hhand] at hwalk

/-- The counts of the providers, and those of the stakers, add up to the countable
delegations that were dealt. -/
theorem counts_deck (hholds : desk.ledger.Holds deck.delegations.reverse)
    (hopen : desk.ledger.isOpen = true) (hdealable : Dealable deck.hands)
    (hregular : ∀ hand ∈ deck.hands, hand.Regular deck.providerKeys clock n) :
    ∃ byProvider byStaker : String → Nat,
      (∀ provider ∈ deck.providerKeys, ∀ now request,
        (desk.ask now request (.countProviderDelegations provider)).1.result =
          .ok (.count (byProvider provider))) ∧
      (∀ hand ∈ deck.hands, ∀ now request,
        (desk.ask now request (.countStakerDelegations hand.staker)).1.result =
          .ok (.count (byStaker hand.staker))) ∧
      ∑ provider ∈ deck.providerKeys.toFinset, byProvider provider =
        (deck.hands.map fun hand => byStaker hand.staker).sum ∧
      (deck.hands.map fun hand => byStaker hand.staker).sum =
        deck.delegations.countP Delegation.isCountable := by
  have hprovider : ∀ d ∈ deck.delegations.reverse, d.provider ∈ deck.providerKeys := by
    intro d hd
    obtain ⟨hand, hhand, hd⟩ := List.mem_flatMap.mp (List.mem_reverse.mp hd)
    exact (hregular hand hhand).provider d hd
  have hstaker : ∀ d ∈ deck.delegations.reverse, d.staker ∈ deck.hands.map Hand.staker := by
    intro d hd
    obtain ⟨hand, hhand, hd⟩ := List.mem_flatMap.mp (List.mem_reverse.mp hd)
    rw [(hregular hand hhand).staker d hd]
    exact List.mem_map_of_mem hhand
  have hproviders := sum_countP_of_mem hprovider Delegation.isCountable
  have hstakers : (deck.hands.map fun hand => deck.delegations.reverse.countP fun d =>
      d.staker == hand.staker && d.isCountable).sum =
        deck.delegations.reverse.countP Delegation.isCountable := by
    rw [← sum_countP_of_mem hstaker, List.sum_toFinset _ hdealable.stakers, List.map_map]
    rfl
  rw [List.countP_reverse] at hproviders hstakers
  refine ⟨fun key => deck.delegations.reverse.countP fun d => d.provider == key && d.isCountable,
    fun key => deck.delegations.reverse.countP fun d => d.staker == key && d.isCountable,
    ?_, ?_, ?_, ?_⟩
  · intro provider hmem now request
    exact (Desk.ask_provider_of_reads hholds hopen (Deck.normalize_provider hmem)
      (reads_deck hholds hdealable hregular _) now request).1
  · intro hand _ now request
    exact Desk.ask_staker_of_reads hholds hopen hand.normalize_staker
      (reads_deck hholds hdealable hregular _) now request
  · exact hproviders.trans hstakers.symm
  · exact hstakers

end Desks

/-- The numbers of what is dealt fit in their columns unless there is no room for the
highest height that so many delegations can come to, or for the clock. -/
theorem fits_deck (source : Draws σ) {plan : Plan} (hproviders : 1 ≤ plan.providers)
    {clock : Int} (s : σ)
    (hroom : 800000 + 20 * (plan.stakers.toNat * plan.delegations.toNat) < 2 ^ 63)
    (hlow : -2 ^ 63 ≤ clock - month) (hhigh : clock < 2 ^ 63) :
    ∀ d ∈ (deck source plan clock s).delegations, d.fits = true := by
  have hregular := regular_deck source hproviders clock s
  have hlength := length_hands source plan clock s
  obtain ⟨top, hclimb⟩ := climb_deck source plan clock s
  generalize deck source plan clock s = deck at *
  have hmany : deck.delegations.length = plan.stakers.toNat * plan.delegations.toNat := by
    rw [Deck.delegations, List.length_flatMap, List.map_congr_left fun hand hhand =>
      (hregular hand hhand).length, List.map_const', List.sum_replicate, hlength, smul_eq_mul]
  intro d hd
  obtain ⟨hand, hhand, hin⟩ := List.mem_flatMap.mp hd
  have hbegun := (hregular hand hhand).begun d hin
  obtain ⟨k, hk, rfl⟩ := List.getElem_of_mem hd
  have hheight := hclimb.bounds (List.getElem?_eq_getElem hk)
  rw [Delegation.createdAt] at hbegun
  simp only [Delegation.fits, Ledger.fits, Bool.and_eq_true, decide_eq_true_eq]
  omega

/-- With room for the numbers, stakers can enroll with the hands of a deck if their keys
are valid and neither x coordinates nor hashes come twice. -/
theorem dealable_deck (source : Draws σ) {plan : Plan} (hproviders : 1 ≤ plan.providers)
    {clock : Int} (s : σ)
    (hroom : 800000 + 20 * (plan.stakers.toNat * plan.delegations.toNat) < 2 ^ 63)
    (hlow : -2 ^ 63 ≤ clock - month) (hhigh : clock < 2 ^ 63)
    (hkeys : ∀ hand ∈ (deck source plan clock s).hands, PrivateKey.IsValid hand.privateKey)
    (hcoordinates : ((deck source plan clock s).hands.map Hand.coordinate).Nodup)
    (hhashes : ((deck source plan clock s).delegations.map Delegation.txHash).Nodup) :
    Dealable (deck source plan clock s).hands where
  keys := hkeys
  coordinates := hcoordinates
  savable := ⟨hhashes, fits_deck source hproviders s hroom hlow hhigh⟩

/-- Filling the empty ledger as planned has no fault and leads to the dataset that the
plan deals, if there is a provider, the private keys are valid, the x coordinates of the
stakers differ, and the delegations can be saved: their hashes differ, and their numbers
fit in their columns. -/
theorem fill_seeds (source : Draws σ) {plan : Plan} (hproviders : 1 ≤ plan.providers)
    (net : Network) (clock : Int) (s : σ)
    (hkeys : ∀ key ∈ (deck source plan clock s).providers, PrivateKey.IsValid key)
    (hdealable : Dealable (deck source plan clock s).hands) :
    (fill source plan net clock s .empty).fault = none ∧
      Seeded plan net clock (deck source plan clock s)
        (fill source plan net clock s .empty).reached.ledger := by
  obtain ⟨hfault, pairs, hfilled, hpairs⟩ :=
    fill_follows source hproviders net clock s hkeys hdealable
  have hregular := regular_deck source hproviders clock s
  have hlength := length_hands source plan clock s
  obtain ⟨top, hclimb⟩ := climb_deck source plan clock s
  generalize (fill source plan net clock s .empty).reached.ledger = l at hfilled ⊢
  generalize deck source plan clock s = deck at *
  have hcoordinates : (deck.hands.reverse.map Hand.coordinate).Nodup := by
    rw [List.map_reverse, List.nodup_reverse]
    exact hdealable.coordinates
  refine ⟨hfault, hfilled.isOpen, hfilled.holds.rows, ⟨pairs, hfilled.mappings, ?_,
    nodup_addresses hpairs hcoordinates, hpairs⟩, fun _ _ hd => hclimb.bounds hd, hclimb.pairwise,
    hregular, ?_, ?_⟩
  · rw [← hpairs.length_eq, List.length_reverse, hlength]
  · rintro hand hhand desk rfl hlow hhigh now request most hmost
    exact walk_hand hfilled.holds hfilled.isOpen hdealable hregular hclimb hhand hlow hhigh now
      request hmost
  · rintro desk rfl
    exact counts_deck hfilled.holds hfilled.isOpen hdealable hregular

/-- Two of everything, from the sequences of two seeds. -/
def couples : Deck :=
  deck Congruential.draws ⟨2, 2, 2⟩ 1700000000 (.ofSeeds 3 5)

/-- Two stakers are dealt two delegations each to two providers. -/
theorem fill_seeds_couples :
    (∀ key ∈ couples.providers, PrivateKey.IsValid key) ∧ Dealable couples.hands ∧
      (fill Congruential.draws ⟨2, 2, 2⟩ .signet 1700000000 (.ofSeeds 3 5) .empty).fault = none ∧
      Seeded ⟨2, 2, 2⟩ .signet 1700000000 couples
        (fill Congruential.draws ⟨2, 2, 2⟩ .signet 1700000000 (.ofSeeds 3 5) .empty).reached.ledger
    := by
  have hkeys : ∀ key ∈ couples.providers, PrivateKey.IsValid key := by decide +kernel
  have hdealable : Dealable couples.hands :=
    dealable_deck Congruential.draws (by decide) _ (by decide) (by decide) (by decide)
      (by decide +kernel) (by decide +kernel) (by decide +kernel)
  exact ⟨hkeys, hdealable,
    fill_seeds Congruential.draws (by decide) .signet 1700000000 _ hkeys hdealable⟩

end StakeLedger.Seeding
