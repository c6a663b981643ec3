import StakeLedger.Proofs.Address.Taproot
import StakeLedger.Proofs.Desk.Counts
import StakeLedger.Proofs.Seeding.Deck

/-!
# Seeding follows the deal

A step of seeding saves what is dealt next: a delegation, or the mapping and all the
delegations of a staker.  So as long as what is dealt can be saved, seeding has no fault,
and the ledger holds the hands that were dealt so far.

Main definitions:

- {lit}`Seeding.Savable`, {lit}`Seeding.Dealable`: what can be saved without a fault.
- {lit}`Seeding.Enrolled`: a ledger with the mappings and delegations of some hands.
- {lit}`Seeding.Run.Follows`: a run that ends where dealing does.

Main results:

- Theorem {lit}`Seeding.times_follows`: a run follows the deal if its steps do.
- Theorem {lit}`Seeding.enroll_follows`: enrolling a staker follows the deal.
- Theorem {lit}`Seeding.fill_follows`: filling the empty ledger follows the deal.
-/

namespace StakeLedger

namespace Seeding

/-- A pair that maps the address of a hand to its staker: the address decodes to the x
coordinate of the key. -/
structure Hand.Mapped (net : Network) (hand : Hand) (pair : String × Ledger.Cell) : Prop where
  staker : pair.2 = .text hand.staker
  address : ∃ address, Taproot.decode pair.1 net = .ok address ∧ address.program = hand.coordinate

/-- The key of a hand has an address. -/
theorem Hand.exists_mapped (hand : Hand) (net : Network) :
    ∃ text, addressOf hand.publicKey net = .ok text ∧ hand.Mapped net (text, hand.staker) := by
  have hlength : hand.coordinate.length = Taproot.keyLength := by
    rw [coordinate, List.length_drop, publicKey, PrivateKey.compressed, Secp256k1.length_compress]
    rfl
  obtain ⟨text, hencode, address, hdecode, hprogram⟩ := Taproot.exists_encode? hlength net
  refine ⟨text, ?_, rfl, address, hdecode, hprogram⟩
  rw [coordinate] at hencode
  simp only [addressOf, hencode, Taproot.isAddress, hdecode, if_true]

/-! ## One step -/

variable {σ : Type} (source : Draws σ)

/-- Private keys that are valid are drawn with their public keys. -/
theorem drawKeys_eq (n : Nat) (s : σ)
    (h : ∀ key ∈ (collect (source.octets PrivateKey.size) n s).1, PrivateKey.IsValid key) :
    drawKeys source n s =
      (.ok ((collect (source.octets PrivateKey.size) n s).1.map fun key =>
        Hex.text (PrivateKey.compressed key)),
        (collect (source.octets PrivateKey.size) n s).2) := by
  induction n generalizing s with
  | zero => rfl
  | succ n ih =>
      simp only [collect, List.forall_mem_cons] at h
      simp only [drawKeys, drawKey, PrivateKey.publicKey_eq h.1, Except.mapError, ih _ h.2, collect,
        Except.map, List.map_cons]

/-- One more delegation is what is dealt, saved. -/
theorem delegate_eq {providers : List String} (h : providers ≠ []) (clock : Int)
    (staker : String) (p : Progress σ) :
    delegate source providers clock staker p =
      match p.ledger.save (deal source providers clock staker p.turn).1 with
      | .error fault => { reached := p, fault := some (.ledger fault) }
      | .ok ledger =>
          { reached := { p with
              draws := (deal source providers clock staker p.turn).2.draws
              ledger
              height := (deal source providers clock staker p.turn).2.height } } := by
  obtain ⟨first, rest, rfl⟩ := List.exists_cons_of_ne_nil h
  have hprovider (s : σ) :
      (first :: rest).getD (source.below (first :: rest).length s).1 first =
        (first :: rest).getD (source.below (first :: rest).length s).1 "" := by
    have hindex := source.below_lt (first :: rest).length s (by simp)
    rw [List.getD_eq_getElem _ _ hindex, List.getD_eq_getElem _ _ hindex]
  simp only [delegate, hprovider]
  rfl

/-! ## Ledgers between the steps -/

/-- Delegations that can be saved one after the other: their hashes differ and their
numbers fit. -/
structure Savable (ds : List Delegation) : Prop where
  distinct : (ds.map Delegation.txHash).Nodup
  fits : ∀ d ∈ ds, d.fits = true

/-- The first of some delegations that can be saved. -/
theorem Savable.of_append {ds es : List Delegation} (h : Savable (ds ++ es)) : Savable ds where
  distinct := by
    have hdistinct := h.distinct
    rw [List.map_append] at hdistinct
    exact hdistinct.of_append_left
  fits d hd := h.fits d (List.mem_append_left es hd)

/-- An open ledger with the rows of delegations that were saved one after the other,
and with some mappings. -/
structure Filled (l : Ledger) (ds : List Delegation) (pairs : List (String × Ledger.Cell)) :
    Prop where
  isOpen : l.isOpen = true
  holds : l.Holds ds.reverse
  mappings : l.mappings = some pairs

variable {l : Ledger} {ds : List Delegation} {pairs : List (String × Ledger.Cell)}

/-- A delegation with a new hash is saved after the others. -/
theorem Filled.save (h : Filled l ds pairs) {d : Delegation} (hsavable : Savable (ds ++ [d])) :
    ∃ next, l.save d = .ok next ∧ Filled next (ds ++ [d]) pairs := by
  have hfits := hsavable.fits d (by simp)
  have hreplace : Delegation.replace ds.reverse d = (ds ++ [d]).reverse := by
    have hdistinct := hsavable.distinct
    rw [List.map_append, List.map_singleton, List.nodup_append_comm, List.singleton_append,
      List.nodup_cons, List.mem_map] at hdistinct
    rw [Delegation.replace, List.reverse_concat, List.cons_inj_right, List.filter_eq_self]
    intro e he
    rw [decide_eq_true_eq]
    exact fun heq => hdistinct.1 ⟨e, List.mem_reverse.mp he, heq⟩
  refine ⟨_, h.holds.save_eq h.isOpen hfits, h.isOpen, ?_, h.mappings⟩
  rw [← hreplace]
  exact h.holds.replace hfits rfl

/-- A new address is mapped before the others. -/
theorem Filled.map (h : Filled l ds pairs) (staker : String) {address : String}
    (hnew : ∀ pair ∈ pairs, pair.1 ≠ address) :
    ∃ next, l.map staker address = .ok next ∧ Filled next ds ((address, staker) :: pairs) := by
  have hmapped : l.mapped = .ok pairs := by
    simp [Ledger.mapped, h.isOpen, h.mappings]
  have hfilter : pairs.filter (fun p => p.1 ≠ address) = pairs := by
    rw [List.filter_eq_self]
    intro pair hpair
    rw [decide_eq_true_eq]
    exact hnew pair hpair
  have hmap : l.map staker address =
      .ok { l with mappings := some ((address, staker) :: pairs) } := by
    simp only [Ledger.map, hmapped, hfilter]
  exact ⟨_, hmap, h.isOpen, ⟨h.holds.rows, h.holds.distinct, h.holds.inRange⟩, rfl⟩

/-! ## Runs that follow the deal -/

/-- A run without a fault that ends at the turn where dealing ends, with a ledger as
told. -/
structure Run.Follows (run : Run σ) (turn : Turn σ) (holds : Ledger → Prop) : Prop where
  fault : run.fault = none
  turn : run.reached.turn = turn
  ledger : holds run.reached.ledger

/-- If every step follows what is dealt, so does the whole run. -/
theorem times_follows {β : Type} {step : Progress σ → Run σ} {dealing : Turn σ → β × Turn σ}
    (good : List β → Prop) (holds : List β → Ledger → Prop)
    (hgood : ∀ xs ys, good (xs ++ ys) → good xs)
    (hstep : ∀ xs p, holds xs p.ledger → good (xs ++ [(dealing p.turn).1]) →
      (step p).Follows (dealing p.turn).2 (holds (xs ++ [(dealing p.turn).1])))
    (n : Nat) (xs : List β) {p : Progress σ} (hp : holds xs p.ledger)
    (hdealt : good (xs ++ (collect dealing n p.turn).1)) :
    (times step n p).Follows (collect dealing n p.turn).2
      (holds (xs ++ (collect dealing n p.turn).1)) := by
  induction n generalizing xs p with
  | zero =>
      simp only [collect, List.append_nil]
      exact ⟨rfl, rfl, hp⟩
  | succ n ih =>
      have hfirst : good (xs ++ [(dealing p.turn).1]) := by
        refine hgood _ (collect dealing n (dealing p.turn).2).1 ?_
        rwa [List.append_assoc, List.singleton_append]
      obtain ⟨hfault, hturn, hledger⟩ := hstep xs p hp hfirst
      have hrest := ih _ hledger
      rw [hturn, List.append_assoc, List.singleton_append] at hrest
      have htimes : times step (n + 1) p = times step n (step p).reached := by
        rw [times, Run.andThen, hfault]
      rw [htimes]
      exact hrest hdealt

/-- Saving one more delegation follows what is dealt. -/
theorem delegate_follows {providers : List String} (hproviders : providers ≠ []) (clock : Int)
    (staker : String) {p : Progress σ} (hp : Filled p.ledger ds pairs)
    (hsavable : Savable (ds ++ [(deal source providers clock staker p.turn).1])) :
    (delegate source providers clock staker p).Follows
      (deal source providers clock staker p.turn).2
      (Filled · (ds ++ [(deal source providers clock staker p.turn).1]) pairs) := by
  obtain ⟨next, hsave, hnext⟩ := hp.save hsavable
  rw [delegate_eq source hproviders, hsave]
  exact ⟨rfl, rfl, hnext⟩

/-- Saving the delegations of a staker follows what is dealt. -/
theorem delegations_follow {providers : List String} (hproviders : providers ≠ []) (clock : Int)
    (staker : String) (n : Nat) {p : Progress σ} {dealt : List Delegation} {turn : Turn σ}
    (hdealt : collect (deal source providers clock staker) n p.turn = (dealt, turn))
    (hp : Filled p.ledger ds pairs) (hsavable : Savable (ds ++ dealt)) :
    (times (delegate source providers clock staker) n p).Follows turn
      (Filled · (ds ++ dealt) pairs) := by
  have hstep (xs : List Delegation) (p : Progress σ) (hp : Filled p.ledger (ds ++ xs) pairs)
      (hgood : Savable (ds ++ (xs ++ [(deal source providers clock staker p.turn).1]))) :
      (delegate source providers clock staker p).Follows
        (deal source providers clock staker p.turn).2
        (Filled · (ds ++ (xs ++ [(deal source providers clock staker p.turn).1])) pairs) := by
    rw [← List.append_assoc] at hgood ⊢
    exact delegate_follows source hproviders clock staker hp hgood
  have hprefix (xs ys : List Delegation) (h : Savable (ds ++ (xs ++ ys))) :
      Savable (ds ++ xs) := by
    rw [← List.append_assoc] at h
    exact h.of_append
  have hfollows := times_follows (fun xs => Savable (ds ++ xs))
    (fun xs l => Filled l (ds ++ xs) pairs) hprefix hstep n [] (p := p)
  rw [hdealt, List.append_nil] at hfollows
  exact hfollows hp hsavable

/-- Hands with which stakers can enroll one after the other: their keys are valid, the
x coordinates of these differ, and their delegations can be saved. -/
structure Dealable (hands : List Hand) : Prop where
  keys : ∀ hand ∈ hands, PrivateKey.IsValid hand.privateKey
  coordinates : (hands.map Hand.coordinate).Nodup
  savable : Savable (hands.flatMap Hand.delegations)

/-- The first of some hands with which stakers can enroll. -/
theorem Dealable.of_append {hands others : List Hand} (h : Dealable (hands ++ others)) :
    Dealable hands where
  keys hand hhand := h.keys hand (List.mem_append_left others hhand)
  coordinates := by
    have hcoordinates := h.coordinates
    rw [List.map_append] at hcoordinates
    exact hcoordinates.of_append_left
  savable := by
    have hsavable := h.savable
    rw [List.flatMap_append] at hsavable
    exact hsavable.of_append

/-- A ledger after stakers enrolled with some hands: it has their delegations, and a
mapping for each of them. -/
def Enrolled (net : Network) (hands : List Hand) (l : Ledger) : Prop :=
  ∃ pairs, Filled l (hands.flatMap Hand.delegations) pairs ∧
    List.Forall₂ (Hand.Mapped net) hands.reverse pairs

/-- The address of a hand with another x coordinate is another one. -/
theorem Hand.Mapped.address_ne {net : Network} {hand other : Hand} {pair : String × Ledger.Cell}
    {address : String} {staker : Ledger.Cell} (hpair : hand.Mapped net pair)
    (haddress : other.Mapped net (address, staker)) (hne : hand.coordinate ≠ other.coordinate) :
    pair.1 ≠ address := by
  obtain ⟨-, first, hfirst, hprogram⟩ := hpair
  obtain ⟨-, second, hsecond, hother⟩ := haddress
  intro heq
  rw [heq] at hfirst
  obtain rfl := Except.ok.inj (hfirst.symm.trans hsecond)
  exact hne (hprogram.symm.trans hother)

/-- Every mapping is one of a hand. -/
theorem exists_hand_of_mapped {net : Network} {hands : List Hand}
    {pairs : List (String × Ledger.Cell)} (h : List.Forall₂ (Hand.Mapped net) hands pairs) :
    ∀ pair ∈ pairs, ∃ hand ∈ hands, hand.Mapped net pair := by
  induction h with
  | nil => simp
  | cons hfirst _ ih =>
      intro pair hpair
      rcases List.mem_cons.mp hpair with rfl | hrest
      · exact ⟨_, List.mem_cons_self, hfirst⟩
      · obtain ⟨hand, hhand, hmapped⟩ := ih pair hrest
        exact ⟨hand, List.mem_cons_of_mem _ hhand, hmapped⟩

/-- The address of one more hand is not mapped yet. -/
theorem address_ne_of_dealable {net : Network} {hands : List Hand} {hand : Hand}
    {text staker : String} (hdealable : Dealable (hands ++ [hand]))
    (hpairs : List.Forall₂ (Hand.Mapped net) hands.reverse pairs)
    (hmapped : hand.Mapped net (text, staker)) : ∀ pair ∈ pairs, pair.1 ≠ text := by
  intro pair hpair
  obtain ⟨other, hother, hpaired⟩ := exists_hand_of_mapped hpairs pair hpair
  have hcoordinates := hdealable.coordinates
  rw [List.map_append, List.map_singleton, List.nodup_append_comm, List.singleton_append,
    List.nodup_cons] at hcoordinates
  refine hpaired.address_ne hmapped fun heq => hcoordinates.1 ?_
  rw [← heq]
  exact List.mem_map_of_mem (List.mem_reverse.mp hother)

/-- A mapping and the delegations of one more hand. -/
theorem Enrolled.append {net : Network} {hands : List Hand} {hand : Hand}
    (hpairs : List.Forall₂ (Hand.Mapped net) hands.reverse pairs) {pair : String × Ledger.Cell}
    (hmapped : hand.Mapped net pair)
    (hfilled : Filled l (hands.flatMap Hand.delegations ++ hand.delegations) (pair :: pairs)) :
    Enrolled net (hands ++ [hand]) l := by
  refine ⟨pair :: pairs, ?_, ?_⟩
  · rwa [List.flatMap_append, List.flatMap_singleton]
  · rw [List.reverse_concat]
    exact .cons hmapped hpairs

/-- Enrolling one more staker follows what is dealt. -/
theorem enroll_follows {net : Network} {providers : List String} (hproviders : providers ≠ [])
    (clock delegations : Int) {hands : List Hand} {p : Progress σ}
    (hp : Enrolled net hands p.ledger)
    (hdealable : Dealable
      (hands ++ [(dealHand source providers clock delegations.toNat p.turn).1])) :
    (enroll source net providers clock delegations p).Follows
      (dealHand source providers clock delegations.toNat p.turn).2
      (Enrolled net (hands ++ [(dealHand source providers clock delegations.toNat p.turn).1])) := by
  obtain ⟨pairs, hfilled, hpairs⟩ := hp
  obtain ⟨key, draws, hkey⟩ : ∃ key draws, source.octets PrivateKey.size p.draws = (key, draws) :=
    ⟨_, _, rfl⟩
  obtain ⟨dealt, turn, hdealt⟩ : ∃ dealt turn, collect (deal source providers clock
      (Hex.text (PrivateKey.compressed key))) delegations.toNat ⟨draws, p.height⟩ =
      (dealt, turn) :=
    ⟨_, _, rfl⟩
  have hhand : dealHand source providers clock delegations.toNat p.turn =
      (⟨key, dealt⟩, turn) := by
    simp only [dealHand, Progress.turn, hkey, hdealt]
  rw [hhand] at hdealable ⊢
  obtain ⟨text, haddress, hmapped⟩ := Hand.exists_mapped ⟨key, dealt⟩ net
  obtain ⟨ledger, hmap, hledger⟩ := hfilled.map (Hand.staker ⟨key, dealt⟩)
    (address_ne_of_dealable hdealable hpairs hmapped)
  have hsavable : Savable (hands.flatMap Hand.delegations ++ dealt) := by
    have hall := hdealable.savable
    rwa [List.flatMap_append, List.flatMap_singleton] at hall
  obtain ⟨hfault, hturn, hsaved⟩ := delegations_follow source hproviders clock _ _
    (p := ⟨draws, ledger, p.height, p.lines⟩) hdealt hledger hsavable
  have hpublic := PrivateKey.publicKey_eq (hdealable.keys ⟨key, dealt⟩ (by simp))
  rw [Hand.publicKey] at haddress
  rw [Hand.staker, Hand.publicKey] at hmap
  simp only [enroll, drawKey, hkey, hpublic, Except.mapError, haddress, hmap, Run.andThen, hfault]
  exact ⟨rfl, hturn, .append hpairs hmapped hsaved⟩

/-- Filling the empty ledger follows what a plan deals. -/
theorem fill_follows {plan : Plan} (hproviders : 1 ≤ plan.providers) (net : Network)
    (clock : Int) (s : σ)
    (hkeys : ∀ key ∈ (deck source plan clock s).providers, PrivateKey.IsValid key)
    (hdealable : Dealable (deck source plan clock s).hands) :
    (fill source plan net clock s .empty).fault = none ∧
      Enrolled net (deck source plan clock s).hands
        (fill source plan net clock s .empty).reached.ledger := by
  have hdraw := drawKeys_eq source plan.providers.toNat s hkeys
  have hne : ((collect (source.octets PrivateKey.size) plan.providers.toNat s).1.map fun key =>
      Hex.text (PrivateKey.compressed key)) ≠ [] := by
    rw [← List.length_pos_iff, List.length_map, length_collect]
    omega
  have hempty : Enrolled net [] Ledger.empty :=
    ⟨[], ⟨rfl, Ledger.holds_empty, rfl⟩, .nil⟩
  have hfollows := times_follows Dealable (Enrolled net) (fun _ _ h => h.of_append)
    (fun _ _ => enroll_follows source hne clock plan.delegations) plan.stakers.toNat []
    (p := ⟨(collect (source.octets PrivateKey.size) plan.providers.toNat s).2, .empty, 800000, []⟩)
    hempty hdealable
  obtain ⟨hfault, -, hledger⟩ := hfollows
  simp only [fill, hdraw, Run.andThen, hfault]
  exact ⟨trivial, hledger⟩

end Seeding

end StakeLedger
