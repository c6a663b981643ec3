import Mathlib.Data.List.Nodup
import Mathlib.Data.List.Pairwise
import StakeLedger.Seeding.Devnet
import StakeLedger.Proofs.Address.Segwit
import StakeLedger.Proofs.Key.PublicKey
import StakeLedger.Proofs.Ledger.History

/-!
# What the draws deal

Which keys, amounts, heights and states seeding comes to depends on the draws and on
the plan, but not on the ledger that is filled.  So they can be told beforehand, like
the hands of a deck that is dealt to stakers one after the other.

Main definitions:

- {lit}`Seeding.collect`: what a step yields, some times over.
- {lit}`Seeding.deal`: the delegation that a staker is dealt next.
- {lit}`Seeding.Hand`, {lit}`Seeding.Deck`: what a staker is dealt, and what all are.
- {lit}`Seeding.deck`: the deck of a plan.

Main results:

- Theorem {lit}`Seeding.climb_deck`: how heights grow from delegation to delegation.
- Theorem {lit}`Seeding.regular_deck`: each hand is one of a staker who delegates to the
  providers of the deck.
-/

namespace StakeLedger

/-! ## Keys -/

/-- A compressed point has thirty-three octets. -/
theorem Secp256k1.length_compress (p : Point) :
    (compress p).length = PublicKey.compressedLength := by
  simp [compress, octets, PublicKey.compressedLength]

/-- Texts of different octets differ. -/
theorem Hex.text_injective : Function.Injective Hex.text := by
  intro a b h
  have hencoded := String.ofList_injective h
  have hdecoded := Hex.decode?_encode a
  rw [hencoded, Hex.decode?_encode, Option.some.injEq] at hdecoded
  exact hdecoded.symm

namespace PrivateKey

/-- Octets that are a private key. -/
structure IsValid (octets : Octets) : Prop where
  length : octets.length = size
  positive : 0 < Secp256k1.ofOctets octets
  below : Secp256k1.ofOctets octets < Secp256k1.groupOrder

instance (octets : Octets) : Decidable (IsValid octets) :=
  decidable_of_iff (octets.length = size ∧ 0 < Secp256k1.ofOctets octets ∧
    Secp256k1.ofOctets octets < Secp256k1.groupOrder)
    ⟨fun h => ⟨h.1, h.2.1, h.2.2⟩, fun h => ⟨h.length, h.positive, h.below⟩⟩

/-- The compressed multiple of the generator by the number of some octets. -/
def compressed (octets : Octets) : Octets :=
  Secp256k1.compress (Secp256k1.scale (Secp256k1.ofOctets octets) Secp256k1.generator)

/-- The public key of a private key is the compressed multiple of the generator. -/
theorem publicKey_eq {octets : Octets} (h : IsValid octets) :
    publicKey octets = .ok (compressed octets) := by
  have hrange : ¬(Secp256k1.ofOctets octets = 0 ∨
      Secp256k1.groupOrder ≤ Secp256k1.ofOctets octets) := by
    have hpositive := h.positive
    have hbelow := h.below
    omega
  simp only [publicKey, h.length, ne_eq, not_true_eq_false, if_false, if_neg hrange]
  rfl

end PrivateKey

namespace Seeding

/-! ## Draws in a row -/

section Collect

variable {α β : Type} (step : α → β × α)

/-- What a step yields, some times over, and where it ends. -/
def collect : Nat → α → List β × α
  | 0, a => ([], a)
  | n + 1, a =>
      let (b, a) := step a
      let (rest, a) := collect n a
      (b :: rest, a)

/-- Every time the step yields one thing. -/
@[simp]
theorem length_collect (n : Nat) (a : α) : (collect step n a).1.length = n := by
  induction n generalizing a with
  | zero => rfl
  | succ n ih => simp [collect, ih]

/-- What every step yields, all of them yield. -/
theorem forall_collect {p : β → Prop} (h : ∀ a, p (step a).1) (n : Nat) (a : α) :
    ∀ b ∈ (collect step n a).1, p b := by
  induction n generalizing a with
  | zero => simp [collect]
  | succ n ih => simpa [collect] using ⟨h a, ih (step a).2⟩

end Collect

/-! ## Hands -/

/-- Where dealing stands: the draws to come and the height of the latest
delegation. -/
structure Turn (σ : Type) where
  draws : σ
  height : Nat := 800000

/-- Where dealing stands when seeding does. -/
def Progress.turn {σ : Type} (p : Progress σ) : Turn σ :=
  ⟨p.draws, p.height⟩

/-- What a staker is dealt: a private key, and delegations in the order in which
they are saved. -/
structure Hand where
  privateKey : Octets
  delegations : List Delegation

/-- The compressed public key of a hand. -/
def Hand.publicKey (hand : Hand) : Octets :=
  PrivateKey.compressed hand.privateKey

/-- The x coordinate of the public key of a hand. -/
def Hand.coordinate (hand : Hand) : Octets :=
  hand.publicKey.drop 1

/-- The text of the public key of a hand. -/
def Hand.staker (hand : Hand) : String :=
  Hex.text hand.publicKey

/-- What is dealt: the private keys of the providers, and the hands of the stakers in
the order in which they enroll. -/
structure Deck where
  providers : List Octets
  hands : List Hand

/-- The texts of the public keys of the providers. -/
def Deck.providerKeys (deck : Deck) : List String :=
  deck.providers.map fun key => Hex.text (PrivateKey.compressed key)

/-- All delegations in the order in which they are saved. -/
def Deck.delegations (deck : Deck) : List Delegation :=
  deck.hands.flatMap Hand.delegations

section Dealing

variable {σ : Type} (source : Draws σ)

/-- The delegation that a staker is dealt next. -/
def deal (providers : List String) (clock : Int) (staker : String) (turn : Turn σ) :
    Delegation × Turn σ :=
  let (blocks, s) := source.between 1 20 turn.draws
  let (age, s) := source.between 0 month s
  let (salt, s) := source.octets 32 s
  let (index, s) := source.below providers.length s
  let (amount, s) := source.between 1 500 s
  let (share, s) := source.below ((shares.map Prod.snd).foldl (· + ·) 0) s
  let (tx, s) := source.octets 64 s
  ({ txHash := Hex.text (Sha256.hash salt)
     staker := staker
     provider := providers.getD index ""
     value := amount * 100000
     state := stateOf share
     staking := {
       txHex := Hex.text tx
       outputIndex := 0
       startTimestamp := clock - age
       startHeight := (turn.height + blocks : Nat)
       blocks := lockedBlocks } }, ⟨s, turn.height + blocks⟩)

/-- The hand that the next staker is dealt. -/
def dealHand (providers : List String) (clock : Int) (delegations : Nat) (turn : Turn σ) :
    Hand × Turn σ :=
  let (key, s) := source.octets PrivateKey.size turn.draws
  let staker := Hex.text (PrivateKey.compressed key)
  let (ds, turn) := collect (deal source providers clock staker) delegations
    { turn with draws := s }
  (⟨key, ds⟩, turn)

/-- What a plan deals from some draws. -/
def deck (plan : Plan) (clock : Int) (s : σ) : Deck :=
  let (keys, s) := collect (source.octets PrivateKey.size) plan.providers.toNat s
  let providers := keys.map fun key => Hex.text (PrivateKey.compressed key)
  let (hands, _) := collect (dealHand source providers clock plan.delegations.toNat)
    plan.stakers.toNat { draws := s }
  ⟨keys, hands⟩

/-! ## What is dealt -/

/-- A delegation that is dealt is one of the staker. -/
theorem staker_deal (providers : List String) (clock : Int) (staker : String) (turn : Turn σ) :
    (deal source providers clock staker turn).1.staker = staker :=
  rfl

/-- A delegation that is dealt is one to a provider, if there is any. -/
theorem provider_deal {providers : List String} (h : providers ≠ []) (clock : Int)
    (staker : String) (turn : Turn σ) :
    (deal source providers clock staker turn).1.provider ∈ providers := by
  simp only [deal]
  rw [List.getD_eq_getElem]
  · exact List.getElem_mem _
  · exact source.below_lt _ _ (List.length_pos_of_ne_nil h)

/-- A delegation that is dealt began within a month. -/
theorem createdAt_deal (providers : List String) (clock : Int) (staker : String)
    (turn : Turn σ) :
    clock - month ≤ (deal source providers clock staker turn).1.createdAt ∧
      (deal source providers clock staker turn).1.createdAt ≤ clock := by
  have hage := (source.between_mem 0 month (source.between 1 20 turn.draws).2 (Nat.zero_le _)).2
  simp only [deal, Delegation.createdAt]
  omega

/-- A delegation that is dealt can be read if it fits in its columns. -/
theorem legible_deal (providers : List String) (clock : Int) (staker : String) (turn : Turn σ)
    (hfits : (deal source providers clock staker turn).1.fits = true) :
    (deal source providers clock staker turn).1.IsLegible := by
  have hshort {n : Int} (hn : 0 ≤ n) (hmost : n ≤ 50000000) : Ledger.fits n = true := by
    simp only [Ledger.fits, Bool.and_eq_true, decide_eq_true_eq]
    omega
  have hvalue (s : σ) : Ledger.fits ((source.between 1 500 s).1 * 100000) = true := by
    have hmost := (source.between_mem 1 500 s (by omega)).2
    exact hshort (by omega) (by omega)
  rw [Delegation.fits, Bool.and_eq_true] at hfits
  have hnumbers : ∀ n ∈ (deal source providers clock staker turn).1.numbers,
      Ledger.fits n = true := by
    simp only [deal] at hfits ⊢
    simp only [Delegation.numbers, Timelock.numbers, Option.map_none, Option.getD_none,
      List.append_nil, List.forall_mem_cons, List.not_mem_nil]
    exact ⟨hvalue _, hshort (by decide) (by decide), hfits.2, hfits.1,
      hshort (by decide) (by decide), fun _ h => h.elim⟩
  exact fun n hn => Delegation.length_writeInt_of_fits (hnumbers n hn)

/-- A way up from a height to another one, by delegations that each start up to twenty
blocks after the one before. -/
inductive Climb : Nat → List Delegation → Nat → Prop where
  | nil (height : Nat) : Climb height [] height
  | cons {low height top : Nat} {d : Delegation} {ds : List Delegation}
      (hheight : d.staking.startHeight = height) (habove : low < height)
      (hnear : height ≤ low + 20) (hrest : Climb height ds top) : Climb low (d :: ds) top

namespace Climb

variable {low middle top : Nat} {ds es : List Delegation}

/-- A way up can go on. -/
theorem append (h : Climb low ds middle) (hnext : Climb middle es top) :
    Climb low (ds ++ es) top := by
  induction h with
  | nil _ => exact hnext
  | cons hheight habove hnear _ ih => exact .cons hheight habove hnear (ih hnext)

/-- The delegations of a way up all start above its foot. -/
theorem above (h : Climb low ds top) : ∀ d ∈ ds, (low : Int) < d.staking.startHeight := by
  induction h with
  | nil _ => simp
  | cons hheight habove _ _ ih =>
      intro e he
      rcases List.mem_cons.mp he with rfl | hrest
      · omega
      · have := ih e hrest
        omega

/-- Heights grow on a way up. -/
theorem pairwise (h : Climb low ds top) :
    ds.Pairwise fun d e => d.staking.startHeight < e.staking.startHeight := by
  induction h with
  | nil _ => exact .nil
  | cons hheight _ _ hrest ih =>
      refine List.pairwise_cons.mpr ⟨fun e he => ?_, ih⟩
      rw [hheight]
      exact hrest.above e he

/-- How high each delegation of a way up is. -/
theorem bounds (h : Climb low ds top) {k : Nat} {d : Delegation} (hd : ds[k]? = some d) :
    (low : Int) + (k + 1) ≤ d.staking.startHeight ∧
      d.staking.startHeight ≤ low + 20 * (k + 1) := by
  induction h generalizing k with
  | nil _ => simp at hd
  | cons hheight habove hnear _ ih =>
      cases k with
      | zero =>
          obtain rfl : _ = d := by simpa using hd
          omega
      | succ k =>
          have hrest := ih (by simpa using hd)
          omega

end Climb

/-- A delegation that is dealt starts up to twenty blocks after the one before. -/
theorem climb_deal (providers : List String) (clock : Int) (staker : String) (turn : Turn σ) :
    Climb turn.height [(deal source providers clock staker turn).1]
      (deal source providers clock staker turn).2.height := by
  have hblocks := source.between_mem 1 20 turn.draws (by omega)
  have hheight : (deal source providers clock staker turn).1.staking.startHeight =
      (turn.height + (source.between 1 20 turn.draws).1 : Nat) := rfl
  exact .cons hheight (by omega) (by omega) (.nil _)

/-- Dealing goes up if every step of it does. -/
theorem climb_collect {β : Type} {step : Turn σ → β × Turn σ} (dealt : β → List Delegation)
    (h : ∀ turn, Climb turn.height (dealt (step turn).1) (step turn).2.height) (n : Nat)
    (turn : Turn σ) :
    Climb turn.height ((collect step n turn).1.flatMap dealt) (collect step n turn).2.height := by
  induction n generalizing turn with
  | zero => exact .nil _
  | succ n ih => exact (h turn).append (ih (step turn).2)

/-- The delegations of a hand are on a way up. -/
theorem climb_dealHand (providers : List String) (clock : Int) (delegations : Nat)
    (turn : Turn σ) :
    Climb turn.height (dealHand source providers clock delegations turn).1.delegations
      (dealHand source providers clock delegations turn).2.height := by
  have hclimb := climb_collect (fun d => [d]) (climb_deal source providers clock
    (Hex.text (PrivateKey.compressed (source.octets PrivateKey.size turn.draws).1))) delegations
    { turn with draws := (source.octets PrivateKey.size turn.draws).2 }
  rw [List.flatMap_singleton'] at hclimb
  exact hclimb

/-- A hand as a plan deals it: so many delegations of its staker, each to one of the
providers and begun within a month, and legible if it fits in its columns. -/
structure Hand.Regular (providers : List String) (clock : Int) (delegations : Nat)
    (hand : Hand) : Prop where
  length : hand.delegations.length = delegations
  staker : ∀ d ∈ hand.delegations, d.staker = hand.staker
  provider : ∀ d ∈ hand.delegations, d.provider ∈ providers
  begun : ∀ d ∈ hand.delegations, clock - month ≤ d.createdAt ∧ d.createdAt ≤ clock
  legible : ∀ d ∈ hand.delegations, d.fits = true → d.IsLegible

/-- Hands are dealt regularly. -/
theorem regular_dealHand {providers : List String} (h : providers ≠ []) (clock : Int)
    (delegations : Nat) (turn : Turn σ) :
    (dealHand source providers clock delegations turn).1.Regular providers clock delegations where
  length := length_collect _ _ _
  staker := forall_collect _ (staker_deal source providers clock _) _ _
  provider := forall_collect _ (provider_deal source h clock _) _ _
  begun := forall_collect _ (createdAt_deal source providers clock _) _ _
  legible := forall_collect _ (legible_deal source providers clock _) _ _

/-! ## Decks -/

/-- There is a hand for each staker. -/
theorem length_hands (plan : Plan) (clock : Int) (s : σ) :
    (deck source plan clock s).hands.length = plan.stakers.toNat :=
  length_collect _ _ _

/-- There is a key for each provider. -/
theorem length_providerKeys (plan : Plan) (clock : Int) (s : σ) :
    (deck source plan clock s).providerKeys.length = plan.providers.toNat := by
  rw [Deck.providerKeys, List.length_map]
  exact length_collect _ _ _

/-- The hands of a deck are dealt regularly. -/
theorem regular_deck {plan : Plan} (hproviders : 1 ≤ plan.providers) (clock : Int) (s : σ) :
    ∀ hand ∈ (deck source plan clock s).hands,
      hand.Regular (deck source plan clock s).providerKeys clock plan.delegations.toNat := by
  have hne : (deck source plan clock s).providerKeys ≠ [] := by
    rw [← List.length_pos_iff, length_providerKeys]
    omega
  exact forall_collect _ (regular_dealHand source hne clock _) _ _

/-- The delegations of a deck are on a way up. -/
theorem climb_deck (plan : Plan) (clock : Int) (s : σ) :
    ∃ top, Climb 800000 (deck source plan clock s).delegations top :=
  ⟨_, climb_collect Hand.delegations (climb_dealHand source _ clock _) plan.stakers.toNat
    { draws := (collect (source.octets PrivateKey.size) plan.providers.toNat s).2 }⟩

end Dealing

end Seeding

end StakeLedger
