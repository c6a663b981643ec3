import StakeLedger.Seeding.Draws
import StakeLedger.Digest.Sha256
import StakeLedger.Key
import StakeLedger.Address.Taproot
import StakeLedger.Ledger.Basic

/-!
# Seeding a ledger

For a network of developers a ledger is filled with generated finality providers,
stakers and delegations.  Heights grow from delegation to delegation, and states
are mixed roughly as they would be after a month.

Main definitions:

- {lit}`Seeding.Plan`: how much to generate.
- {lit}`Seeding.Progress`: the ledger and the report so far.
- {lit}`Seeding.fill`: fill a ledger, up to the first fault.
-/

namespace StakeLedger.Seeding

/-- How many finality providers and stakers, and how many delegations for each
staker.  Negative numbers count as none. -/
structure Plan where
  providers : Int
  stakers : Int
  delegations : Int

/-- Why seeding stopped. -/
inductive Fault where
  | privateKey (fault : PrivateKey.Fault)
  /-- There is no finality provider to delegate to. -/
  | noProvider
  | undecodable (address : String) (network : Network)
  | ledger (fault : Ledger.Fault)
deriving DecidableEq, Repr

/-- What is said of a fault. -/
def Fault.message : Fault → String
  | .privateKey fault => fault.message
  | .noProvider => "Cannot choose from an empty sequence"
  | .undecodable address net => s!"generated address {address} does not decode for {net.name}"
  | .ledger fault => fault.message

/-- Where seeding stands: the draws to come, the ledger, the height of the latest
delegation and the lines of the report. -/
structure Progress (σ : Type) where
  draws : σ
  ledger : Ledger
  height : Nat := 800000
  lines : List String := []

/-- How far seeding came, and the fault that stopped it if one did. -/
structure Run (σ : Type) where
  reached : Progress σ
  fault : Option Fault := none

/-- Go on unless a fault stopped the run. -/
def Run.andThen {σ : Type} (run : Run σ) (next : Progress σ → Run σ) : Run σ :=
  match run.fault with
  | none => next run.reached
  | some _ => run

/-- A step, some times over. -/
def times {σ : Type} (step : Progress σ → Run σ) : Nat → Progress σ → Run σ
  | 0, p => { reached := p }
  | n + 1, p => (step p).andThen (times step n)

/-! ## States -/

/-- The states with their shares. -/
def shares : List (Delegation.State × Nat) :=
  [(.active, 6), (.unbondingRequested, 1), (.unbonding, 1), (.unbonded, 2), (.withdrawn, 1)]

/-- The first member at which the sum of the shares exceeds a number. -/
def pick? {α : Type} : List (α × Nat) → Nat → Option α
  | [], _ => none
  | (a, share) :: rest, n => if n < share then some a else pick? rest (n - share)

/-- The state that a number below the sum of the shares stands for. -/
def stateOf (n : Nat) : Delegation.State :=
  (pick? shares n).getD .active

/-! ## Steps -/

/-- The public key of a drawn private key, in hexadecimal text. -/
def drawKey {σ : Type} (source : Draws σ) (s : σ) : Except Fault Octets × σ :=
  let (key, s) := source.octets PrivateKey.size s
  ((PrivateKey.publicKey key).mapError Fault.privateKey, s)

/-- Some public keys in a row, up to the first fault. -/
def drawKeys {σ : Type} (source : Draws σ) : Nat → σ → Except Fault (List String) × σ
  | 0, s => (.ok [], s)
  | n + 1, s =>
      match drawKey source s with
      | (.error fault, s) => (.error fault, s)
      | (.ok key, s) =>
          let (rest, s) := drawKeys source n s
          (rest.map (Hex.text key :: ·), s)

/-- How long ago a delegation can have begun, in seconds. -/
def month : Nat := 30 * 24 * 3600

/-- For how many blocks every delegation is locked. -/
def lockedBlocks : Int := 64000

/-- Save one more delegation of a staker to one of the providers. -/
def delegate {σ : Type} (source : Draws σ) (providers : List String) (clock : Int)
    (staker : String) (p : Progress σ) : Run σ :=
  let (blocks, s) := source.between 1 20 p.draws
  let height := p.height + blocks
  let (age, s) := source.between 0 month s
  let (salt, s) := source.octets 32 s
  match providers with
  | [] => { reached := p, fault := some .noProvider }
  | first :: _ =>
      let (index, s) := source.below providers.length s
      let (amount, s) := source.between 1 500 s
      let (share, s) := source.below ((shares.map Prod.snd).foldl (· + ·) 0) s
      let (tx, s) := source.octets 64 s
      let d : Delegation := {
        txHash := Hex.text (Sha256.hash salt)
        staker := staker
        provider := providers.getD index first
        value := amount * 100000
        state := stateOf share
        staking := {
          txHex := Hex.text tx
          outputIndex := 0
          startTimestamp := clock - age
          startHeight := height
          blocks := lockedBlocks } }
      match p.ledger.save d with
      | .error fault => { reached := p, fault := some (.ledger fault) }
      | .ok ledger => { reached := { p with draws := s, ledger, height } }

/-- The untweaked Taproot address of a public key: that of its x coordinate. -/
def addressOf (key : Octets) (net : Network) : Except Fault String :=
  match Taproot.encode? (key.drop 1) net with
  | none => .error (.undecodable "" net)
  | some address =>
      if Taproot.isAddress address net then .ok address else .error (.undecodable address net)

/-- Map one more staker to an address and save the delegations of that staker. -/
def enroll {σ : Type} (source : Draws σ) (net : Network) (providers : List String) (clock : Int)
    (delegations : Int) (p : Progress σ) : Run σ :=
  match drawKey source p.draws with
  | (.error fault, _) => { reached := p, fault := some fault }
  | (.ok key, s) =>
      let staker := Hex.text key
      match addressOf key net with
      | .error fault => { reached := p, fault := some fault }
      | .ok address =>
          match p.ledger.map staker address with
          | .error fault => { reached := p, fault := some (.ledger fault) }
          | .ok ledger =>
              (times (delegate source providers clock staker) delegations.toNat
                { p with draws := s, ledger }).andThen fun p =>
                  { reached := { p with lines := p.lines ++
                    [s!"Staker {staker} ({address}): {delegations} delegations"] } }

/-- The lines about the providers. -/
def providerLines (providers : List String) : List String :=
  "" :: "Finality providers:" :: providers.map fun key => s!"  {key}"

/-- Fill a ledger as planned, up to the first fault. -/
def fill {σ : Type} (source : Draws σ) (plan : Plan) (net : Network) (clock : Int) (s : σ)
    (ledger : Ledger) : Run σ :=
  match drawKeys source plan.providers.toNat s with
  | (.error fault, s) => { reached := { draws := s, ledger }, fault := some fault }
  | (.ok providers, s) =>
      (times (enroll source net providers clock plan.delegations) plan.stakers.toNat
        { draws := s, ledger }).andThen fun p =>
          { reached := { p with lines := p.lines ++ providerLines providers } }

end StakeLedger.Seeding
