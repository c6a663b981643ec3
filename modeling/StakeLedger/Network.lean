/-!
# Bitcoin networks

The four networks that addresses are written for.  Two of them share the
human-readable part of their addresses, so an address alone does not name its
network.

Main definitions:

- {lit}`Network`: a supported network.
- {lit}`Network.ofName?`: the network of a name.

Main results:

- Theorem {lit}`Network.ofName?_name`: every network is found by its name.
-/

namespace StakeLedger

/-- A supported network. -/
inductive Network where
  | mainnet
  | testnet
  | signet
  | regtest
deriving DecidableEq, Repr

namespace Network

/-- The name that settings and requests use. -/
def name : Network → String
  | .mainnet => "mainnet"
  | .testnet => "testnet"
  | .signet => "signet"
  | .regtest => "regtest"

/-- The human-readable part of an address. -/
def hrp : Network → String
  | .mainnet => "bc"
  | .testnet => "tb"
  | .signet => "tb"
  | .regtest => "bcrt"

/-- All networks. -/
def all : List Network :=
  [.mainnet, .testnet, .signet, .regtest]

/-- The network of a name. -/
def ofName? (name : String) : Option Network :=
  all.find? fun net => net.name == name

/-- A network as answers show it. -/
def label (net : Network) : String :=
  s!"BTCNetParams({net.name})"

/-- What is said of a name that no network has. -/
def unsupported (name : String) : String :=
  s!"unsupported BTC network: {name}"

/-- Every network is found by its name. -/
theorem ofName?_name (net : Network) : ofName? net.name = some net := by
  cases net <;> decide

end Network

end StakeLedger
