import StakeLedger.Command.Flag
import StakeLedger.Decimal.Loose

/-!
# Requests of a command line

A command line asks for one of two commands on a data directory: to write settings
and fill a ledger, or to run the server.

Main definitions:

- {lit}`Command.Init`, {lit}`Command.Serve`: what is asked of the two commands.
- {lit}`Command.Request`: a command on a data directory.
- {lit}`Command.Request.parse`: the request of a command line.
-/

namespace StakeLedger.Command

/-- What is asked of the command that writes settings and fills a ledger. -/
structure Init where
  network : String := "signet"
  providers : Int := 3
  stakers : Int := 5
  delegations : Int := 4
  seed : Option Int := none
  /-- Whether the ledger is to be filled. -/
  fills : Bool := true
deriving DecidableEq, Repr

/-- What is asked of the command that runs the server. -/
structure Serve where
  settings : Option String := none
  host : Option String := none
  port : Option Int := none
deriving DecidableEq, Repr

/-- A command with what is asked of it. -/
inductive Order where
  | init (order : Init)
  | serve (order : Serve)
deriving DecidableEq, Repr

/-- A command on a data directory. -/
structure Request where
  directory : String := "./.stakingapi"
  order : Order
deriving DecidableEq, Repr

/-- The name of the program. -/
def programName : String := "stakingapi"

/-! ## Flags -/

/-- A flag that takes a text. -/
def textFlag {σ : Type} (name : String) (put : String → σ → σ) : Flag σ :=
  ⟨[name], .taking fun text s => some (put text s)⟩

/-- A flag that takes a whole number. -/
def intFlag {σ : Type} (name : String) (put : Int → σ → σ) : Flag σ :=
  ⟨[name], .taking fun text s =>
    (Loose.read 10 text.toList).toOption.map fun n => put n s⟩

/-- The flags in front of the command. -/
def directoryFlags : List (Flag String) :=
  [.help, textFlag "--datadir" fun text _ => text]

/-- The flags of the command that fills a ledger. -/
def initFlags : List (Flag Init) :=
  [.help,
    textFlag "--btc-net" fun text o => { o with network := text },
    intFlag "--fps" fun n o => { o with providers := n },
    intFlag "--stakers" fun n o => { o with stakers := n },
    intFlag "--delegations" fun n o => { o with delegations := n },
    intFlag "--seed" fun n o => { o with seed := some n },
    ⟨["--no-seed"], .alone fun o => { o with fills := false }⟩]

/-- The flags of the command that runs the server. -/
def serveFlags : List (Flag Serve) :=
  [.help,
    textFlag "--config" fun text o => { o with settings := some text },
    textFlag "--host" fun text o => { o with host := some text },
    intFlag "--port" fun n o => { o with port := some n }]

/-! ## Reading -/

/-- The effect of the flags on some words. -/
def readWith {σ : Type} (program : String) (flags : List (Flag σ)) (skips : Bool)
    (words : List String) (start : σ) : Except Stop (Reading σ × List String) :=
  match classify flags words with
  | .error fault => .error (.refused program fault)
  | .ok words => readFlags program skips words ⟨start, []⟩

/-- What is asked of a command, and the words that nobody understood. -/
def readOrder {σ : Type} (command : String) (flags : List (Flag σ)) (start : σ)
    (order : σ → Order) (words : List String) : Except Stop (Order × List String) :=
  (readWith s!"{programName} {command}" flags true words start).map fun (r, _) =>
    (order r.state, r.extras)

/-- What is asked of the command that some words begin with. -/
def readCommand : List String → Except Stop (Order × List String)
  | [] => .error (.refused programName .commandMissing)
  | "init" :: words => readOrder "init" initFlags {} .init words
  | "run" :: words => readOrder "run" serveFlags {} .serve words
  | name :: _ => .error (.refused programName (.unknownCommand name))

/-- The request of a command line.  Words that nobody understood are a fault only
if nothing else is. -/
def Request.parse (words : List String) : Except Stop Request := do
  let (r, rest) ← readWith programName directoryFlags false words "./.stakingapi"
  let (order, extras) ← readCommand rest
  match r.extras ++ extras with
  | [] => .ok ⟨r.state, order⟩
  | unknown => .error (.refused programName (.unrecognized unknown))

/-- The line about a command line that is refused. -/
def usageLine (program : String) (fault : UsageFault) : String :=
  s!"{program}: error: {fault.message}"

end StakeLedger.Command
