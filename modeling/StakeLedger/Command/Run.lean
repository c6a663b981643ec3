import StakeLedger.Command.Request
import StakeLedger.Directory.Access
import StakeLedger.Http.Site
import StakeLedger.Seeding.Devnet
import StakeLedger.Settings.File

/-!
# Runs of the program

A run does what its command line asks for, on the directory that earlier runs left
behind.  Faults of the settings are reported, and so are those met while they are read, written
and told of; any other fault ends the run where it is.

Main definitions:

- {lit}`Command.Outside`: the console and the disk.
- {lit}`Command.Crash`: a fault that nobody reports.
- {lit}`Command.Run`: what a run leaves behind.
- {lit}`Command.Invocation`: what a run is given.
- {lit}`Command.Invocation.run`: the run of a command line.
-/

namespace StakeLedger.Command

open Journal

/-- What a run depends on besides its directory: what is said against a line, after those that
were shown before, if the console refuses it, and the disk. -/
structure Outside where
  console : List String → String → Option String := fun _ _ => none
  disk : Disk := {}

/-- A fault that nobody reports. -/
inductive Crash where
  | path (fault : PathFault)
  | ledger (fault : OpenFault)
  | scalar (fault : Yaml.ScalarFault)
  | setting (fault : Settings.Fault)
  | seeding (fault : Seeding.Fault)
  | listener (fault : Listener.Fault)
  /-- A line was refused. -/
  | console (message : String)

/-- What is said of a fault that nobody reports. -/
def Crash.message : Crash → String
  | .path fault => fault.message
  | .ledger fault => fault.message
  | .scalar fault => fault.message
  | .setting fault => fault.message
  | .seeding fault => fault.message
  | .listener fault => fault.message
  | .console message => message

/-- How a run ended. -/
inductive Ending where
  | done
  /-- Help was shown. -/
  | help
  /-- The command line was refused with a line. -/
  | refused (line : String)
  /-- A fault of the settings was reported. -/
  | reported
  | crashed (crash : Crash)

/-- What the server listened with, and its replies to the requests that came. -/
structure Served where
  listener : Listener
  replies : List Http.Reply

/-- What a run leaves behind. -/
structure Run where
  ending : Ending := .done
  directory : Directory
  /-- The level of the journal. -/
  level : Level := .info
  entries : List Entry := []
  printed : List String := []
  served : Option Served := none

namespace Run

/-- The run with an ending. -/
def ended (r : Run) (ending : Ending) : Run :=
  { r with ending }

/-- The run with some lines more, up to the first that is refused, and what is said against
that. -/
def print (outside : Outside) (r : Run) : List String → Run × Option String
  | [] => (r, none)
  | line :: rest =>
      match outside.console r.printed line with
      | some message => (r, some message)
      | none => print outside { r with printed := r.printed ++ [line] } rest

/-- The run with journal lines more, as far as its level lets them through. -/
def log (r : Run) (entries : List Entry) : Run :=
  { r with entries := r.entries ++ entries.filter fun e => r.level.number ≤ e.level.number }

end Run

/-! ## Settings -/

/-- Why there are no settings at a path. -/
inductive LoadFault where
  | path (fault : PathFault)
  | file (fault : Settings.FileFault)
  /-- A number is too long to be written. -/
  | number
  /-- The line about the settings was refused. -/
  | console (message : String)

/-- The first line that is said of a fault. -/
def LoadFault.headline : LoadFault → String
  | .path fault => fault.message
  | .file fault => fault.headline
  | .number => Numeral.tooLongMessage
  | .console message => message

/-- The crash in place of a report, if a scalar has a fault that nobody foresees. -/
def LoadFault.crash? : LoadFault → Option Crash
  | .file (.document (.scalar fault)) => if fault.isForeseen then none else some (.scalar fault)
  | _ => none

/-- The settings at a path. -/
def loadSettings (disk : Disk) (d : Directory) (path : String) : Except LoadFault Settings :=
  match disk.refusal? path with
  | some message => .error (.path ⟨.refused message, path⟩)
  | none =>
      match d.read path with
      | .error fault => .error (.path fault)
      | .ok text => (Settings.ofFile text).mapError .file

/-- The directory with settings in a file, which is left empty if they have no text. -/
def writeSettings (disk : Disk) (d : Directory) (path : String) (s : Settings) :
    Directory × Option LoadFault :=
  match d.write disk path (s.toFile?.getD ""), s.toFile? with
  | (d, some fault), _ => (d, some (.path fault))
  | (d, none), none => (d, some .number)
  | (d, none), some _ => (d, none)

/-- The end of a run without settings: their fault is reported if it is foreseen. -/
def Run.withoutSettings (r : Run) (start : String) (fault : LoadFault) : Run :=
  match fault.crash? with
  | some crash => r.ended (.crashed crash)
  | none => (r.log [⟨.error, s!"{start}: {fault.headline}"⟩]).ended .reported

/-- The name of the file of settings in a data directory. -/
def settingsFile : String := "config.yml"

/-- The name of the ledger in a data directory. -/
def ledgerFile : String := "staking.db"

/-- New settings for a network, with the ledger in a data directory. -/
def newSettings (directory network : String) : Settings :=
  { networkName := network, databasePath := Path.join directory ledgerFile }

/-! ## Writing settings and filling a ledger -/

section

variable {σ : Type} (source : Draws σ) (clock : Int) (draws : Option Int → σ) (outside : Outside)

/-- Fill the ledger that settings name. -/
def fillLedger (o : Init) (s : Settings) (r : Run) : Run :=
  match r.directory.openLedger s.databasePath, s.network? with
  | .error fault, _ => r.ended (.crashed (.ledger fault))
  | .ok _, none => r.ended (.crashed (.setting (.network s.networkName)))
  | .ok opened, some net =>
      let fill (stakers : Int) : Seeding.Run σ :=
        Seeding.fill source ⟨o.providers, stakers, o.delegations⟩ net clock (draws o.seed)
          opened.ledger
      let kept (run : Seeding.Run σ) : Directory :=
        r.directory.keep { opened with ledger := run.reached.ledger }
      let run := fill o.stakers
      match r.print outside run.reached.lines with
      | (shown, some message) =>
          -- Stakers are told of as soon as their delegations are saved, one line for each.
          let told := shown.printed.length - r.printed.length
          { shown with directory := kept (fill (min o.stakers (told + 1))) }.ended
            (.crashed (.console message))
      | (r, none) =>
          let r := { r with directory := kept run }
          match run.fault with
          | some fault => r.ended (.crashed (.seeding fault))
          | none =>
              match r.print outside ["", s!"Seeded {s.databasePath}"] with
              | (r, some message) => r.ended (.crashed (.console message))
              | (r, none) => r

/-- The settings in a data directory, which are written if there are none. -/
def ensureSettings (o : Init) (directory : String) (r : Run) :
    Run × Except LoadFault Settings :=
  let path := Path.join directory settingsFile
  if (r.directory.at? path).isSome then
    match r.print outside [s!"Config already exists at {path}"] with
    | (r, some message) => (r, .error (.console message))
    | (r, none) => (r, loadSettings outside.disk r.directory path)
  else
    let s := newSettings directory o.network
    match s.fault? with
    | some fault => (r, .error (.file (.setting fault)))
    | none =>
        match writeSettings outside.disk r.directory path s with
        | (d, some fault) => ({ r with directory := d }, .error fault)
        | (d, none) =>
            match { r with directory := d }.print outside [s!"Wrote config to {path}"] with
            | (r, some message) => (r, .error (.console message))
            | (r, none) => (r, .ok s)

/-- Write settings into a data directory and fill a ledger. -/
def init (o : Init) (directory : String) (r : Run) : Run :=
  match r.directory.makeAll directory with
  | (d, some fault) => { r with directory := d }.ended (.crashed (.path fault))
  | (d, none) =>
      match ensureSettings outside o directory { r with directory := d } with
      | (r, .error fault) =>
          r.withoutSettings s!"Invalid config {Path.join directory settingsFile}" fault
      | (r, .ok s) => if o.fills then fillLedger source clock draws outside o s r else r

end

/-! ## Running the server -/

/-- The replies to some requests, one after the other. -/
def replies (clock : Int) : Http.Site → List Http.Request → List Http.Reply
  | _, [] => []
  | site, request :: rest =>
      let (reply, site) := site.respond clock request
      reply :: replies clock site rest

/-- Settings with what a command line puts in their place. -/
def override (o : Serve) (s : Settings) : Settings :=
  { s with
    host := if (o.host.getD "").isEmpty then s.host else o.host.getD ""
    port := o.port.getD s.port }

/-- Answer requests with the ledger that settings name, at the level of a run. -/
def listen (clock : Int) (requests : List Http.Request) (s : Settings) (r : Run) : Run :=
  match r.directory.openLedger s.databasePath, s.network? with
  | .error fault, _ => r.ended (.crashed (.ledger fault))
  | .ok _, none => r.ended (.crashed (.setting (.network s.networkName)))
  | .ok opened, some net =>
      let r := { r with directory := r.directory.keep opened }
      let r := r.log [⟨.info, s!"Starting staking API on {s.host}:{s.port} " ++
        s!"(network: {s.networkName}, db: {s.databasePath})"⟩]
      match s.listener r.level with
      | .error fault => r.ended (.crashed (.listener fault))
      | .ok listener =>
          let desk : Desk :=
            { ledger := opened.ledger, network := net, pageSize := s.pageSize }
          let replies := replies clock { desk, origins := .ofList s.origins } requests
          { r.log (replies.flatMap Http.Reply.entries) with
            served := some ⟨listener, replies⟩ }

/-- The path of the settings that the server runs with: those in a data directory,
unless a command line names others. -/
def Serve.path (o : Serve) (directory : String) : String :=
  if (o.settings.getD "").isEmpty then Path.join directory settingsFile else o.settings.getD ""

/-- Run the server with the settings at its path. -/
def serve (clock : Int) (requests : List Http.Request) (disk : Disk) (o : Serve)
    (directory : String) (r : Run) : Run :=
  let path := o.path directory
  match loadSettings disk r.directory path with
  | .error fault => r.withoutSettings s!"Failed to load config {path}" fault
  | .ok s =>
      listen clock requests (override o s) { r with level := s.level?.getD .info }

/-! ## Runs -/

/-- What a run is given: a command line, the time of the clock, the state that draws
begin with for a seed or without one, the requests that reach the server while it
runs, and what is outside. -/
structure Invocation (σ : Type) where
  words : List String
  clock : Int
  draws : Option Int → σ
  requests : List Http.Request := []
  outside : Outside := {}

/-- The run of a command line on a directory. -/
def Invocation.run {σ : Type} (source : Draws σ) (given : Invocation σ) (d : Directory) : Run :=
  match Request.parse given.words with
  | .error .help => { directory := d, ending := .help }
  | .error (.refused program fault) =>
      { directory := d, ending := .refused (usageLine program fault) }
  | .ok ⟨directory, .init o⟩ =>
      init source given.clock given.draws given.outside o directory { directory := d }
  | .ok ⟨directory, .serve o⟩ =>
      serve given.clock given.requests given.outside.disk o directory { directory := d }

end StakeLedger.Command
