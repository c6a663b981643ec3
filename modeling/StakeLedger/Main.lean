import StakeLedger.Command.Run
import StakeLedger.Ledger.Document

/-!
# The program

The program reads what lies at the paths of its run, lets the run go over it as if
nothing outside could refuse it, and writes what has changed.  While the server runs,
requests come as lines of standard input, each a method and an address.
-/

namespace StakeLedger.Command

/-- What the octets of a file are. -/
def itemOf (octets : Octets) : Item :=
  match h : Utf8.decode? octets with
  | none => .garbled ⟨octets, h⟩
  | some chars =>
      match Ledger.ofText? (String.ofList chars) with
      | some ledger => .ledger ledger
      | none => .text (String.ofList chars)

/-- The octets of an item in a file. -/
def octetsOf? : Item → Option Octets
  | .directory => none
  | .text text => some (Utf8.encode text.toList)
  | .garbled g => some g.val
  | .ledger ledger => some (Utf8.encode ledger.toText.toList)

/-- The path of some names. -/
def pathOf (names : List String) : String :=
  "/".intercalate names

/-- A directory with what lies at a path and around it. -/
def gather (d : Directory) (path : String) : IO Directory := do
  let names := Path.plainNames path
  let mut d := d
  for n in List.range names.length do
    let here := names.take (n + 1)
    let file := (← IO.currentDir) / pathOf here
    if ← file.isDir then d := d.put here .directory
    else if ← file.pathExists then d := d.put here (itemOf (← IO.FS.readBinFile file).toList)
  return d

/-- The path of the settings of a request. -/
def settingsPath (request : Request) : String :=
  match request.order with
  | .init _ => Path.join request.directory settingsFile
  | .serve order => order.path request.directory

/-- What lies at the paths of a request. -/
def surroundings (request : Request) : IO Directory := do
  let d ← gather (← gather {} request.directory) (settingsPath request)
  match loadSettings {} d (settingsPath request) with
  | .ok settings => gather d settings.databasePath
  | .error _ => gather d (Path.join request.directory ledgerFile)

/-- Write what has changed, what lies further out first. -/
def writeBack (before after : Directory) : IO Unit := do
  for (names, item) in after.items.reverse do
    if before.find? names ≠ some item then
      match octetsOf? item with
      | none => IO.FS.createDirAll (pathOf names)
      | some octets => IO.FS.writeBinFile (pathOf names) ⟨octets.toArray⟩

/-- The request of a line: a method and an address, in which a question mark begins
the query. -/
def requestOf (line : String) : Http.Request :=
  let (method, rest) := line.toList.span (· ≠ ' ')
  let (path, query) := (rest.drop 1).span (· ≠ '?')
  { method := String.ofList method
    path := String.ofList path
    query := String.ofList (query.drop 1)
    headers := [("host", "localhost")] }

/-- The lines of an input up to its end. -/
partial def lines (input : IO.FS.Stream) : IO (List String) := do
  let line ← input.getLine
  if line.isEmpty then return []
  return line.trimAscii.toString :: (← lines input)

/-- The requests that come while a command runs. -/
def requestsFor (order : Order) : IO (List Http.Request) := do
  match order with
  | .init _ => return []
  | .serve _ => return (← lines (← IO.getStdin)).map requestOf

/-- The time of the clock in seconds: that of a file made now. -/
def clock : IO Int := do
  IO.FS.withTempFile fun _ path => do
    return (← path.metadata).modified.sec

/-- What a run shows, and its status. -/
def report (run : Run) : IO UInt32 := do
  for line in run.printed do
    IO.println line
  for entry in run.entries do
    IO.eprintln s!"{entry.level.name} {entry.text}"
  for reply in (run.served.map Served.replies).getD [] do
    IO.println s!"{reply.response.status} {reply.response.body.render}"
  match run.ending with
  | .done => return 0
  | .help =>
      IO.println s!"usage: {programName} [--datadir DATADIR] COMMAND ..."
      return 0
  | .refused line =>
      IO.eprintln line
      return 2
  | .reported => return 1
  | .crashed crash =>
      IO.eprintln crash.message
      return 1

end StakeLedger.Command

open StakeLedger Command in
/-- The program. -/
def main (words : List String) : IO UInt32 := do
  let parsed := Command.Request.parse words
  let before ← match parsed with
    | .ok request => surroundings request
    | .error _ => pure {}
  let requests ← match parsed with
    | .ok request => requestsFor request.order
    | .error _ => pure []
  let octets ← IO.rand 0 0x7fffffff
  let numbers ← IO.rand 0 0x7fffffff
  let given : Invocation Congruential := {
    words := words
    clock := ← clock
    draws := fun seed => .ofSeeds octets (seed.getD numbers)
    requests := requests }
  let run := given.run Congruential.draws before
  writeBack before run.directory
  report run
