import StakeLedger.Query.Basic

/-!
# Metrics

Every query is timed by its operation and counted by its operation and its outcome, and
the delegations that it scanned are observed.  The exposition shows the counts in a text
format for collectors; how long queries took is left out of it.

Main definitions:

- {lit}`Metrics`: the calls, the timings and the scans since the beginning.
- {lit}`Metrics.record`: account for one query.
- {lit}`Metrics.calls`, {lit}`Metrics.outcomes`, {lit}`Metrics.timings`, {lit}`Metrics.scans`:
  what was accounted for.
- {lit}`Metrics.exposition`: the lines for collectors.

Main results:

- Theorem {lit}`Metrics.calls_record`: a query adds one call to its own operation.
-/

namespace StakeLedger

/-- The calls with their outcomes, the calls that were timed and the scans with their
sizes, the latest first. -/
structure Metrics where
  called : List (Operation × String) := []
  timed : List Operation := []
  scanned : List (Operation × Nat) := []
deriving DecidableEq, Repr

namespace Metrics

/-- The name of the outcome of a query. -/
def outcomeLabel (o : Outcome) : String :=
  match o.result with
  | .ok _ => "ok"
  | .error fault => fault.label

/-- Account for one query. -/
def record (m : Metrics) (op : Operation) (o : Outcome) : Metrics where
  timed := op :: m.timed
  called := (op, outcomeLabel o) :: m.called
  scanned :=
    match o.scanned with
    | some n => (op, n) :: m.scanned
    | none => m.scanned

/-- How many calls an operation had. -/
def calls (m : Metrics) (op : Operation) : Nat :=
  m.called.countP fun c => c.1 = op

/-- How many calls of an operation had an outcome. -/
def outcomes (m : Metrics) (op : Operation) (label : String) : Nat :=
  m.called.count (op, label)

/-- How many calls of an operation were timed. -/
def timings (m : Metrics) (op : Operation) : Nat :=
  m.timed.count op

/-- The sizes of the scans of an operation. -/
def scans (m : Metrics) (op : Operation) : List Nat :=
  (m.scanned.filter fun s => s.1 = op).map Prod.snd

/-- A query adds one call to its own operation and none to others. -/
theorem calls_record (m : Metrics) (op other : Operation) (o : Outcome) :
    (m.record op o).calls other = m.calls other + if op = other then 1 else 0 := by
  simp [calls, record, List.countP_cons]

/-! ## Exposition -/

/-- Zeros and points at the end taken off. -/
def stripTail (text : List Char) : List Char :=
  (text.reverse.dropWhile fun c => c == '0' || c == '.').reverse

/-- A count as a decimal: with an exponent from a million on. -/
def countText (n : Nat) : String :=
  let digits := Nat.toDigits 10 n
  if digits.length ≤ 6 then s!"{n}.0"
  else
    let mantissa := digits.take 1 ++ '.' :: (digits.drop 1 ++ ['0'])
    s!"{String.ofList (stripTail mantissa)}e+0{digits.length - 1}"

/-- The value of a label between quotation marks. -/
def quoted (value : String) : String :=
  s!"\x22{value}\x22"

/-- A sample: a name, labels and a count. -/
def sample (name : String) (labels : List (String × String)) (n : Nat) : String :=
  let parts := ",".intercalate (labels.map fun (key, value) => s!"{key}={quoted value}")
  s!"{name}\x7b{parts}\x7d {countText n}"

/-- The two lines that introduce a family of samples. -/
def header (name kind help : String) : List String :=
  [s!"# HELP {name} {help}", s!"# TYPE {name} {kind}"]

/-- The name of the counter of calls. -/
def requestsName : String := "stakingapi_requests_total"

/-- The name of the histogram of durations. -/
def durationName : String := "stakingapi_request_duration_seconds"

/-- The name of the histogram of scans. -/
def scannedName : String := "stakingapi_delegations_scanned"

/-- The operations in a list, each once. -/
def mentioned (ops : List Operation) : List Operation :=
  Operation.all.filter fun op => ops.contains op

/-- The samples of calls by outcome. -/
def requestSamples (m : Metrics) : List String :=
  m.called.reverse.eraseDups.map fun (op, label) =>
    sample requestsName [("operation", op.name), ("outcome", label)] (m.outcomes op label)

/-- The samples of calls that were timed. -/
def durationSamples (m : Metrics) : List String :=
  (mentioned m.timed).map fun op =>
    sample s!"{durationName}_count" [("operation", op.name)] (m.timings op)

/-- The upper bounds of the buckets of scans. -/
def buckets : List Nat :=
  [0, 1, 10, 50, 100, 500, 1000, 5000, 10000]

/-- The samples of the scans of an operation: how many were at most as large as
each bound, how many there were, and their sum. -/
def scanSamples (m : Metrics) (op : Operation) : List String :=
  let sizes := m.scans op
  (buckets.map fun bound =>
    sample s!"{scannedName}_bucket" [("le", s!"{bound}.0"), ("operation", op.name)]
      (sizes.countP (· ≤ bound))) ++
    [sample s!"{scannedName}_bucket" [("le", "+Inf"), ("operation", op.name)] sizes.length,
      sample s!"{scannedName}_count" [("operation", op.name)] sizes.length,
      sample s!"{scannedName}_sum" [("operation", op.name)] (sizes.foldl (· + ·) 0)]

/-- The lines for collectors. -/
def exposition (m : Metrics) : List String :=
  header requestsName "counter" "Total number of query requests" ++ m.requestSamples ++
    header durationName "histogram" "Time spent answering a query" ++ m.durationSamples ++
    header scannedName "histogram" "Delegations read from storage per query" ++
    (mentioned (m.scanned.map Prod.fst)).flatMap m.scanSamples

end Metrics

end StakeLedger
