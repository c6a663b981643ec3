import Mathlib
import StakeLedger.Http.Site
import StakeLedger.Proofs.Delegation.Tally
import StakeLedger.Proofs.Http.Site
import StakeLedger.Proofs.Query.Scan

/-!
# Metrics account for every call

Queries reach a desk directly or through requests to its site, while its ledger,
network and page size may change between them in any way.  Whatever happens, the
metrics are an account of the calls: each call counts once, under its operation and
what came of it, and what is scanned is told once by each call that tells it.

Main definitions:

- {lit}`Call`: a query and what it was asked of.
- {lit}`Metrics.Accounts`: metrics that account for some calls.
- {lit}`Http.Event`: what can happen to a site.
- {lit}`Http.Site.calls`: the calls that some events make.

Main results:

- Theorem {lit}`Metrics.accounts_recordAll`: metrics that recorded calls account for them.
- Theorem {lit}`Http.Site.metrics_after`: what an event does to the metrics.
- Theorem {lit}`Http.Site.accounts_run`: a run from empty metrics is accounted for.
-/

namespace StakeLedger

open Journal

/-! ## Calls -/

/-- A query and what it was asked of. -/
structure Call where
  setting : Setting
  query : Query

namespace Call

/-- The operation of a call. -/
def operation (c : Call) : Operation :=
  c.query.operation

/-- What came of a call. -/
def outcome (c : Call) : Outcome :=
  c.query.run c.setting

/-- Whether a call was answered. -/
def isAnswered (c : Call) : Bool :=
  c.outcome.result.isOk

/-- Whether a call ended with a fault of a name. -/
def raised (label : String) (c : Call) : Bool :=
  match c.outcome.result with
  | .ok _ => false
  | .error fault => fault.label == label

/-- How many rows a call read for its tally. -/
def rowsRead (c : Call) : Nat :=
  c.query.rowsRead c.setting

/-- Whether a call checked the address of a known staker. -/
def isMapped (c : Call) : Bool :=
  c.query.isMapped c.setting

/-- Whether a call tells what it scanned: it is answered, and it counts or checks the
address of a known staker. -/
def tells (c : Call) : Bool :=
  c.isAnswered && c.query.tells c.setting

/-- No fault is named like an answer. -/
theorem label_ne_ok (fault : QueryFault) : fault.label ≠ "ok" := by
  cases fault with
  | client fault => cases fault <;> simp [QueryFault.label, ClientFault.label]
  | notFound => decide
  | storage op cause => simp [QueryFault.label]
  | internal fault => cases fault <;> decide

/-- The outcome of an answered call is named so, and no other is. -/
theorem outcomeLabel_eq_ok (c : Call) :
    (Metrics.outcomeLabel c.outcome == "ok") = c.isAnswered := by
  unfold Metrics.outcomeLabel isAnswered
  cases c.outcome.result with
  | ok a => rfl
  | error fault => simpa [Except.isOk, Except.toBool] using label_ne_ok fault

/-- The other outcomes are named as the faults are. -/
theorem outcomeLabel_eq {label : String} (hlabel : label ≠ "ok") (c : Call) :
    (Metrics.outcomeLabel c.outcome == label) = c.raised label := by
  unfold Metrics.outcomeLabel raised
  cases c.outcome.result with
  | ok a => simpa using hlabel.symm
  | error fault => rfl

/-- What the outcome of a call says about its scan. -/
theorem scanned_outcome (c : Call) :
    c.outcome.scanned = if c.tells then some c.rowsRead else none :=
  Query.scanned_run c.setting c.query

end Call

namespace Metrics

/-! ## Metrics of calls -/

/-- Metrics after some calls. -/
def recordAll (m : Metrics) (calls : List Call) : Metrics :=
  calls.foldl (fun m c => m.record c.operation c.outcome) m

/-- The calls that are recorded, the latest first. -/
theorem called_recordAll (m : Metrics) (calls : List Call) :
    (m.recordAll calls).called =
      (calls.map fun c => (c.operation, outcomeLabel c.outcome)).reverse ++ m.called := by
  induction calls generalizing m with
  | nil => rfl
  | cons c rest ih =>
      rw [recordAll, List.foldl_cons, ← recordAll, ih]
      simp [record]

/-- The timings that are recorded, the latest first. -/
theorem timed_recordAll (m : Metrics) (calls : List Call) :
    (m.recordAll calls).timed = (calls.map Call.operation).reverse ++ m.timed := by
  induction calls generalizing m with
  | nil => rfl
  | cons c rest ih =>
      rw [recordAll, List.foldl_cons, ← recordAll, ih]
      simp [record]

/-- The scans that are recorded, the latest first. -/
theorem scanned_recordAll (m : Metrics) (calls : List Call) :
    (m.recordAll calls).scanned =
      ((calls.filter Call.tells).map fun c => (c.operation, c.rowsRead)).reverse ++
        m.scanned := by
  induction calls generalizing m with
  | nil => rfl
  | cons c rest ih =>
      rw [recordAll, List.foldl_cons, ← recordAll, ih]
      cases htells : c.tells <;> simp [record, Call.scanned_outcome, htells]

variable {calls : List Call}

/-- How many calls of an operation were recorded. -/
theorem calls_recordAll (calls : List Call) (op : Operation) :
    (recordAll {} calls).calls op = calls.countP fun c => c.operation == op := by
  rw [Metrics.calls, called_recordAll, List.append_nil, List.countP_reverse, List.countP_map]
  rfl

/-- How many calls of an operation were timed. -/
theorem timings_recordAll (calls : List Call) (op : Operation) :
    (recordAll {} calls).timings op = calls.countP fun c => c.operation == op := by
  rw [timings, timed_recordAll, List.append_nil, List.count, List.countP_reverse,
    List.countP_map]
  rfl

/-- How many calls of an operation were recorded with an outcome. -/
theorem outcomes_recordAll (calls : List Call) (op : Operation) (label : String) :
    (recordAll {} calls).outcomes op label =
      calls.countP fun c => outcomeLabel c.outcome == label && c.operation == op := by
  rw [outcomes, called_recordAll, List.append_nil, List.count, List.countP_reverse,
    List.countP_map]
  refine List.countP_congr fun c _ => ?_
  simp [and_comm]

/-- Which scans of an operation were recorded. -/
theorem scans_recordAll (calls : List Call) (op : Operation) :
    (recordAll {} calls).scans op =
      ((calls.filter fun c => c.tells && c.operation == op).map Call.rowsRead).reverse := by
  rw [scans, scanned_recordAll, List.append_nil, List.filter_reverse, List.map_reverse,
    List.filter_map, List.map_map, List.filter_filter]
  congr 3
  funext c
  exact Bool.and_comm _ _

/-! ## Accounts -/

/-- Metrics that account for some calls.  Each call is counted under its operation and
its outcome, and timed under its operation, so there are as many timings as counts.  Scans
are told by the answered calls of
the operations that count and by the answered checks of addresses of known stakers,
once by each, and their sizes add up to the rows that were read.  Collectors are shown
all of these numbers that are not zero. -/
structure Accounts (m : Metrics) (made : List Call) : Prop where
  counted : ∀ op, m.calls op = made.countP fun c => c.operation == op
  timed : ∀ op, m.timings op = made.countP fun c => c.operation == op
  total : ∀ op, ∑ label ∈ (made.map fun c => outcomeLabel c.outcome).toFinset,
    m.outcomes op label = m.timings op
  answered : ∀ op, m.outcomes op "ok" =
    made.countP fun c => c.isAnswered && c.operation == op
  raised : ∀ op label, label ≠ "ok" →
    m.outcomes op label = made.countP fun c => c.raised label && c.operation == op
  counts : ∀ op, op.counts = true → (m.scans op).length = m.outcomes op "ok" ∧
    (m.scans op).sum =
      ((made.filter fun c => c.isAnswered && c.operation == op).map Call.rowsRead).sum
  checks : (m.scans .checkActivity).length = made.countP fun c => c.isAnswered && c.isMapped
  others : m.scans .listDelegations = [] ∧ m.scans .findDelegation = []
  requestLines : ∀ line, line ∈ m.requestSamples ↔ ∃ op label, 0 < m.outcomes op label ∧
    line = sample requestsName [("operation", op.name), ("outcome", label)]
      (m.outcomes op label)
  durationLines : ∀ line, line ∈ m.durationSamples ↔ ∃ op, 0 < m.timings op ∧
    line = sample s!"{durationName}_count" [("operation", op.name)] (m.timings op)
  scanLines : ∀ op, m.scans op ≠ [] →
    sample s!"{scannedName}_count" [("operation", op.name)] (m.scans op).length ∈
        m.exposition ∧
      sample s!"{scannedName}_sum" [("operation", op.name)] (m.scans op).sum ∈ m.exposition

/-- The lines about calls are those of the outcomes that there were. -/
theorem mem_requestSamples (m : Metrics) (line : String) :
    line ∈ m.requestSamples ↔ ∃ op label, 0 < m.outcomes op label ∧
      line = sample requestsName [("operation", op.name), ("outcome", label)]
        (m.outcomes op label) := by
  simp only [requestSamples, List.mem_map, List.mem_eraseDups, List.mem_reverse, Prod.exists,
    outcomes, List.count_pos_iff, eq_comm (a := line)]

/-- All operations are among them. -/
theorem mem_mentioned {ops : List Operation} {op : Operation} : op ∈ mentioned ops ↔ op ∈ ops := by
  have hall : op ∈ Operation.all := by cases op <;> decide
  simp [mentioned, hall]

/-- The lines about durations are those of the operations that were timed. -/
theorem mem_durationSamples (m : Metrics) (line : String) :
    line ∈ m.durationSamples ↔ ∃ op, 0 < m.timings op ∧
      line = sample s!"{durationName}_count" [("operation", op.name)] (m.timings op) := by
  simp only [durationSamples, List.mem_map, mem_mentioned, timings, List.count_pos_iff,
    eq_comm (a := line)]

/-- Of an operation that scanned there are lines with the number of scans and with their
sum. -/
theorem scanLines_mem (m : Metrics) {op : Operation} (h : m.scans op ≠ []) :
    sample s!"{scannedName}_count" [("operation", op.name)] (m.scans op).length ∈
        m.exposition ∧
      sample s!"{scannedName}_sum" [("operation", op.name)] (m.scans op).sum ∈
        m.exposition := by
  obtain ⟨size, hsize⟩ := List.exists_mem_of_ne_nil _ h
  obtain ⟨mark, hmark, -⟩ := List.mem_map.mp hsize
  rw [List.mem_filter, decide_eq_true_eq] at hmark
  have hop : op ∈ mentioned (m.scanned.map Prod.fst) :=
    mem_mentioned.mpr (List.mem_map.mpr ⟨mark, hmark⟩)
  have hshown {line : String} (hline : line ∈ m.scanSamples op) : line ∈ m.exposition :=
    List.mem_append_right _ (List.mem_flatMap.mpr ⟨op, hop, hline⟩)
  constructor
  · exact hshown (by simp [scanSamples])
  · exact hshown (by simp [scanSamples, List.sum_eq_foldl])

/-- An operation that counts tells a scan for each answer. -/
theorem tells_of_counts {op : Operation} (hop : op.counts = true) (c : Call) :
    (c.tells && c.operation == op) = (c.isAnswered && c.operation == op) := by
  cases hc : c.operation == op with
  | false => simp
  | true =>
      have hcounts : c.query.operation.counts = true := by
        rw [← hop, ← beq_iff_eq.mp hc]
        rfl
      simp [Call.tells, Query.tells, hcounts]

/-- A check tells a scan if it is answered and its address is that of a known staker. -/
theorem tells_of_check (c : Call) :
    (c.tells && c.operation == .checkActivity) = (c.isAnswered && c.isMapped) := by
  unfold Call.tells Call.operation Call.isMapped Query.tells
  cases c.query <;> simp [Query.operation, Operation.counts, Query.isMapped]

/-- A listing or a look-up tells no scan. -/
theorem tells_of_other {op : Operation} (hop : op = .listDelegations ∨ op = .findDelegation)
    (c : Call) : (c.tells && c.operation == op) = false := by
  unfold Call.tells Call.operation Query.tells
  rcases hop with rfl | rfl <;>
    cases c.query <;> simp [Query.operation, Operation.counts, Query.isMapped]

/-- Metrics that recorded calls account for them. -/
theorem accounts_recordAll (made : List Call) : (recordAll {} made).Accounts made where
  counted := calls_recordAll made
  timed := timings_recordAll made
  total op := by
    simp only [outcomes_recordAll, timings_recordAll]
    exact sum_countP_eq (fun c : Call => outcomeLabel c.outcome) (fun c => c.operation == op) made
  answered op := by
    simp only [outcomes_recordAll, Call.outcomeLabel_eq_ok]
  raised op label hlabel := by
    simp only [outcomes_recordAll, Call.outcomeLabel_eq hlabel]
  counts op hop := by
    simp only [scans_recordAll, outcomes_recordAll, Call.outcomeLabel_eq_ok, tells_of_counts hop,
      List.length_reverse, List.length_map, List.countP_eq_length_filter, List.sum_reverse,
      and_self]
  checks := by
    simp only [scans_recordAll, tells_of_check, List.length_reverse, List.length_map,
      List.countP_eq_length_filter]
  others := by
    simp [scans_recordAll, tells_of_other]
  requestLines := mem_requestSamples _
  durationLines := mem_durationSamples _
  scanLines _ h := scanLines_mem _ h

end Metrics

namespace Http

/-! ## Runs -/

/-- What can happen to a site: a query reaches its desk, a request comes in, or the
ledger, the network and the page size become others. -/
inductive Event where
  | ask (clock : Int) (request : String) (q : Query)
  | send (clock : Int) (request : Request)
  | change (ledger : Ledger) (network : Network) (pageSize : Int)

/-- The query that a request asks for, if it is one to read at the path of an
operation. -/
def Request.query? (request : Request) : Option Query :=
  match Endpoint.ofPath? request.path with
  | some (.operation op) =>
      if request.method = "GET" then some (queryOf op (.parse request.query)) else none
  | _ => none

namespace Site

/-- A site after an event. -/
def after (site : Site) : Event → Site
  | .ask clock request q => { site with desk := (site.desk.ask clock request q).2 }
  | .send clock request => (site.respond clock request).2
  | .change ledger network pageSize =>
      { site with desk := { site.desk with ledger, network, pageSize } }

/-- A site after some events. -/
def run (site : Site) (events : List Event) : Site :=
  events.foldl after site

/-- The call that an event makes, if it makes one. -/
def call? (site : Site) : Event → Option Call
  | .ask clock _ q => some ⟨site.desk.setting clock, q⟩
  | .send clock request => request.query?.map fun q => ⟨site.desk.setting clock, q⟩
  | .change _ _ _ => none

/-- The calls that some events make. -/
def calls (site : Site) : List Event → List Call
  | [] => []
  | e :: rest => (site.call? e).toList ++ (site.after e).calls rest

/-- A desk that answers a query records the call. -/
theorem metrics_ask (desk : Desk) (clock : Int) (request : String) (q : Query) :
    (desk.ask clock request q).2.metrics =
      desk.metrics.recordAll [⟨desk.setting clock, q⟩] :=
  rfl

/-- Only requests to read ask for a query. -/
theorem method_of_query? {request : Request} {q : Query} (h : request.query? = some q) :
    request.method = "GET" := by
  unfold Request.query? at h
  split at h
  · by_contra hmethod
    rw [if_neg hmethod] at h
    exact nomatch h
  · exact nomatch h

/-- What a request does to the metrics of a desk, if no browser asks before it. -/
theorem metrics_route (desk : Desk) (clock : Int) (request : Request) :
    (route desk clock request).2.metrics =
      desk.metrics.recordAll (request.query?.map fun q => ⟨desk.setting clock, q⟩).toList := by
  unfold route Request.query?
  cases Endpoint.ofPath? request.path with
  | none => rfl
  | some endpoint =>
      by_cases hmethod : request.method = "GET"
      · cases endpoint with
        | health => simp [hmethod, serve, Metrics.recordAll]
        | metrics => simp [hmethod, serve, Metrics.recordAll]
        | operation op => simp only [if_pos hmethod, serve, metrics_ask]; rfl
      · cases endpoint <;> simp [hmethod, Metrics.recordAll]

/-- A site that answers a request records the call that it makes. -/
theorem metrics_respond (site : Site) (clock : Int) (request : Request) :
    (site.respond clock request).2.desk.metrics =
      site.desk.metrics.recordAll (site.call? (.send clock request)).toList := by
  unfold respond call?
  cases hpreflight : site.origins.preflight? request with
  | none => exact metrics_route site.desk clock request
  | some response =>
      have hquery : request.query? = none := by
        cases hq : request.query? with
        | none => rfl
        | some q =>
            rw [preflight?_of_get (method_of_query? hq)] at hpreflight
            exact nomatch hpreflight
      simp only [hquery]
      rfl

/-- What an event does to the metrics: they record the call that it makes. -/
theorem metrics_after (site : Site) (e : Event) :
    (site.after e).desk.metrics = site.desk.metrics.recordAll (site.call? e).toList := by
  cases e with
  | ask clock request q => exact metrics_ask site.desk clock request q
  | send clock request => exact metrics_respond site clock request
  | change ledger network pageSize => rfl

/-- What a run does to the metrics: they record the calls that it makes. -/
theorem metrics_run (site : Site) (events : List Event) :
    (site.run events).desk.metrics = site.desk.metrics.recordAll (site.calls events) := by
  induction events generalizing site with
  | nil => rfl
  | cons e rest ih =>
      rw [run, List.foldl_cons, ← run, ih, metrics_after, calls, Metrics.recordAll,
        Metrics.recordAll, Metrics.recordAll, List.foldl_append]

/-- A site whose metrics are emptied. -/
def emptied (site : Site) : Site :=
  { site with desk := { site.desk with metrics := {} } }

/-- After any run from empty metrics, the metrics account for the calls that were made,
directly or by requests. -/
theorem accounts_run (site : Site) (events : List Event) :
    (site.emptied.run events).desk.metrics.Accounts (site.emptied.calls events) := by
  rw [metrics_run]
  exact Metrics.accounts_recordAll _

end Site

end Http

end StakeLedger
