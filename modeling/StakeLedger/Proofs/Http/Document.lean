import StakeLedger.Http.Site
import StakeLedger.Proofs.Delegation.Body

/-!
# Answers and faults over the wire

A response carries the text of a document.  A client that reads the text back is told
the answer, whatever delegations it holds, or the code and the message of the fault.

Main definitions:

- {lit}`Http.answerOf?`: the answer that a document shows.
- {lit}`Http.Response.Shows`: responses with the text of a document.
- {lit}`Http.Response.Conveys`: responses that tell a client what came of its query.

Main results:

- Theorem {lit}`Http.answerOf?_documentOf`: the document of an answer shows it.
- Theorem {lit}`Http.conveys_ofOutcome`: the reply to a query conveys what came of it.
-/

namespace StakeLedger.Http

/-! ## Members of documents -/

/-- The data in the document of an answer. -/
def dataOf : Answer → Value
  | .page p => .list (p.items.map Delegation.toValue)
  | .count n => .int n
  | .verdict b => .bool b
  | .delegation d => d.toValue

/-- The key in the document of an answer: a page that is not the last one has one. -/
def keyMembers : Answer → List (String × Value)
  | .page p => if p.nextKey = "" then [] else [("pagination_key", .text p.nextKey)]
  | _ => []

/-- The document of an answer has its data and its key as members. -/
theorem documentOf_eq (a : Answer) :
    documentOf a = .dict (("data", dataOf a) :: keyMembers a) := by
  cases a with
  | page p =>
      by_cases hkey : p.nextKey = ""
      · simp [documentOf, Page.hasMore, hkey, dataOf, keyMembers]
      · simp [documentOf, Page.hasMore, hkey, dataOf, keyMembers]
  | count n => rfl
  | verdict b => rfl
  | delegation d => rfl

/-! ## Documents read back -/

/-- The data are found in a document. -/
theorem get?_data (v : Value) (rest : Fields) :
    Fields.get? (("data", v) :: rest) "data" = some v := by
  simp [Fields.get?]

/-- The data are not in the way of the key. -/
theorem get?_key (v : Value) (rest : Fields) :
    Fields.get? (("data", v) :: rest) "pagination_key" = Fields.get? rest "pagination_key" := by
  simp [Fields.get?, List.lookup_cons]

/-- The pagination key among the members of a document, the empty one if there is none. -/
def keyOf (fields : Fields) : String :=
  match Fields.get? fields "pagination_key" with
  | some (.text key) => key
  | _ => ""

/-- The answer that a document shows, by the kind of its data. -/
def answerOf? : Value → Option Answer
  | .dict fields =>
      match Fields.get? fields "data" with
      | some (.int n) => some (.count n.toNat)
      | some (.bool b) => some (.verdict b)
      | some (.list items) =>
          (items.mapM fun v => (Delegation.ofValue v).toOption).map fun ds =>
            .page { items := ds, nextKey := keyOf fields }
      | some v => (Delegation.ofValue v).toOption.map .delegation
      | none => none
  | _ => none

/-- Documents of delegations read back one by one. -/
theorem mapM_ofValue_toValue (ds : List Delegation) :
    ((ds.map Delegation.toValue).mapM fun v => (Delegation.ofValue v).toOption) = some ds := by
  induction ds with
  | nil => rfl
  | cons d rest ih =>
      rw [List.map_cons, List.mapM_cons, ih, Delegation.ofValue_toValue]
      rfl

/-- The key of a page reads back. -/
theorem keyOf_keyMembers (v : Value) (p : Page) :
    keyOf (("data", v) :: keyMembers (.page p)) = p.nextKey := by
  rw [keyOf, get?_key]
  by_cases hkey : p.nextKey = ""
  · simp [keyMembers, Fields.get?, hkey]
  · simp [keyMembers, Fields.get?, hkey]

/-- The document of an answer shows it. -/
theorem answerOf?_documentOf (a : Answer) : answerOf? (documentOf a) = some a := by
  rw [documentOf_eq, answerOf?, get?_data]
  cases a with
  | page p =>
      simp only [dataOf]
      rw [mapM_ofValue_toValue, keyOf_keyMembers]
      rfl
  | count n => simp [dataOf]
  | verdict b => rfl
  | delegation d =>
      simp only [dataOf, Delegation.toValue]
      rw [← Delegation.toValue, d.ofValue_toValue]
      rfl

/-! ## Texts of documents -/

/-- The data of an answer are nested at most three times. -/
theorem plain_dataOf {depth : Nat} (a : Answer) : Json.Plain none (depth + 3) (dataOf a) := by
  cases a with
  | page p =>
      refine .list ?_
      intro v hv
      obtain ⟨d, -, rfl⟩ := List.mem_map.mp hv
      exact d.plain_toValue
  | count n => exact .int (Json.Token.allows_none _)
  | verdict b => exact .bool b
  | delegation d => exact d.plain_toValue

/-- The key of a page is a text under a name of its own. -/
theorem plain_keyMembers {depth : Nat} (a : Answer) :
    ("data" :: (keyMembers a).map Prod.fst).Nodup ∧
      ∀ pair ∈ keyMembers a, Json.Plain none depth pair.2 := by
  cases a with
  | page p =>
      by_cases hkey : p.nextKey = ""
      · rw [show keyMembers (.page p) = [] from if_pos hkey]
        exact ⟨by simp, fun _ h => absurd h List.not_mem_nil⟩
      · rw [show keyMembers (.page p) = [("pagination_key", .text p.nextKey)] from if_neg hkey]
        refine ⟨by simp, fun pair hpair => ?_⟩
        obtain rfl := List.mem_singleton.mp hpair
        exact .text _
  | count n | verdict b | delegation d =>
      exact ⟨by simp [keyMembers], fun _ h => absurd h List.not_mem_nil⟩

/-- The document of an answer is nested at most four times. -/
theorem plain_documentOf {depth : Nat} (a : Answer) :
    Json.Plain none (depth + 4) (documentOf a) := by
  obtain ⟨hkeys, hmembers⟩ := @plain_keyMembers (depth + 3) a
  rw [documentOf_eq]
  refine .dict hkeys ?_
  intro pair hpair
  rcases List.mem_cons.mp hpair with rfl | hpair
  · exact plain_dataOf a
  · exact hmembers pair hpair

/-- The document of an error is nested twice. -/
theorem plain_problem {depth : Nat} (code message : String) :
    Json.Plain none (depth + 2) (problem code message) := by
  refine .dict (by simp) ?_
  intro outer houter
  obtain rfl := List.mem_singleton.mp houter
  refine .dict (by simp) ?_
  intro inner hinner
  simp only [List.mem_cons, List.not_mem_nil, or_false] at hinner
  rcases hinner with rfl | rfl
  · exact .text _
  · exact .text _

/-! ## Responses -/

/-- A response with the text of a document. -/
structure Response.Shows (r : Response) (status : Nat) (v : Value) : Prop where
  status : r.status = status
  kind : Response.contentType "application/json" ∈ r.headers
  text : Json.parse? r.body.render = some v

/-- A response that tells a client what came of its query: the data of the answer, with
the key of a page that is not the last one, from which the answer can be told, or the
code and the message of the fault. -/
structure Response.Conveys (r : Response) (result : Except QueryFault Answer) : Prop where
  answer : ∀ a, result = .ok a →
    r.Shows 200 (.dict (("data", dataOf a) :: keyMembers a)) ∧
      answerOf? (.dict (("data", dataOf a) :: keyMembers a)) = some a
  client : ∀ fault, result = .error (.client fault) →
    r.Shows 400 (problem "BAD_REQUEST" fault.message)
  notFound : result = .error .notFound →
    r.Shows 404 (problem "NOT_FOUND" QueryFault.notFound.message)
  storage : ∀ op cause, result = .error (.storage op cause) →
    r.Shows 500 (problem "INTERNAL_SERVICE_ERROR" (QueryFault.storage op cause).message)

/-- More headers do not change what a response shows. -/
theorem Response.Shows.withHeaders {r : Response} {status : Nat} {v : Value}
    (h : r.Shows status v) (more : Headers) : (r.withHeaders more).Shows status v :=
  ⟨h.status, List.mem_append_left more h.kind, h.text⟩

/-- More headers do not change what a response conveys. -/
theorem Response.Conveys.withHeaders {r : Response} {result : Except QueryFault Answer}
    (h : r.Conveys result) (more : Headers) : (r.withHeaders more).Conveys result where
  answer a ha := ⟨(h.answer a ha).1.withHeaders more, (h.answer a ha).2⟩
  client fault hfault := (h.client fault hfault).withHeaders more
  notFound hfault := (h.notFound hfault).withHeaders more
  storage op cause hfault := (h.storage op cause hfault).withHeaders more

/-- A response with a document shows it. -/
theorem shows_document {v : Value} (hv : Json.Plain none Json.maxDepth v) (status : Nat) :
    (Response.document status v).Shows status v :=
  ⟨rfl, List.mem_singleton_self _, Json.readWithin?_write .unicode hv⟩

/-- The reply to a query conveys what came of it. -/
theorem conveys_ofOutcome (path : String) (o : Outcome) :
    (Reply.ofOutcome path o).response.Conveys o.result := by
  obtain ⟨result, entries, scanned⟩ := o
  constructor
  · rintro a rfl
    rw [← documentOf_eq]
    exact ⟨shows_document (plain_documentOf a) 200, answerOf?_documentOf a⟩
  · rintro fault rfl
    exact shows_document (plain_problem _ _) 400
  · rintro rfl
    exact shows_document (plain_problem _ _) 404
  · rintro op cause rfl
    exact shows_document (plain_problem _ _) 500

end StakeLedger.Http
