import StakeLedger.Json.Reader
import StakeLedger.Proofs.Json.Scan

/-!
# Written documents read back

A document is written by going down its values and read by a machine that puts
finished values onto a stack.  Values of the kinds that documents are made of
read back, as long as the keys of a dictionary differ and the nesting and the
numbers stay within the bounds of the reader.

Main definitions:

- {lit}`Json.Plain`: a value of these kinds with bounds on its nesting and its numbers.
- {lit}`Json.tokens`: the tokens of a value.

Main results:

- Theorem {lit}`Json.scans_separated`: texts with commas between them.
- Theorem {lit}`Json.scans_write`: a written value is read as its tokens.
- Theorem {lit}`Json.foldlM_step_tokens`: its tokens put the value onto the stack.
- Theorem {lit}`Json.readWithin?_write`: a written value reads back, with either set of escapes.
-/

namespace StakeLedger

/-! ## Dictionaries -/

/-- A new key goes to the end of a dictionary. -/
theorem Fields.set_of_notMem {fields : Fields} {key : String} (v : Value)
    (h : key ∉ fields.map Prod.fst) : Fields.set fields key v = fields ++ [(key, v)] := by
  induction fields with
  | nil => rfl
  | cons pair rest ih =>
      obtain ⟨k, w⟩ := pair
      simp only [List.map_cons, List.mem_cons, not_or] at h
      simp [Fields.set, Ne.symm h.1, ih h.2]

/-- Pairs with different keys are kept as they come. -/
theorem Value.ofFields_of_nodup {pairs : List (String × Value)}
    (h : (pairs.map Prod.fst).Nodup) : Value.ofFields pairs = .dict pairs := by
  have hfold : ∀ before : Fields, ((before ++ pairs).map Prod.fst).Nodup →
      pairs.foldl (fun fields pair => Fields.set fields pair.1 pair.2) before =
        before ++ pairs := by
    clear h
    induction pairs with
    | nil => simp
    | cons pair rest ih =>
        intro before hkeys
        obtain ⟨key, v⟩ := pair
        have hnew : key ∉ before.map Prod.fst := by
          intro hmem
          rw [List.map_append, List.nodup_append] at hkeys
          exact hkeys.2.2 key hmem key (by simp) rfl
        have hrest := ih (before ++ [(key, v)]) (by simpa using hkeys)
        simp only [List.foldl_cons, Fields.set_of_notMem v hnew]
        simpa using hrest
  rw [Value.ofFields, hfold [] (by simpa using h)]
  rfl

namespace Json

/-! ## Plain values and their tokens -/

/-- A value without decimals or octets, whose dictionaries have different keys,
that is nested at most so deep and whose numbers are no longer than allowed. -/
inductive Plain (longest : Option Nat) : Nat → Value → Prop where
  | null {depth : Nat} : Plain longest depth .null
  | bool {depth : Nat} (b : Bool) : Plain longest depth (.bool b)
  | int {depth : Nat} {n : Int} (hlength : Token.Allows longest (writeInt n).length) :
      Plain longest depth (.int n)
  | text {depth : Nat} (s : String) : Plain longest depth (.text s)
  | list {depth : Nat} {items : List Value} (hitems : ∀ v ∈ items, Plain longest depth v) :
      Plain longest (depth + 1) (.list items)
  | dict {depth : Nat} {fields : List (String × Value)} (hkeys : (fields.map Prod.fst).Nodup)
      (hfields : ∀ pair ∈ fields, Plain longest depth pair.2) :
      Plain longest (depth + 1) (.dict fields)

variable {longest : Option Nat}

/-- Tokens with commas between them. -/
def joined : List (List Token) → List Token
  | [] => []
  | [ts] => ts
  | ts :: rest => ts ++ .comma :: joined rest

mutual

/-- The tokens of a value. -/
def tokens : Value → List Token
  | .list items => .openList :: (joined (itemTokens items) ++ [.closeList])
  | .dict fields => .openDict :: (joined (fieldTokens fields) ++ [.closeDict])
  | v => [.scalar v]

/-- The tokens of the items of a list. -/
def itemTokens : List Value → List (List Token)
  | [] => []
  | v :: rest => tokens v :: itemTokens rest

/-- The tokens of the pairs of a dictionary. -/
def fieldTokens : List (String × Value) → List (List Token)
  | [] => []
  | (key, v) :: rest => (.scalar (.text key) :: .colon :: tokens v) :: fieldTokens rest

end

theorem itemTokens_eq_map (items : List Value) : itemTokens items = items.map tokens := by
  induction items with
  | nil => rfl
  | cons v rest ih => simp [itemTokens, ih]

theorem fieldTokens_eq_map (fields : List (String × Value)) :
    fieldTokens fields =
      fields.map fun pair => .scalar (.text pair.1) :: .colon :: tokens pair.2 := by
  induction fields with
  | nil => rfl
  | cons pair rest ih => simp [fieldTokens, ih]

theorem writeItems_eq_map (charset : Charset) (items : List Value) :
    writeItems charset items = items.map (write charset) := by
  induction items with
  | nil => rfl
  | cons v rest ih => simp [writeItems, ih]

theorem writeFields_eq_map (charset : Charset) (fields : List (String × Value)) :
    writeFields charset fields =
      fields.map fun pair => writeText charset pair.1 ++ ':' :: write charset pair.2 := by
  induction fields with
  | nil => rfl
  | cons pair rest ih => simp [writeFields, ih]

/-! ## From text to tokens -/

open Token in
/-- Texts with commas between them are read as their tokens with commas between
them. -/
theorem scans_separated {α : Type} (text : α → List Char) (toks : α → List Token) (xs : List α)
    (h : ∀ x ∈ xs, Scans longest (text x) (toks x)) :
    Scans longest (separated (xs.map text)) (joined (xs.map toks)) := by
  induction xs with
  | nil => exact scans_nil
  | cons x rest ih =>
      have hx : Scans longest (text x) (toks x) := h x List.mem_cons_self
      have hrest := ih fun y hy => h y (List.mem_cons_of_mem x hy)
      cases rest with
      | nil => exact hx
      | cons y ys => exact hx.append_cons rfl hrest

open Token in
/-- A written value is read as its tokens. -/
theorem scans_write (charset : Charset) {depth : Nat} {v : Value} (hv : Plain longest depth v) :
    Scans longest (write charset v) (tokens v) := by
  induction hv with
  | null =>
      change Scans longest "null".toList [.scalar .null]
      exact scans_word rfl (by decide) (by decide)
  | bool b =>
      cases b with
      | false =>
          change Scans longest "false".toList [.scalar (.bool false)]
          exact scans_word rfl (by decide) (by decide)
      | true =>
          change Scans longest "true".toList [.scalar (.bool true)]
          exact scans_word rfl (by decide) (by decide)
  | int hlength => exact scans_writeInt hlength
  | text s => exact scans_writeText charset s
  | list _ ih =>
      rw [write, tokens, writeItems_eq_map, itemTokens_eq_map]
      have hitems := scans_separated (write charset) tokens _ ih
      exact (hitems.append_cons rfl scans_nil).cons rfl
  | @dict depth fields _ _ ih =>
      rw [write, tokens, writeFields_eq_map, fieldTokens_eq_map]
      have hpair (pair : String × Value) (hmem : pair ∈ fields) :
          Scans longest (writeText charset pair.1 ++ ':' :: write charset pair.2)
            (.scalar (.text pair.1) :: .colon :: tokens pair.2) :=
        (scans_writeText charset pair.1).append_cons rfl (ih pair hmem)
      have hfields := scans_separated _ _ fields hpair
      exact (hfields.append_cons rfl scans_nil).cons rfl

/-! ## From tokens to values -/

/-- The tokens of a value put it where a value may begin, if its nesting leaves
room below the bound of the reader. -/
def Builds (limit depth : Nat) (v : Value) : Prop :=
  ∀ stack mayClose, stack.length + depth ≤ limit →
    (tokens v).foldlM (step limit) (.value stack mayClose) = some (place v stack)

/-- Items with commas between them are put into an open list. -/
theorem foldlM_step_items {limit depth : Nat} (stack : List Frame)
    (hroom : stack.length + depth < limit) (items : List Value) (hne : items ≠ [])
    (hitems : ∀ v ∈ items, Builds limit depth v) (done : List Value) (mayClose : Bool) :
    (joined (items.map tokens)).foldlM (step limit) (.value (.list done :: stack) mayClose) =
      some (.afterItem (items.reverse ++ done) stack) := by
  induction items generalizing done mayClose with
  | nil => exact absurd rfl hne
  | cons v rest ih =>
      have hv := hitems v List.mem_cons_self (.list done :: stack) mayClose
        (by simp only [List.length_cons]; omega)
      have hrest : ∀ w ∈ rest, Builds limit depth w := fun w hw =>
        hitems w (List.mem_cons_of_mem v hw)
      cases rest with
      | nil => exact hv
      | cons w ws =>
          have htail := ih (by simp) hrest (v :: done) false
          simp only [List.map_cons] at htail ⊢
          rw [joined, List.foldlM_append, hv]
          · simpa [place, step] using htail
          · simp

/-- The key, the colon and the value of a pair are put into an open
dictionary. -/
theorem foldlM_step_pair {limit depth : Nat} (stack : List Frame)
    (hroom : stack.length + depth < limit) (key : String) {v : Value}
    (hv : Builds limit depth v) (done : List (String × Value)) (mayClose : Bool) :
    (.scalar (.text key) :: .colon :: tokens v).foldlM (step limit) (.key done stack mayClose) =
      some (.afterField ((key, v) :: done) stack) := by
  have hvalue := hv (.dict done key :: stack) false (by simp only [List.length_cons]; omega)
  simpa [step, place] using hvalue

/-- Pairs with commas between them are put into an open dictionary. -/
theorem foldlM_step_fields {limit depth : Nat} (stack : List Frame)
    (hroom : stack.length + depth < limit) (fields : List (String × Value)) (hne : fields ≠ [])
    (hfields : ∀ pair ∈ fields, Builds limit depth pair.2) (done : List (String × Value))
    (mayClose : Bool) :
    (joined (fields.map fun pair => .scalar (.text pair.1) :: .colon :: tokens pair.2)).foldlM
        (step limit) (.key done stack mayClose) =
      some (.afterField (fields.reverse ++ done) stack) := by
  induction fields generalizing done mayClose with
  | nil => exact absurd rfl hne
  | cons pair rest ih =>
      have hpair := foldlM_step_pair stack hroom pair.1
        (hfields pair List.mem_cons_self) done mayClose
      have hrest : ∀ p ∈ rest, Builds limit depth p.2 := fun p hp =>
        hfields p (List.mem_cons_of_mem pair hp)
      cases rest with
      | nil => exact hpair
      | cons p ps =>
          have htail := ih (by simp) hrest (pair :: done) false
          simp only [List.map_cons] at htail ⊢
          rw [joined, List.foldlM_append, hpair]
          · simpa [step] using htail
          · simp

/-- The tokens of a value put it onto the stack. -/
theorem foldlM_step_tokens (limit : Nat) {depth : Nat} {v : Value} (hv : Plain longest depth v) :
    Builds limit depth v := by
  induction hv with
  | null | bool | int | text =>
      intro stack mayClose _
      simp [tokens, step, beginValue]
  | @list depth items _ ih =>
      intro stack mayClose hroom
      have hopen : step limit (.value stack mayClose) .openList =
          some (.value (.list [] :: stack) true) := by
        have : stack.length < limit := by omega
        simp [step, beginValue, this]
      rw [tokens, itemTokens_eq_map, List.foldlM_cons, hopen]
      simp only [Option.bind_eq_bind, Option.bind_some, List.foldlM_append]
      by_cases hne : items = []
      · subst hne
        simp [joined, step]
      · rw [foldlM_step_items stack (by omega) items hne ih [] true]
        simp [step]
  | @dict depth fields hkeys _ ih =>
      intro stack mayClose hroom
      have hopen : step limit (.value stack mayClose) .openDict = some (.key [] stack true) := by
        have : stack.length < limit := by omega
        simp [step, beginValue, this]
      rw [tokens, fieldTokens_eq_map, List.foldlM_cons, hopen]
      simp only [Option.bind_eq_bind, Option.bind_some, List.foldlM_append]
      by_cases hne : fields = []
      · subst hne
        simp [joined, step, Value.ofFields]
      · rw [foldlM_step_fields stack (by omega) fields hne ih [] true]
        simp [step, Value.ofFields_of_nodup hkeys]

/-! ## Reading back -/

/-- A written value reads back, with either set of escapes. -/
theorem readWithin?_write (charset : Charset) {depth : Nat} {v : Value}
    (hv : Plain longest depth v) :
    readWithin? longest depth (String.ofList (write charset v)) = some v := by
  have hscan := Token.scan?_of_scans (scans_write charset hv)
  have hbuild := foldlM_step_tokens depth hv [] false (by simp)
  simp [readWithin?, hscan, ofTokens?, hbuild, place]

end Json

end StakeLedger
