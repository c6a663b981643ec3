import StakeLedger.Proofs.Yaml.Number
import StakeLedger.Proofs.Yaml.Stream

/-!
# The tokens of written sections

A written section is cut into the tokens of a mapping with one key, whose value is the
mapping of its members.

Main definitions:

- {lit}`Yaml.Section.tokens`: the tokens of a section.
- {lit}`Yaml.Section.WellFormed`: sections whose names can stand plainly.

Main results:

- Theorem {lit}`Yaml.Section.ofText_write`: a written section has its tokens.
-/

namespace StakeLedger.Yaml

open Style Cutter

/-! ## Numbers -/

/-- A number that begins with a digit behind its sign can stand plainly. -/
theorem standing_of_digit {sign : List Char} (hsign : sign = [] ∨ sign = ['-']) {c : Char}
    (hdigit : Numeral.isDigit c = true) {rest : List Char}
    (hnumeric : ∀ d ∈ sign ++ c :: rest, d ∈ numeric) : Standing (sign ++ c :: rest) := by
  have hall : ∀ d ∈ numeric, (' ' ≤ d ∧ d ≤ '~') ∧ d ≠ ' ' ∧ d ≠ '#' ∧ d ≠ ':' :=
    List.all_iff_forall_prop.mp (by decide)
  refine standing_of_word (by simp) (fun d hd => hall d (hnumeric d hd)) ?_
  obtain ⟨hhyphen, hpoint, hopener, hindicator, hends⟩ : c ≠ '-' ∧ c ≠ '.' ∧ c ∉ openers ∧
      c ∉ ['?', ':', '-'] ∧ endsWord (some c) = false := Numeral.of_digits c hdigit (by decide)
  rcases hsign with rfl | rfl
  · simp only [List.mem_cons, List.not_mem_nil, or_false, not_or] at hindicator
    simp [beginsOtherwise, hhyphen, hpoint, hopener, hindicator]
  · have hsign : '-' ∉ openers := by decide
    simp [beginsOtherwise, hhyphen, hsign, hends]

/-- A whole number can stand plainly. -/
theorem standing_int (n : Int) : Standing (toString n).toList := by
  obtain ⟨c, rest, heq⟩ :=
    List.exists_cons_of_ne_nil (Nat.toDigits_ne_nil (n := n.natAbs) (b := 10))
  have hdigit : Numeral.isDigit c = true :=
    Numeral.isDigit_of_mem_toDigits (heq ▸ List.mem_cons_self)
  have hnumeric := mem_numeric_of_int n
  rw [toList_toString, heq] at hnumeric ⊢
  exact standing_of_digit (by split <;> simp) hdigit hnumeric

/-- There are no blanks in it. -/
theorem blank_not_mem_int (n : Int) : ' ' ∉ (toString n).toList := fun hmem =>
  absurd (mem_numeric_of_int n ' ' hmem) (by decide)

/-- So can a double. -/
theorem standing_write (x : Binary64) : Standing (Layout.yaml.write x) := by
  cases x with
  | finite negative m e h =>
      obtain ⟨body, heq, d, -, hpointed⟩ := exists_write_finite negative h
      obtain ⟨c, rest, rfl, hdigit⟩ := exists_digit_of_pointed hpointed
      rw [heq]
      refine standing_of_digit (by cases negative <;> simp) hdigit ?_
      rw [List.forall_mem_append]
      refine ⟨?_, fun d hd => mem_numeric_of_pointed hpointed hd⟩
      cases negative <;> exact List.all_iff_forall_prop.mp (by decide)
  | infinite negative =>
      cases negative <;>
        exact standing_of_word (by decide) (List.all_iff_forall_prop.mp (by decide)) (by decide)
  | nan =>
      exact standing_of_word (by decide) (List.all_iff_forall_prop.mp (by decide)) (by decide)

/-- There are no blanks in it, either. -/
theorem blank_not_mem_write (x : Binary64) : ' ' ∉ Layout.yaml.write x := by
  cases x with
  | finite negative m e h =>
      obtain ⟨body, heq, d, -, hpointed⟩ := exists_write_finite negative h
      rw [heq, List.mem_append, not_or]
      refine ⟨by cases negative <;> decide, fun hmem => ?_⟩
      exact absurd (mem_numeric_of_pointed hpointed hmem) (by decide)
  | infinite negative => cases negative <;> decide
  | nan => decide

/-! ## Tokens of entries -/

/-- The tokens of an entry. -/
def Entry.tokens : Entry → List Token
  | .int n => [.scalar (toString n) true]
  | .real x => [.scalar (String.ofList (Layout.yaml.write x)) true]
  | .text s => [textToken s]
  | .texts [] => [.flowSequence, .flowSequenceEnd]
  | .texts items => items.flatMap fun item => [.blockEntry, textToken item]

namespace Section

/-- The tokens of a member. -/
def memberTokens (key : String) (entry : Entry) : List Token :=
  .key :: .scalar key true :: .value :: entry.tokens

/-- The tokens of a section. -/
def tokens (s : Section) : List Token :=
  [.blockMapping, .key, .scalar s.name true, .value, .blockMapping] ++
    (s.members.flatMap fun (key, entry) => memberTokens key entry) ++
      [.blockEnd, .blockEnd, .streamEnd]

/-- The line of an item. -/
def writeItem (item : String) : List Char :=
  ' ' :: ' ' :: '-' :: ' ' :: (Style.spell margin item.toList ++ ['\n'])

/-- What stands behind the colon of a member, from a column on. -/
def behind (column : Nat) : Entry → List Char
  | .int n => ' ' :: ((toString n).toList ++ ['\n'])
  | .real x => ' ' :: (Layout.yaml.write x ++ ['\n'])
  | .text s => ' ' :: (Style.spell column s.toList ++ ['\n'])
  | .texts [] => [' ', '[', ']', '\n']
  | .texts items => '\n' :: items.flatMap writeItem

/-- The lines of a member begin with its name. -/
theorem writeMember_eq (key : String) (entry : Entry) :
    writeMember key entry =
      ' ' :: ' ' :: (key.toList ++ ':' :: behind (key.toList.length + 4) entry) := by
  have hitem : (fun item : String => line ['-'] fun column => Style.spell column item.toList) =
      writeItem := by
    funext item
    simp [line, writeItem, margin]
  cases entry with
  | texts items =>
      cases items with
      | nil => simp [writeMember, behind, line]
      | cons item items => simp only [writeMember, behind, hitem]; simp
  | _ => simp [writeMember, behind, line]

/-! ## Cutting -/

section

variable {tokens : List Token} {allowed : Bool} {lines : List Char} {spot : Spot}

/-- The indentation of members, with that of the section around them. -/
abbrev inner : List Int :=
  [0, -1]

/-- A word behind a blank, at the end of a line. -/
theorem arrivesAt_word {text : String} {word : List Char} (heq : text.toList = word)
    (hstanding : Standing word) (hblank : ' ' ∉ word) (hcolumn : 2 ≤ spot.column)
    (hlines : Follows lines 2) :
    ArrivesAt (block 2 inner tokens allowed none (' ' :: (word ++ '\n' :: lines)) spot) 2 inner
      (tokens ++ [.scalar text true]) lines := by
  subst heq
  rw [← hstanding.foldRuns_eq hblank 0]
  exact arrivesAt_standing hstanding 0 (by decide) (by omega) hlines

/-- The state inside of a flow sequence. -/
def flow (tokens : List Token) (rest : List Char) (spot : Spot) : Cutter :=
  { block 2 inner tokens true none rest spot with outerCandidates := [none] }

/-- A flow sequence begins behind a blank. -/
theorem reaches_flow {rest : List Char} (hcolumn : 2 ≤ spot.column) :
    Reaches (block 2 inner tokens false none (' ' :: '[' :: rest) spot)
      (flow (tokens ++ [.flowSequence]) rest ((spot.next ' ').next '[')) := by
  have hfirst : Begins ('[' :: rest) := by
    rintro _ ⟨⟩
    decide
  have hnext : (2 : Int) ≤ (spot.next ' ').column := by
    rw [column_next (by decide)]
    omega
  refine (arrives_blank hfirst 2 inner tokens false spot).reaches ?_ rfl (by simp [block, flow])
  rw [unwind_column hnext]
  simp only [cut, block]
  rfl

/-- A flow sequence is closed at once. -/
theorem flow_reaches {rest : List Char} :
    Reaches (flow tokens (']' :: rest) spot)
      (block 2 inner (tokens ++ [.flowSequenceEnd]) false none rest (spot.next ']')) := by
  have hsettled : (flow tokens (']' :: rest) spot).settled = .ok (flow tokens (']' :: rest) spot) :=
    rfl
  have hgap : (flow tokens (']' :: rest) spot).afterGap = flow tokens (']' :: rest) spot := by
    have hmark : ']' ≠ orderMark := by decide
    simp [afterGap, flow, block, hmark, inFlow, scanGap, isBreak, goOn]
  have harrives := arrives_of_settled hsettled (by rw [hgap, hsettled]) le_rfl
  refine harrives.reaches ?_ rfl (by simp [block, flow])
  have hunwind : (flow tokens (']' :: rest) spot).unwind (flow tokens (']' :: rest) spot).column =
      flow tokens (']' :: rest) spot := rfl
  rw [hunwind]
  simp only [cut, flow, block]
  rfl

/-- An empty list at the end of a line. -/
theorem arrivesAt_empty (hcolumn : 2 ≤ spot.column) (hlines : Follows lines 2) :
    ArrivesAt (block 2 inner tokens false none (' ' :: '[' :: ']' :: '\n' :: lines) spot) 2
      inner (tokens ++ [.flowSequence, .flowSequenceEnd]) lines := by
  have hreaches : Reaches
      (block 2 inner tokens false none (' ' :: '[' :: ']' :: '\n' :: lines) spot)
      (block 2 inner (tokens ++ [.flowSequence] ++ [.flowSequenceEnd]) false none ('\n' :: lines)
        (((spot.next ' ').next '[').next ']')) := (reaches_flow hcolumn).trans flow_reaches
  rw [List.append_assoc] at hreaches
  exact hreaches.arrivesAt (arrivesAt_break hlines.begins (by simp))

/-- A hyphen before an item. -/
theorem atBlockEntry_block {rest : List Char} (hcolumn : spot.column = 2) :
    (block 2 inner tokens true none ('-' :: rest) spot).atBlockEntry =
      .ok (block 2 inner (tokens ++ [.blockEntry]) true none rest (spot.next '-')) := by
  have hopen : (block 2 inner tokens true none ('-' :: rest) spot).openHere .blockSequence =
      block 2 inner tokens true none ('-' :: rest) spot := by
    simp [openHere, openAt, block, column, hcolumn]
  rw [atBlockEntry]
  simp only [block] at hopen ⊢
  simp only [inFlow, List.isEmpty_nil, Bool.not_true, Bool.not_false, Bool.true_and,
    Bool.false_eq_true, if_false, hopen]
  rfl

/-- Lines two columns in. -/
theorem exists_spot {c : Cutter} {indent : Int} {outer : List Int} {rest : List Char}
    (h : ArrivesAt c indent outer tokens (' ' :: ' ' :: rest)) (hrest : Begins rest) :
    ∃ s : Spot, s.column = 2 ∧ Arrives c (block indent outer tokens true none rest s) := by
  obtain ⟨s, hs, harrives⟩ := h
  have hcontent : content (' ' :: ' ' :: rest) = rest ∧ indentOf (' ' :: ' ' :: rest) = 2 := by
    cases rest with
    | nil => exact ⟨rfl, rfl⟩
    | cons c others =>
        have hblank := (hrest c rfl).2.1
        simp [content, indentOf, hblank]
  rw [hcontent.1] at harrives
  rw [hcontent.2] at hs
  exact ⟨s, hs, harrives⟩

/-- An item. -/
theorem arrivesAt_item {c : Cutter} (item : String)
    (h : ArrivesAt c 2 inner tokens (writeItem item ++ lines)) (hlines : Follows lines 2) :
    ArrivesAt c 2 inner (tokens ++ [.blockEntry, textToken item]) lines := by
  have htext : writeItem item ++ lines =
      ' ' :: ' ' :: '-' :: ' ' :: (Style.spell margin item.toList ++ '\n' :: lines) := by
    simp [writeItem]
  rw [htext] at h
  obtain ⟨s, hs, harrives⟩ := exists_spot h (by rintro _ ⟨⟩; decide)
  have hcolumn : (2 : Int) ≤ s.column := by omega
  have hnext : (2 : Int) ≤ (s.next '-').column := by
    rw [column_next (by decide)]
    omega
  have hreaches := harrives.reaches
    (by rw [unwind_column hcolumn, cut_hyphen (by omega) rfl, atBlockEntry_block hs]) rfl
    (by simp [block])
  have htokens : tokens ++ [.blockEntry, textToken item] =
      tokens ++ [.blockEntry] ++ [textToken item] := by simp
  rw [htokens]
  exact hreaches.arrivesAt (arrivesAt_spelled item margin (by decide) hnext hlines)

/-- Lines of members and items have their place below a section. -/
theorem follows_cons {first : Char} {rest : List Char} (hvisible : ' ' ≤ first ∧ first ≤ '~')
    (hblank : first ≠ ' ') (hmark : first ≠ '#') : Follows (' ' :: ' ' :: first :: rest) 2 where
  begins := by
    have hcontent : content (' ' :: ' ' :: first :: rest) = first :: rest := by
      simp [content, hblank]
    rw [hcontent]
    rintro _ ⟨⟩
    exact ⟨hvisible, hblank, hmark⟩
  column := by simp [indentOf, hblank]
  marker := by simp [isMarker]

/-- So has the end. -/
theorem follows_nil : Follows [] 2 where
  begins := by simp [Begins, content]
  column := by decide
  marker := rfl

/-- Items, one after the other. -/
theorem arrivesAt_items {c : Cutter} (items : List String)
    (h : ArrivesAt c 2 inner tokens (items.flatMap writeItem ++ lines)) (hlines : Follows lines 2) :
    ArrivesAt c 2 inner (tokens ++ items.flatMap fun item => [.blockEntry, textToken item])
      lines := by
  induction items generalizing tokens with
  | nil => simpa using h
  | cons item rest ih =>
      have hrest : Follows (rest.flatMap writeItem ++ lines) 2 := by
        cases rest with
        | nil => exact hlines
        | cons next others => exact follows_cons (by decide) (by decide) (by decide)
      rw [List.flatMap_cons, List.append_assoc] at h
      have hread := ih (arrivesAt_item item h hrest)
      rwa [List.append_assoc] at hread

/-- What stands behind the colon of a member. -/
theorem arrivesAt_behind (width : Nat) (entry : Entry) (hcolumn : 2 ≤ spot.column)
    (hlines : Follows lines 2) :
    ArrivesAt (block 2 inner tokens false none (behind width entry ++ lines) spot) 2 inner
      (tokens ++ entry.tokens) lines := by
  have hcolumn' : (2 : Int) ≤ spot.column := by omega
  cases entry with
  | int n =>
      simp only [behind, List.cons_append, List.append_assoc, List.nil_append]
      exact arrivesAt_word rfl (standing_int n) (blank_not_mem_int n) hcolumn hlines
  | real x =>
      simp only [behind, List.cons_append, List.append_assoc, List.nil_append]
      exact arrivesAt_word String.toList_ofList (standing_write x) (blank_not_mem_write x) hcolumn
        hlines
  | text s =>
      simp only [behind, List.cons_append, List.append_assoc, List.nil_append]
      exact arrivesAt_spelled s width (by decide) hcolumn' hlines
  | texts items =>
      cases items with
      | nil => exact arrivesAt_empty hcolumn hlines
      | cons item rest =>
          have hbegins : Begins (content ((item :: rest).flatMap writeItem ++ lines)) :=
            (follows_cons (by decide) (by decide) (by decide) :
              Follows (' ' :: ' ' :: '-' :: _) 2).begins
          have hitems : ArrivesAt (block 2 inner tokens false none
              ('\n' :: ((item :: rest).flatMap writeItem ++ lines)) spot) 2 inner tokens
              ((item :: rest).flatMap writeItem ++ lines) := arrivesAt_break hbegins (by simp)
          exact arrivesAt_items (item :: rest) hitems hlines

/-! ## Members -/

/-- A key ends before what stands behind its colon. -/
theorem endsWord_behind (width : Nat) (entry : Entry) (lines : List Char) :
    endsWord (behind width entry ++ lines).head? = true := by
  cases entry with
  | texts items => cases items <;> rfl
  | _ => rfl

/-- The lines of members have their place below a section. -/
theorem follows_members {members : List (String × Entry)}
    (hkeys : ∀ member ∈ members, IsName member.1.toList) (hlines : Follows lines 2) :
    Follows ((members.flatMap fun (key, entry) => writeMember key entry) ++ lines) 2 := by
  cases members with
  | nil => exact hlines
  | cons member rest =>
      obtain ⟨key, entry⟩ := member
      have hkey := hkeys _ List.mem_cons_self
      obtain ⟨first, others, heq, -⟩ := hkey.first
      obtain ⟨hvisible, hblank, hmark, -⟩ := visible_of_isNameChar
        (hkey.chars first (heq ▸ List.mem_cons_self))
      simp only [List.flatMap_cons, writeMember_eq, List.cons_append]
      simp only at heq
      rw [heq]
      exact follows_cons hvisible hblank hmark

/-- A member; the first one opens the mapping. -/
theorem arrivesAt_member {c : Cutter} {indent : Int} {outer : List Int} {opening : List Token}
    {key : String} (hkey : IsName key.toList) (entry : Entry)
    (h : ArrivesAt c indent outer tokens (writeMember key entry ++ lines)) (hindent : indent ≤ 2)
    (hentered : entered 2 indent outer = (2, inner, opening)) (hlines : Follows lines 2) :
    ArrivesAt c 2 inner (tokens ++ opening ++ memberTokens key entry) lines := by
  obtain ⟨first, others, heq, hfirst⟩ := hkey.first
  obtain ⟨hvisible, hblank, hmark, -⟩ := visible_of_isNameChar
    (hkey.chars first (heq ▸ List.mem_cons_self))
  rw [writeMember_eq] at h
  simp only [List.cons_append, List.append_assoc] at h
  obtain ⟨s, hs, harrives⟩ := exists_spot h (by
    rw [heq]
    rintro _ ⟨⟩
    exact ⟨hvisible, hblank, hmark⟩)
  have hvisible : ∀ c ∈ key.toList, ' ' ≤ c ∧ c ≤ '~' := fun c hc =>
    (visible_of_isNameChar (hkey.chars c hc)).1
  have hcolumn : 2 ≤ ((s.past key.toList).next ':').column := by
    rw [column_next (by decide), column_past hvisible, hs]
    exact Nat.le_add_right_of_le (Nat.le_add_right _ _)
  have hentered' : entered s.column indent outer = (2, inner, opening) := by
    rw [hs]
    exact hentered
  have hreaches := harrives.key hkey (by omega) (endsWord_behind _ _ _) hentered'
  rw [String.ofList_toList] at hreaches
  have htokens : tokens ++ opening ++ memberTokens key entry =
      tokens ++ opening ++ [.key, .scalar key true, .value] ++ entry.tokens := by
    simp [memberTokens]
  rw [htokens]
  exact hreaches.arrivesAt (arrivesAt_behind _ entry hcolumn hlines)

/-- Members, one after the other, below the first one. -/
theorem arrivesAt_members {c : Cutter} {members : List (String × Entry)}
    (hkeys : ∀ member ∈ members, IsName member.1.toList)
    (h : ArrivesAt c 2 inner tokens
      ((members.flatMap fun (key, entry) => writeMember key entry) ++ lines))
    (hlines : Follows lines 2) :
    ArrivesAt c 2 inner (tokens ++ members.flatMap fun (key, entry) => memberTokens key entry)
      lines := by
  induction members generalizing tokens with
  | nil => simpa using h
  | cons member rest ih =>
      obtain ⟨key, entry⟩ := member
      rw [List.forall_mem_cons] at hkeys
      rw [List.flatMap_cons, List.append_assoc] at h
      have hmember := arrivesAt_member hkeys.1 entry h le_rfl rfl (follows_members hkeys.2 hlines)
      rw [List.append_nil] at hmember
      have hread := ih hkeys.2 hmember
      rwa [List.append_assoc] at hread

/-! ## Sections -/

/-- Sections that can be written: the names can stand plainly, and there are members, with
names of their own.  No number is too long. -/
structure WellFormed (s : Section) : Prop where
  name : IsName s.name.toList
  keys : ∀ member ∈ s.members, IsName member.1.toList
  distinct : (s.members.map Prod.fst).Nodup
  nonempty : s.members ≠ []
  numbers : ∀ member ∈ s.members, member.2.IsShort

/-- The last tokens close both mappings. -/
theorem ofCutter_of_arrivesAt {c : Cutter} (h : ArrivesAt c 2 inner tokens []) {n : Nat}
    (hn : c.rest.length + 2 ≤ n) (used : Nat) :
    TokenStream.ofCutter n used c = ⟨tokens ++ [.blockEnd, .blockEnd, .streamEnd], none⟩ := by
  obtain ⟨s, hs, harrives⟩ := h
  have hcolumn : s.column = 0 := hs
  have hunwind : (block 2 inner tokens true none (content []) s).unwind
      (block 2 inner tokens true none (content []) s).column =
        block 0 [-1] (tokens ++ [.blockEnd]) true none [] s := by
    simp [unwind, block, column, hcolumn, inFlow, closing, inner, content]
  have hcut : (block 0 [-1] (tokens ++ [.blockEnd]) true none [] s).cut =
      .ok { block (-1) [] (tokens ++ [.blockEnd, .blockEnd, .streamEnd]) false none [] s with
        finished := true } := by
    simp [cut, block, atEnd, unwind, inFlow, closing, forget, emit, bind, Except.bind, pure,
      Except.pure]
  exact harrives.ofCutter (by rw [hunwind, hcut]) rfl hn used

/-- The lines of a section are cut into its tokens. -/
theorem ofCutter_write {s : Section} (h : s.WellFormed) {n : Nat}
    (hn : s.write.toList.length + 2 ≤ n) (used : Nat) :
    TokenStream.ofCutter n used { rest := s.write.toList } = ⟨s.tokens, none⟩ := by
  obtain ⟨first, others, hfirst, hletter⟩ := h.name.first
  obtain ⟨⟨key, entry⟩, rest, hmembers⟩ := List.exists_cons_of_ne_nil h.nonempty
  have hkeys := h.keys
  rw [hmembers, List.forall_mem_cons] at hkeys
  have hbegins : Begins s.write.toList := by
    have hname := visible_of_isNameChar (h.name.chars first (hfirst ▸ List.mem_cons_self))
    rw [write, String.toList_ofList, hfirst]
    rintro _ ⟨⟩
    exact ⟨hname.1, hname.2.1, hname.2.2.1⟩
  have hstart : Arrives { rest := s.write.toList } (block (-1) [] [] true none s.write.toList {}) :=
    arrives_here hbegins (by simp)
  rw [write, String.toList_ofList] at hstart
  have hname := hstart.key h.name (by decide) rfl rfl
  rw [String.ofList_toList] at hname
  have hlines : Follows (rest.flatMap fun (key, entry) => writeMember key entry) 2 := by
    simpa using follows_members hkeys.2 follows_nil
  have hbegins :
      Begins (content (s.members.flatMap fun (key, entry) => writeMember key entry)) := by
    simpa using (follows_members h.keys follows_nil).begins
  have hfirst : ArrivesAt { rest := s.write.toList } 0 [-1]
      [.blockMapping, .key, .scalar s.name true, .value]
      (writeMember key entry ++ rest.flatMap fun (key, entry) => writeMember key entry) := by
    have htext : (s.members.flatMap fun (key, entry) => writeMember key entry) =
        writeMember key entry ++ rest.flatMap fun (key, entry) => writeMember key entry := by
      rw [hmembers, List.flatMap_cons]
    rw [← htext, write, String.toList_ofList]
    exact hname.arrivesAt (arrivesAt_break hbegins (by simp))
  have hmember := arrivesAt_member hkeys.1 entry hfirst (by decide) rfl hlines
  rw [← List.append_nil (rest.flatMap _)] at hmember
  have hall := ofCutter_of_arrivesAt (arrivesAt_members hkeys.2 hmember follows_nil) hn used
  rw [hall, tokens, hmembers, List.flatMap_cons]
  simp

end

/-! ## Characters -/

/-- The characters of written sections: visible ones and the usual break. -/
def IsWritten (c : Char) : Prop :=
  c = '\n' ∨ (' ' ≤ c ∧ c ≤ '~')

/-- Escapes are written with visible characters. -/
theorem isWritten_of_mem_escape {c d : Char} (h : d ∈ escape c) : IsWritten d := by
  have hletters : ∀ pair ∈ escapes, (escapes.find? fun other => other.2 == pair.2).all
      fun found => ' ' ≤ found.1 && found.1 ≤ '~' := by decide
  have hdigits (width : Nat) {d : Char} (h : d ∈ upperHex width c.toNat) : IsWritten d := by
    have hupper : ∀ n, n < 16 → ' ' ≤ (Hex.digit n).toUpper ∧ (Hex.digit n).toUpper ≤ '~' := by
      decide
    simp only [upperHex, Hex.padded, List.map_map, List.mem_map] at h
    obtain ⟨i, -, rfl⟩ := h
    exact Or.inr (hupper _ (Nat.mod_lt _ (by decide)))
  rw [escape] at h
  split at h
  · next letter found hfind =>
    have hall := hletters _ (List.mem_of_find?_eq_some hfind)
    obtain rfl : found = c := by simpa using List.find?_some hfind
    rw [hfind] at hall
    simp only [List.mem_cons, List.not_mem_nil, or_false] at h
    rcases h with rfl | rfl
    · exact Or.inr (by decide)
    · exact Or.inr (by simpa using hall)
  · have hbackslash {letter : Char} {width : Nat} (hletter : ' ' ≤ letter ∧ letter ≤ '~')
        (h : d ∈ '\\' :: letter :: upperHex width c.toNat) : IsWritten d := by
      simp only [List.mem_cons] at h
      rcases h with rfl | rfl | h
      · exact Or.inr (by decide)
      · exact Or.inr hletter
      · exact hdigits width h
    split at h
    · exact hbackslash (by decide) h
    · split at h
      · exact hbackslash (by decide) h
      · exact hbackslash (by decide) h

/-- So are escaped texts, apart from breaks. -/
theorem isWritten_of_mem_escapeFrom {first afterEscape : Bool} {column : Nat} {text : List Char}
    {d : Char} (h : d ∈ escapeFrom first afterEscape column text) : IsWritten d := by
  have hsplice {next : Option Char} (h : d ∈ splice next) : IsWritten d := by
    have hall : ∀ d ∈ splice (some ' '), d = '\n' ∨ (' ' ≤ d ∧ d ≤ '~') :=
      List.all_iff_forall_prop.mp (by decide)
    have hall' : ∀ d ∈ splice none, d = '\n' ∨ (' ' ≤ d ∧ d ≤ '~') :=
      List.all_iff_forall_prop.mp (by decide)
    by_cases hnext : next = some ' '
    · exact hall d (hnext ▸ h)
    · refine hall' d ?_
      rw [splice, if_neg hnext] at h
      exact h
  induction text generalizing first afterEscape column with
  | nil => cases h
  | cons c rest ih =>
      rw [escapeFrom] at h
      split at h
      · dsimp only at h
        split at h
        · simp only [List.mem_append] at h
          exact h.elim (fun h => h.elim isWritten_of_mem_escape hsplice) ih
        · exact (List.mem_append.mp h).elim isWritten_of_mem_escape ih
      · next hescaped =>
        have hc : IsWritten c := by
          simp only [isEscaped, Bool.or_eq_true, Bool.not_eq_true', not_or,
            Bool.not_eq_false] at hescaped
          exact Or.inr (by simpa using hescaped.2)
        split at h
        · simp only [List.mem_append, List.mem_cons] at h
          exact h.elim hsplice fun h => h.elim (fun h => h ▸ hc) ih
        · exact (List.mem_cons.mp h).elim (fun h => h ▸ hc) ih

/-- So is every spelling. -/
theorem isWritten_of_mem_spell {column : Nat} {text : List Char} {d : Char}
    (h : d ∈ Style.spell column text) : IsWritten d := by
  have hmark : IsWritten '\'' ∧ IsWritten '"' := ⟨Or.inr (by decide), Or.inr (by decide)⟩
  have hruns {runText : List Char} {width : Nat} (hvisible : ∀ c ∈ runText, isForeign c = false)
      (h : d ∈ foldRuns true width (runs runText)) : IsWritten d := by
    rcases mem_foldRuns h with h | rfl | rfl
    · rw [flatten_runs] at h
      have hd := hvisible d h
      by_cases hbreak : d = '\n'
      · exact Or.inl hbreak
      · exact Or.inr (by simpa [isForeign, hbreak] using hd)
    · exact Or.inr (by decide)
    · exact Or.inl rfl
  rw [Style.spell] at h
  rcases ofText_cases text with ⟨hstyle, hplain⟩ | hstyle | ⟨hstyle, hforeign, -⟩
  · rw [hstyle] at h
    refine hruns (fun c hc => ?_) h
    simp [isForeign, (standing_of_isPlain hplain).visible c hc]
  · rw [hstyle] at h
    simp only [List.cons_append, List.mem_cons, List.mem_append, List.not_mem_nil, or_false] at h
    rcases h with rfl | h | rfl
    · exact hmark.2
    · exact isWritten_of_mem_escapeFrom h
    · exact hmark.2
  · rw [hstyle] at h
    simp only [List.cons_append, List.mem_cons, List.mem_append, List.not_mem_nil, or_false] at h
    rcases h with rfl | h | rfl
    · exact hmark.1
    · exact hruns (fun c hc => hforeign c (mem_doubled.mp hc)) h
    · exact hmark.1

/-- So is a member. -/
theorem isWritten_of_mem_behind {width : Nat} {entry : Entry} {d : Char}
    (h : d ∈ behind width entry) : IsWritten d := by
  have hgap : IsWritten ' ' ∧ IsWritten '\n' := ⟨Or.inr (by decide), Or.inl rfl⟩
  have hline {text : List Char} (htext : ∀ c ∈ text, IsWritten c)
      (h : d ∈ ' ' :: (text ++ ['\n'])) : IsWritten d := by
    simp only [List.mem_cons, List.mem_append, List.not_mem_nil, or_false] at h
    rcases h with rfl | h | rfl
    · exact hgap.1
    · exact htext d h
    · exact hgap.2
  cases entry with
  | int n => exact hline (fun c hc => Or.inr ((standing_int n).visible c hc)) h
  | real x => exact hline (fun c hc => Or.inr ((standing_write x).visible c hc)) h
  | text s => exact hline (fun c hc => isWritten_of_mem_spell hc) h
  | texts items =>
      cases items with
      | nil =>
          have hall : ∀ d ∈ [' ', '[', ']', '\n'], d = '\n' ∨ (' ' ≤ d ∧ d ≤ '~') :=
            List.all_iff_forall_prop.mp (by decide)
          exact hall d h
      | cons item rest =>
          simp only [behind, List.mem_cons, List.mem_flatMap] at h
          rcases h with rfl | ⟨item, -, h⟩
          · exact hgap.2
          · have hhyphen : IsWritten '-' := Or.inr (by decide)
            simp only [writeItem, List.mem_cons] at h
            rcases h with rfl | rfl | rfl | h
            · exact hgap.1
            · exact hgap.1
            · exact hhyphen
            · exact hline (fun c hc => isWritten_of_mem_spell hc) (List.mem_cons.mpr h)

/-- So is a section. -/
theorem isWritten_of_mem_write {s : Section} (hs : s.WellFormed) {d : Char}
    (h : d ∈ s.write.toList) : IsWritten d := by
  have hname {name : String} (hname : IsName name.toList) (h : d ∈ name.toList) : IsWritten d :=
    Or.inr (visible_of_isNameChar (hname.chars d h)).1
  have hmarks : IsWritten ' ' ∧ IsWritten ':' ∧ IsWritten '\n' :=
    ⟨Or.inr (by decide), Or.inr (by decide), Or.inl rfl⟩
  rw [write, String.toList_ofList] at h
  simp only [List.mem_append, List.mem_cons, List.mem_flatMap] at h
  rcases h with h | rfl | rfl | ⟨⟨key, entry⟩, hmember, h⟩
  · exact hname hs.name h
  · exact hmarks.2.1
  · exact hmarks.2.2
  · rw [writeMember_eq] at h
    simp only [List.mem_cons, List.mem_append] at h
    rcases h with rfl | rfl | h | rfl | h
    · exact hmarks.1
    · exact hmarks.1
    · exact hname (hs.keys _ hmember) h
    · exact hmarks.2.1
    · exact isWritten_of_mem_behind h

/-- Texts may hold such characters. -/
theorem isAllowed_of_isWritten {c : Char} (h : IsWritten c) : TokenStream.isAllowed c = true := by
  rcases h with rfl | ⟨hlow, hhigh⟩
  · decide
  · rw [Char.le_def, UInt32.le_iff_toNat_le] at hlow hhigh
    have hlow' : 0x20 ≤ c.toNat := hlow
    have hhigh' : c.toNat ≤ 0x7E := hhigh
    simp [TokenStream.isAllowed, hlow', hhigh']

/-- A written section is cut into its tokens. -/
theorem ofText_write {s : Section} (h : s.WellFormed) :
    TokenStream.ofText s.write.toList = ⟨s.tokens, none⟩ := by
  have hallowed : (s.write.toList.find? fun c => !TokenStream.isAllowed c) = none := by
    rw [List.find?_eq_none]
    intro c hc
    simp [isAllowed_of_isWritten (isWritten_of_mem_write h hc)]
  rw [TokenStream.ofText, hallowed]
  exact ofCutter_write h le_rfl 0

end Section

end StakeLedger.Yaml
