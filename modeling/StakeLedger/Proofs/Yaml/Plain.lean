import StakeLedger.Proofs.Yaml.Lines
import StakeLedger.Yaml.Scalar.Plain

/-!
# Reading plain scalars

A text that begins and ends like a word and holds nothing that would end it early is
read from its folded lines as a whole, whatever follows it on lines that are indented
less.

Main definitions:

- {lit}`Yaml.Standing`: texts that can stand plainly.
- {lit}`Yaml.plainAfter`: what a plain scalar has behind a run.

Main results:

- Theorem {lit}`Yaml.scanPlain_foldRuns`: reading a text that stands plainly.
-/

namespace StakeLedger.Yaml

open Style

/-! ## Texts that stand plainly -/

/-- Texts that can stand plainly, whatever kind of value they show. -/
structure Standing (text : List Char) : Prop where
  nonempty : text ≠ []
  visible : ∀ c ∈ text, ' ' ≤ c ∧ c ≤ '~'
  begins : beginsOtherwise text = false
  goesOn : endsEarly text = false
  first : text.head? ≠ some ' '
  last : text.getLast? ≠ some ' '

/-- A text that is spelled plainly can stand so. -/
theorem standing_of_isPlain {text : List Char} (h : isPlain text = true) : Standing text := by
  simp only [isPlain, Bool.and_eq_true, beq_iff_eq, Bool.not_eq_true', decide_eq_true_eq] at h
  obtain ⟨⟨⟨⟨⟨⟨hkind, hforeign⟩, hbreak⟩, hfirst⟩, hlast⟩, hbegins⟩, hearly⟩ := h
  refine ⟨?_, ?_, hbegins, hearly, hfirst, hlast⟩
  · rintro rfl
    exact absurd hkind (by decide)
  · intro c hc
    rw [List.any_eq_false] at hforeign
    have hne : c ≠ '\n' := by
      rintro rfl
      rw [List.contains_eq_mem, decide_eq_false_iff_not] at hbreak
      exact hbreak hc
    simpa [isForeign, hne] using hforeign c hc

/-- A word without colons and marks of comments can stand plainly if it does not begin like
something else. -/
theorem standing_of_word {text : List Char} (hne : text ≠ [])
    (h : ∀ c ∈ text, (' ' ≤ c ∧ c ≤ '~') ∧ c ≠ ' ' ∧ c ≠ '#' ∧ c ≠ ':')
    (hbegins : beginsOtherwise text = false) : Standing text where
  nonempty := hne
  visible c hc := (h c hc).1
  begins := hbegins
  goesOn := by
    clear hne hbegins
    induction text with
    | nil => rfl
    | cons a rest ih =>
        rw [List.forall_mem_cons] at h
        cases rest with
        | nil => rfl
        | cons b others =>
            obtain ⟨-, -, hmark, hcolon⟩ := h.2 b List.mem_cons_self
            simp [endsEarly, hmark, hcolon, ih h.2]
  first hfirst := (h ' ' (List.mem_of_mem_head? hfirst)).2.1 rfl
  last hlast := (h ' ' (List.mem_of_getLast? hlast)).2.1 rfl

/-- A text without breaks has no blanks beside them. -/
theorem hasBlankAtBreak_eq_false {text : List Char} (h : '\n' ∉ text) :
    hasBlankAtBreak text = false := by
  induction text with
  | nil => rfl
  | cons a rest ih =>
      rw [List.mem_cons, not_or] at h
      cases rest with
      | nil => rfl
      | cons b others =>
          have hb : b ≠ '\n' := fun hb => h.2 (hb ▸ List.mem_cons_self)
          simp [hasBlankAtBreak, Ne.symm h.1, hb, ih h.2]

/-- A single word stands on its line as it is. -/
theorem Standing.foldRuns_eq {text : List Char} (h : Standing text) (hblank : ' ' ∉ text)
    (column : Nat) : foldRuns true column (runs text) = text := by
  refine foldRuns_word h.nonempty (fun c hc => ?_) true column
  rw [inWord_iff]
  refine ⟨fun heq => hblank (heq ▸ hc), ?_⟩
  rintro rfl
  exact absurd (h.visible _ hc) (by decide)

/-- What ends a text early does so behind a blank, too. -/
theorem Standing.endsEarly_blank {text : List Char} (h : Standing text) :
    endsEarly (' ' :: text) = false := by
  obtain ⟨c, rest, rfl⟩ := List.exists_cons_of_ne_nil h.nonempty
  have hbegins := h.begins
  simp only [beginsOtherwise, Bool.or_eq_false_iff] at hbegins
  have hmark : c ≠ '#' := by
    rintro rfl
    exact absurd hbegins.2.1 (by decide)
  have hcolon : (c == ':' && endsWord rest.head?) = false := by
    rw [Bool.and_eq_false_iff]
    by_cases hc : c = ':'
    · subst hc
      simpa using hbegins.2.2
    · simp [hc]
  simp [endsEarly, hmark, hcolon, h.goesOn]

/-- What does not end a text early does not end its last part early. -/
theorem endsEarly_append (xs : List Char) {ys : List Char} (h : endsEarly (xs ++ ys) = false) :
    endsEarly ys = false := by
  induction xs with
  | nil => exact h
  | cons a rest ih =>
      refine ih ?_
      rw [List.cons_append] at h
      cases hrest : rest ++ ys with
      | nil => rfl
      | cons b others =>
          rw [hrest, endsEarly, Bool.or_eq_false_iff] at h
          exact h.2

/-- Visible characters are no breaks. -/
theorem isBreak_eq_false {c : Char} (h : ' ' ≤ c ∧ c ≤ '~') : isBreak c = false := by
  have hne {d : Char} (hd : ¬(' ' ≤ d ∧ d ≤ '~')) : c ≠ d := by
    rintro rfl
    exact hd h
  simp [isBreak, hne (d := '\n') (by decide), hne (d := '\u0085') (by decide),
    hne (d := '\u2028') (by decide), hne (d := '\u2029') (by decide)]

/-- Visible characters other than the blank do not end a word. -/
theorem endsWord_eq_false {c : Char} (h : ' ' ≤ c ∧ c ≤ '~') (hblank : c ≠ ' ') :
    endsWord (some c) = false := by
  have htab : c ≠ '\t' := by
    rintro rfl
    exact absurd h.1 (by decide)
  simp [endsWord, endsField, endsLine, htab, hblank, isBreak_eq_false h]

/-! ## Words -/

/-- Outside of flow collections only what ends words and a colon before it end a run. -/
theorem endsPlain_false (c : Char) (next : Option Char) :
    endsPlain false c next = (endsWord (some c) || (c == ':' && endsWord next)) := by
  simp [endsPlain]

/-- A word goes on up to where it ends. -/
theorem plainRun_word {a : Char} {word more tail : List Char}
    (hword : ∀ c ∈ word, endsWord (some c) = false)
    (hearly : endsEarly (a :: (word ++ more)) = false) (hmore : endsWord more.head? = true)
    (htail : endsWord tail.head? = true) : plainRun false (word ++ tail) = word := by
  induction word generalizing a with
  | nil =>
      cases tail with
      | nil => rfl
      | cons c rest =>
          rw [List.head?_cons] at htail
          simp [plainRun, endsPlain, htail]
  | cons c rest ih =>
      rw [List.forall_mem_cons] at hword
      rw [List.cons_append, endsEarly, Bool.or_eq_false_iff, Bool.or_eq_false_iff] at hearly
      have hnext : (c == ':' && endsWord (rest ++ tail).head?) = false := by
        cases rest with
        | nil => simpa [hmore, htail] using hearly.1.2
        | cons d others => exact hearly.1.2
      rw [List.cons_append, plainRun, endsPlain_false, hword.1, hnext, Bool.or_self,
        if_neg Bool.false_ne_true, ih hword.2 hearly.2]

/-! ## Runs and what lies between them -/

/-- What a plain scalar has behind a run. -/
def plainAfter (indent : Int) (n : Nat) (text : List Char) (spot : Spot) : Scanned Plain :=
  let fold := scanBetween text spot
  if goesOn false indent fold && !(plainRun false fold.rest).isEmpty then
    (plainFrom false indent n fold.rest fold.spot).map fun more =>
      ⟨fold.value.chars ++ more.chars, more.crossed⟩
  else fold.map fun f => ⟨[], f.crossed⟩

/-- A plain scalar is a run and what it has behind it. -/
theorem plainFrom_succ {run : List Char} (hne : run ≠ []) {text : List Char}
    (hrun : plainRun false (run ++ text) = run) (indent : Int) (n : Nat) (spot : Spot) :
    plainFrom false indent (n + 1) (run ++ text) spot =
      (plainAfter indent n text (spot.past run)).map fun more =>
        ⟨run ++ more.chars, more.crossed⟩ := by
  simp only [plainFrom, hrun, List.isEmpty_iff, hne, if_false, List.drop_left, plainAfter]
  split <;> simp [Scanned.map]

/-- The scalar ends with a text whose lines end before what follows them. -/
def endsBefore (text tail : List Char) (spot : Spot) : Scanned Plain :=
  (scanBetween tail spot).map fun fold => ⟨text, fold.crossed⟩

/-- A text stands before what follows a fold. -/
theorem plainAfter_of_scanBetween {indent : Int} {n : Nat} {sep value text spelled tail : List Char}
    {crossed : Bool} {spot : Spot}
    (hfold : scanBetween (sep ++ spelled) spot = ⟨⟨value, crossed⟩, spelled, spot.past sep⟩)
    (hvalue : value ≠ []) (hrun : (plainRun false spelled).isEmpty = false)
    (hmark : spelled.head? ≠ some '#') (hcolumn : indent ≤ (spot.past sep).column)
    {after : Spot}
    (hrest : plainFrom false indent n spelled (spot.past sep) = endsBefore text tail after) :
    plainAfter indent n (sep ++ spelled) spot = endsBefore (value ++ text) tail after := by
  have hgoesOn : goesOn false indent ⟨⟨value, crossed⟩, spelled, spot.past sep⟩ = true := by
    simp [goesOn, hvalue, hmark, hcolumn]
  rw [plainAfter, hfold]
  simp only [hgoesOn, hrun, Bool.not_false, Bool.and_self, if_true, hrest]
  rfl

/-! ## Blanks and breaks -/

/-- A visible character takes a column. -/
theorem column_next {c : Char} (h : ' ' ≤ c ∧ c ≤ '~') (spot : Spot) :
    (spot.next c).column = spot.column + 1 := by
  have hmark : c ≠ orderMark := by
    rintro rfl
    exact absurd h.2 (by decide)
  simp [Spot.next, isBreak_eq_false h, hmark]

/-- Visible characters take a column each. -/
theorem column_past {text : List Char} (h : ∀ c ∈ text, ' ' ≤ c ∧ c ≤ '~') (spot : Spot) :
    (spot.past text).column = spot.column + text.length := by
  induction text generalizing spot with
  | nil => rfl
  | cons c rest ih =>
      rw [List.forall_mem_cons] at h
      rw [Spot.past, List.foldl_cons, ← Spot.past, ih h.2, column_next h.1, List.length_cons]
      omega

/-- Blanks take a column each. -/
theorem column_blanks (k : Nat) (spot : Spot) :
    (spot.past (List.replicate k ' ')).column = spot.column + k := by
  rw [column_past, List.length_replicate]
  intro c hc
  rw [List.eq_of_mem_replicate hc]
  decide

/-- Blanks before what is neither a blank nor a break. -/
theorem span_blanks {rest : List Char} (h : ∀ c, rest.head? = some c → c ≠ ' ') (k : Nat) :
    (List.replicate k ' ' ++ rest).takeWhile (· == ' ') = List.replicate k ' ' ∧
      (List.replicate k ' ' ++ rest).dropWhile (· == ' ') = rest := by
  have hall : ∀ c ∈ List.replicate k ' ', (c == ' ') = true := fun c hc => by
    rw [List.eq_of_mem_replicate hc]
    decide
  rw [List.takeWhile_append_of_pos hall, List.dropWhile_append_of_pos hall]
  cases rest with
  | nil => simp
  | cons c others => simp [h c rfl]

/-- Blanks between two words of a line. -/
theorem scanBetween_blanks {c : Char} (hblank : c ≠ ' ') (hbreak : isBreak c = false) (k : Nat)
    (rest : List Char) (spot : Spot) :
    scanBetween (List.replicate k ' ' ++ c :: rest) spot =
      ⟨⟨List.replicate k ' ', false⟩, c :: rest, spot.past (List.replicate k ' ')⟩ := by
  have hhead : ∀ d, (c :: rest).head? = some d → d ≠ ' ' := by
    rintro _ ⟨⟩
    exact hblank
  obtain ⟨htake, hdrop⟩ := span_blanks hhead k
  simp [scanBetween, scanWhile, htake, hdrop, hbreak]

/-- Blanks at the beginning of a line are passed. -/
theorem scanFold_blanks {rest : List Char}
    (h : ∀ c, rest.head? = some c → c ≠ ' ' ∧ isBreak c = false) (k : Nat) (spot : Spot) :
    scanFold (List.replicate k ' ' ++ rest) spot =
      ⟨some [], rest, spot.past (List.replicate k ' ')⟩ := by
  induction k generalizing spot with
  | zero =>
      cases rest with
      | nil => rfl
      | cons c others => simp [scanFold, h c rfl, Spot.past]
  | succ k ih =>
      rw [List.replicate_succ, List.cons_append, scanFold, if_pos rfl, ih]
      rfl

/-- A break and the blanks at the beginning of the next line. -/
theorem scanBetween_break {rest : List Char}
    (h : ∀ c, rest.head? = some c → c ≠ ' ' ∧ isBreak c = false) {k : Nat}
    (hmarker : isMarker (List.replicate k ' ' ++ rest) = false) (spot : Spot) :
    scanBetween ('\n' :: List.replicate k ' ' ++ rest) spot =
      ⟨⟨[' '], true⟩, rest, spot.past ('\n' :: List.replicate k ' ')⟩ := by
  have hspan : scanWhile (· == ' ') ('\n' :: (List.replicate k ' ' ++ rest)) spot =
      ⟨[], '\n' :: (List.replicate k ' ' ++ rest), spot⟩ := rfl
  have hbreak : isBreak '\n' = true := by decide
  rw [List.cons_append, scanBetween, hspan]
  simp only [hbreak, if_true, hmarker, Bool.false_eq_true, if_false, scanFold_blanks h]
  rfl

/-! ## Reading folded lines -/

/-- How folded lines are read where a scalar goes on: as a scalar if they begin with a word,
else as what it has behind a run. -/
def ReadsAs (indent : Int) (tail : List Char) : Bool → List Char → List Char → Prop
  | true, text, spelled =>
      (plainRun false (spelled ++ tail)).isEmpty = false ∧
      (∃ c rest, spelled ++ tail = c :: rest ∧ c ≠ '#' ∧ c ≠ ' ' ∧ isBreak c = false) ∧
      ∀ n, spelled.length ≤ n → ∀ spot : Spot, indent ≤ spot.column →
        plainFrom false indent n (spelled ++ tail) spot = endsBefore text tail (spot.past spelled)
  | false, text, spelled =>
      endsWord (spelled ++ tail).head? = true ∧ endsWord text.head? = true ∧
      ∀ n, spelled.length ≤ n → ∀ spot : Spot, indent ≤ spot.column →
        plainAfter indent n (spelled ++ tail) spot = endsBefore text tail (spot.past spelled)

section

variable {indent : Int} {tail text spelled : List Char}

/-- A word before what a scalar has behind it. -/
theorem ReadsAs.word (h : ReadsAs indent tail false text spelled) {run : List Char}
    (hrun : Piece true run) (hvisible : ∀ c ∈ run, ' ' ≤ c ∧ c ≤ '~')
    (hearly : endsEarly (' ' :: (run ++ text)) = false) :
    ReadsAs indent tail true (run ++ text) (run ++ spelled) := by
  obtain ⟨htail, htext, hrest⟩ := h
  obtain ⟨c, others, hcons, hc⟩ := hrun.exists_head
  cases hrun with
  | word hne hword =>
      have hends : ∀ c ∈ run, endsWord (some c) = false := fun c hc =>
        endsWord_eq_false (hvisible c hc) ((inWord_iff c).mp (hword c hc)).1
      have hread : plainRun false (run ++ (spelled ++ tail)) = run :=
        plainRun_word hends hearly htext htail
      rw [ReadsAs, List.append_assoc, hread]
      refine ⟨List.isEmpty_eq_false_iff.mpr hne, ?_, fun n hn spot hcolumn => ?_⟩
      · subst hcons
        have hmark : c ≠ '#' := by
          rintro rfl
          simp [endsEarly] at hearly
        exact ⟨c, _, rfl, hmark, ((inWord_iff c).mp hc).1,
          isBreak_eq_false (hvisible c List.mem_cons_self)⟩
      · have hpos := List.length_pos_iff.mpr hne
        rw [List.length_append] at hn
        obtain ⟨n, rfl⟩ := Nat.exists_eq_add_one.mpr (by omega : 0 < n)
        have hcolumn' : indent ≤ (spot.past run).column := by
          rw [column_past hvisible]
          omega
        rw [plainFrom_succ hne hread, hrest n (by omega) _ hcolumn', Spot.past_append]
        rfl

/-- Blanks before a word of the same line. -/
theorem ReadsAs.blanks (h : ReadsAs indent tail true text spelled) (k : Nat) :
    ReadsAs indent tail false (List.replicate (k + 1) ' ' ++ text)
      (List.replicate (k + 1) ' ' ++ spelled) := by
  obtain ⟨hrun, ⟨c, rest, hcons, hmark, hblank, hbreak⟩, hrest⟩ := h
  refine ⟨rfl, rfl, fun n hn spot hcolumn => ?_⟩
  rw [List.length_append] at hn
  have hcolumn' : indent ≤ (spot.past (List.replicate (k + 1) ' ')).column := by
    rw [column_blanks]
    omega
  have hfold := scanBetween_blanks hblank hbreak (k + 1) rest spot
  have hhead : (spelled ++ tail).head? ≠ some '#' := by simpa [hcons] using hmark
  rw [← hcons] at hfold
  rw [List.append_assoc, Spot.past_append]
  exact plainAfter_of_scanBetween hfold (by simp) hrun hhead hcolumn'
    (hrest n (by omega) _ hcolumn')

/-- A line that is folded before a word. -/
theorem ReadsAs.fold (hindent : indent ≤ margin) (h : ReadsAs indent tail true text spelled) :
    ReadsAs indent tail false (' ' :: text) (newLine ++ spelled) := by
  obtain ⟨hrun, ⟨c, rest, hcons, hmark, hblank, hbreak⟩, hrest⟩ := h
  refine ⟨rfl, rfl, fun n hn spot hcolumn => ?_⟩
  rw [List.length_append] at hn
  have hcolumn' : indent ≤ (spot.past newLine).column := hindent
  have hfirst : ∀ d, (c :: rest).head? = some d → d ≠ ' ' ∧ isBreak d = false := by
    rintro _ ⟨⟩
    exact ⟨hblank, hbreak⟩
  have hmarker : isMarker (List.replicate margin ' ' ++ c :: rest) = false := by
    simp [isMarker, margin]
  have hfold := scanBetween_break hfirst hmarker spot
  have hhead : (spelled ++ tail).head? ≠ some '#' := by simpa [hcons] using hmark
  rw [← hcons] at hfold
  rw [List.append_assoc, Spot.past_append]
  exact plainAfter_of_scanBetween hfold (List.cons_ne_nil _ _) hrun hhead hcolumn'
    (hrest n (by omega) _ hcolumn')

/-- A scalar is read from its folded lines.  The induction goes from a word to a separator
and back: a word begins behind a blank, and a separator has a word behind it. -/
theorem readsAs_of_folded (hindent : indent ≤ margin) (htail : endsWord tail.head? = true)
    (hstop : ∀ spot, goesOn false indent (scanBetween tail spot) = false) {word : Bool}
    {rs : List (List Char)} {spelled : List Char} (h : Folded id word rs spelled) {a : Char}
    (ha : word = true → a = ' ' ∧ rs ≠ []) (hvisible : ∀ c ∈ rs.flatten, ' ' ≤ c ∧ c ≤ '~')
    (hearly : endsEarly (a :: rs.flatten) = false) (hlast : rs.flatten.getLast? ≠ some ' ') :
    ReadsAs indent tail word rs.flatten spelled := by
  have hlastOf {xs ys : List Char} (h : (xs ++ ys).getLast? ≠ some ' ') :
      ys.getLast? ≠ some ' ' := by
    intro hys
    rw [List.getLast?_append, hys] at h
    exact h rfl
  induction h generalizing a with
  | nil word =>
      cases word with
      | true => exact absurd rfl (ha rfl).2
      | false =>
          refine ⟨htail, rfl, fun n _ spot _ => ?_⟩
          rw [List.nil_append, plainAfter, hstop]
          rfl
  | @word run text rest hrun hrest ih =>
      obtain rfl := (ha rfl).1
      simp only [List.flatten_cons, List.forall_mem_append] at hvisible hearly hlast ⊢
      obtain ⟨init, last, rfl⟩ : ∃ init last, run = init ++ [last] := by
        obtain ⟨c, others, rfl, -⟩ := hrun.exists_head
        exact ⟨_, _, (List.dropLast_concat_getLast (List.cons_ne_nil c others)).symm⟩
      have hearly' : endsEarly (last :: rest.flatten) = false :=
        endsEarly_append (' ' :: init) (by simpa using hearly)
      exact (ih (by simp) hvisible.2 hearly' (hlastOf hlast)).word hrun hvisible.1 hearly
  | @blanks k text rest hrest ih =>
      simp only [List.flatten_cons, List.forall_mem_append] at hvisible hearly hlast ⊢
      have hne : rest ≠ [] := by
        rintro rfl
        simp [List.getLast?_replicate] at hlast
      have hearly' : endsEarly (' ' :: rest.flatten) = false :=
        endsEarly_append (a :: List.replicate k ' ')
          (by simpa [List.replicate_succ'] using hearly)
      exact (ih (fun _ => ⟨rfl, hne⟩) hvisible.2 hearly' (hlastOf hlast)).blanks k
  | @fold text rest hne hrest ih =>
      simp only [List.flatten_cons, List.forall_mem_append] at hvisible hearly hlast ⊢
      exact (ih (fun _ => ⟨rfl, hne⟩) hvisible.2 (endsEarly_append [a] hearly)
        (hlastOf hlast)).fold hindent
  | breaks k hrest ih =>
      have hbreak := hvisible '\n' (by simp [List.replicate_succ])
      exact absurd hbreak (by decide)

/-- A text that stands plainly begins with a word, and so do its folded lines. -/
theorem Standing.folded (h : Standing text) (column : Nat) :
    runs text ≠ [] ∧ Folded id true (runs text) (foldRuns true column (runs text)) := by
  have hbreak : '\n' ∉ text := fun hmem => absurd (h.visible _ hmem) (by decide)
  obtain ⟨word, hwoven⟩ := woven_runs (hasBlankAtBreak_eq_false hbreak)
  have hflat := flatten_runs text
  have hne : runs text ≠ [] := by
    intro hnil
    rw [hnil] at hflat
    exact h.nonempty hflat.symm
  have hword : word = true := by
    obtain ⟨c, rest, heq, hc⟩ := hwoven.exists_head hne
    rw [hflat] at heq
    subst heq
    have hblank : c ≠ ' ' := fun hc => h.first (congrArg some hc)
    have hmem : c ≠ '\n' := fun hc => hbreak (hc ▸ List.mem_cons_self)
    rw [← hc, inWord_iff]
    exact ⟨hblank, hmem⟩
  have hfolded := folded_foldRuns spelling_id hwoven true column
  rw [List.map_id, hword] at hfolded
  exact ⟨hne, hfolded⟩

/-- Folded lines begin with the same character as their text, and it is followed by more of
a word in both or in neither. -/
theorem exists_first_of_folded {rs : List (List Char)} (h : Folded id true rs spelled)
    (hne : rs ≠ []) (htail : endsWord tail.head? = true) :
    ∃ c more more', rs.flatten = c :: more ∧ spelled ++ tail = c :: more' ∧
      endsWord more'.head? = endsWord more.head? := by
  cases h with
  | nil => exact absurd rfl hne
  | @word run text rest hrun hrest =>
      obtain ⟨c, others, rfl, -⟩ := hrun.exists_head
      refine ⟨c, others ++ rest.flatten, others ++ (text ++ tail), rfl, ?_, ?_⟩
      · simp
      · cases others with
        | cons d others => rfl
        | nil =>
            cases hrest with
            | nil => exact htail
            | blanks k hrest => rfl
            | fold hne hrest => rfl
            | breaks k hrest => rfl

/-- The first character of a text that stands plainly begins nothing else. -/
theorem Standing.exists_first (h : Standing text) (column : Nat)
    (htail : endsWord tail.head? = true) :
    ∃ c more, foldRuns true column (runs text) ++ tail = c :: more ∧ (' ' ≤ c ∧ c ≤ '~') ∧
      c ≠ ' ' ∧ c ∉ openers ∧ (c ∈ ['?', ':', '-'] → endsWord more.head? = false) := by
  obtain ⟨hne, hfolded⟩ := h.folded column
  obtain ⟨c, more, more', htext, heq, hmore⟩ := exists_first_of_folded hfolded hne htail
  rw [flatten_runs] at htext
  subst htext
  have hbegins := h.begins
  simp only [beginsOtherwise, Bool.or_eq_false_iff, List.contains_eq_mem,
    decide_eq_false_iff_not] at hbegins
  refine ⟨c, more', heq, h.visible c List.mem_cons_self, fun hc => h.first (congrArg some hc),
    hbegins.2.1, fun hc => ?_⟩
  have hindicator : (c == '?' || c == ':' || c == '-') = true := by simpa [or_assoc] using hc
  rw [hmore]
  simpa [hindicator] using hbegins.2.2

/-- A text that stands plainly is read from its folded lines. -/
theorem scanPlain_foldRuns (hindent : indent ≤ margin) (htail : endsWord tail.head? = true)
    (hstop : ∀ spot, goesOn false indent (scanBetween tail spot) = false) (h : Standing text)
    (column : Nat) {spot : Spot} (hcolumn : indent ≤ spot.column) :
    scanPlain false indent (foldRuns true column (runs text) ++ tail) spot =
      endsBefore text tail (spot.past (foldRuns true column (runs text))) := by
  obtain ⟨hne, hfolded⟩ := h.folded column
  have hflat := flatten_runs text
  have hread := readsAs_of_folded hindent htail hstop hfolded (fun _ => ⟨rfl, hne⟩)
    (by rw [hflat]; exact h.visible) (by rw [hflat]; exact h.endsEarly_blank)
    (by rw [hflat]; exact h.last)
  rw [hflat] at hread
  exact hread.2.2 _ (by simp) spot hcolumn

end

end StakeLedger.Yaml
