import Mathlib.Tactic.Ring
import StakeLedger.Proofs.Yaml.Lines

/-!
# Reading between marks

What stands between two marks is read chunk by chunk: ordinary characters, doubled
marks, folds, escapes and spliced lines.  Each chunk stands for some characters
whatever follows it, so a spelling is read as the text that it was made from.

Main definitions:

- {lit}`Yaml.Quoted`: what is written between two marks for a text.
- {lit}`Yaml.Spliceable`: texts that are read from their escaped form.

Main results:

- Theorem {lit}`Yaml.quoted_foldRuns`: folded lines between single marks.
- Theorem {lit}`Yaml.quoted_escapeFrom`: escaped text between double marks.
-/

namespace StakeLedger.Yaml

open Style

/-! ## Chunks -/

/-- The mark on either side. -/
def mark (double : Bool) : Char :=
  if double then '"' else '\''

/-- Whether a character is neither a blank of any kind nor a break. -/
def isSolid (c : Char) : Bool :=
  !isTabOrBlank c && !isBreak c

/-- What is written between two marks for a text: whatever follows, it is read as the
text. -/
def Quoted (double : Bool) (spelled text : List Char) : Prop :=
  ∀ n, spelled.length < n → ∀ rest, rest.head? ≠ some '\'' → ∀ spot,
    quotedFrom double n (spelled ++ mark double :: rest) spot =
      .ok ⟨text, rest, spot.past (spelled ++ [mark double])⟩

/-- Characters before characters. -/
theorem before_before (xs ys : List Char) (next : Except Fault (Scanned (List Char))) :
    before xs (before ys next) = before (xs ++ ys) next := by
  cases next with
  | error fault => rfl
  | ok s => simp [before, Except.map, Scanned.map]

/-- Nothing is written for an empty text. -/
theorem Quoted.nil (double : Bool) : Quoted double [] [] := by
  intro n hn rest hrest spot
  obtain ⟨n, rfl⟩ := Nat.exists_eq_add_one.mpr hn
  cases double with
  | true => rfl
  | false =>
      cases rest with
      | nil => rfl
      | cons c rest =>
          have hc : c ≠ '\'' := by simpa using hrest
          simp [quotedFrom, mark, isTabOrBlank, isBreak, hc, Spot.past]

/-- One more chunk, which is read at once. -/
theorem Quoted.append {double : Bool} (chunk value : List Char) {spelled text : List Char}
    (hne : chunk ≠ []) (h : Quoted double spelled text)
    (hchunk : ∀ n rest spot,
      quotedFrom double (n + 1) (chunk ++ (spelled ++ mark double :: rest)) spot =
        before value (quotedFrom double n (spelled ++ mark double :: rest) (spot.past chunk))) :
    Quoted double (chunk ++ spelled) (value ++ text) := by
  intro n hn rest hrest spot
  have hpos := List.length_pos_iff.mpr hne
  rw [List.length_append] at hn
  obtain ⟨n, rfl⟩ := Nat.exists_eq_add_one.mpr (by omega : 0 < n)
  rw [List.append_assoc, hchunk, h n (by omega) rest hrest, List.append_assoc,
    Spot.past_append spot chunk]
  rfl

/-- An ordinary character. -/
theorem Quoted.cons {double : Bool} {c : Char} {spelled text : List Char}
    (hsolid : isSolid c = true) (hmark : c ≠ mark double) (hescape : double = true → c ≠ '\\')
    (h : Quoted double spelled text) : Quoted double (c :: spelled) (c :: text) := by
  refine Quoted.append [c] [c] (List.cons_ne_nil _ _) h fun n rest spot => ?_
  simp only [isSolid, Bool.and_eq_true, Bool.not_eq_true'] at hsolid
  cases double with
  | true => simp_all [quotedFrom, mark, Spot.past]
  | false => simp_all [quotedFrom, mark, Spot.past]

/-- A single mark that is written twice. -/
theorem Quoted.marks {spelled text : List Char} (h : Quoted false spelled text) :
    Quoted false ('\'' :: '\'' :: spelled) ('\'' :: text) :=
  Quoted.append ['\'', '\''] ['\''] (List.cons_ne_nil _ _) h
    fun _ _ _ => rfl

/-! ## Blanks and folds -/

/-- What blanks and breaks are folded into comes before what follows them. -/
theorem quotedFrom_of_scanFlowFold {c : Char} {text : List Char} {spot : Spot}
    {fold : Scanned (List Char)} (hc : isSolid c = false)
    (h : scanFlowFold (c :: text) spot = .ok fold) (double : Bool) (n : Nat) :
    quotedFrom double (n + 1) (c :: text) spot =
      before fold.value (quotedFrom double n fold.rest fold.spot) := by
  have hgap : (isTabOrBlank c || isBreak c) = true := by
    cases hblank : isTabOrBlank c <;> simp_all [isSolid]
  conv_lhs => unfold quotedFrom
  simp only [hgap, if_true, h]
  rfl

/-- Blanks of a line on which more follows. -/
theorem scanFlowFold_of_blanks {text rest : List Char} {c : Char}
    (h : text.dropWhile isTabOrBlank = c :: rest) (hbreak : isBreak c = false) (spot : Spot) :
    scanFlowFold text spot = .ok (scanWhile isTabOrBlank text spot) := by
  simp [scanFlowFold, scanWhile, h, hbreak]

/-- Blanks are read at once, and what follows them after that. -/
theorem quotedFrom_of_blanks {text rest : List Char} {b c : Char} (hblank : isTabOrBlank b = true)
    (h : text.dropWhile isTabOrBlank = c :: rest) (hbreak : isBreak c = false) (double : Bool)
    (n : Nat) (spot : Spot) :
    quotedFrom double (n + 1) (b :: text) spot =
      before (b :: text.takeWhile isTabOrBlank)
        (quotedFrom double n (c :: rest) (spot.past (b :: text.takeWhile isTabOrBlank))) := by
  have hdrop : (b :: text).dropWhile isTabOrBlank = c :: rest := by
    rw [List.dropWhile_cons_of_pos hblank, h]
  rw [quotedFrom_of_scanFlowFold (by simp [isSolid, hblank])
    (scanFlowFold_of_blanks hdrop hbreak spot)]
  simp only [scanWhile, hdrop, List.takeWhile_cons_of_pos hblank]

/-- Whether a line between marks goes on behind its blanks. -/
def StaysOn (double : Bool) (spelled : List Char) : Prop :=
  ∃ c rest, (spelled ++ [mark double]).dropWhile isTabOrBlank = c :: rest ∧ isBreak c = false

/-- A line goes on behind one more blank. -/
theorem StaysOn.blank {double : Bool} {spelled : List Char} (h : StaysOn double spelled) :
    StaysOn double (' ' :: spelled) :=
  h

/-- A line goes on where something solid stands, or the mark. -/
theorem staysOn_of_isSolid {double : Bool} {spelled : List Char}
    (h : ∀ c, spelled.head? = some c → isSolid c = true) : StaysOn double spelled := by
  have hstart {c : Char} {rest : List Char} (hc : isSolid c = true) :
      (c :: rest).dropWhile isTabOrBlank = c :: rest ∧ isBreak c = false := by
    simp only [isSolid, Bool.and_eq_true, Bool.not_eq_true'] at hc
    exact ⟨List.dropWhile_cons_of_neg (by simp [hc.1]), hc.2⟩
  cases spelled with
  | nil => exact ⟨mark double, [], hstart (by cases double <;> decide)⟩
  | cons c rest => exact ⟨c, rest ++ [mark double], hstart (h c rfl)⟩

/-- A blank on a line that goes on.  Blanks are read at once, so the blank is read together
with those behind it. -/
theorem Quoted.blank {double : Bool} {spelled text : List Char} (h : Quoted double spelled text)
    (hmore : StaysOn double spelled) : Quoted double (' ' :: spelled) (' ' :: text) := by
  obtain ⟨c, others, hdrop, hbreak⟩ := hmore
  intro n hn rest hrest spot
  obtain ⟨n, rfl⟩ := Nat.exists_eq_add_one.mpr (by omega : 0 < n)
  rw [List.length_cons, Nat.add_lt_add_iff_right] at hn
  have happend : spelled ++ mark double :: rest = (spelled ++ [mark double]) ++ rest := by simp
  have hdropAll : (spelled ++ mark double :: rest).dropWhile isTabOrBlank =
      c :: (others ++ rest) := by
    rw [happend, List.dropWhile_append, hdrop]
    rfl
  rw [List.cons_append, quotedFrom_of_blanks rfl hdropAll hbreak]
  cases htext : spelled ++ mark double :: rest with
  | nil => simp at htext
  | cons b tail =>
      rw [htext] at hdropAll
      cases hb : isTabOrBlank b with
      | false =>
          rw [List.takeWhile_cons_of_neg (by simp [hb])]
          rw [List.dropWhile_cons_of_neg (by simp [hb])] at hdropAll
          rw [← hdropAll, ← htext, h n hn rest hrest]
          rfl
      | true =>
          have hread := h (n + 1) (by omega) rest hrest (spot.next ' ')
          rw [List.dropWhile_cons_of_pos hb] at hdropAll
          rw [htext, quotedFrom_of_blanks hb hdropAll hbreak] at hread
          rw [List.takeWhile_cons_of_pos hb, ← List.singleton_append, ← before_before]
          exact congrArg (before [' ']) hread

/-- Blanks before what is solid are passed behind a break. -/
theorem scanFlowBreaks_blanks {rest : List Char} {c : Char} (hsolid : isSolid c = true) (m : Nat)
    (spot : Spot) :
    scanFlowBreaks false (List.replicate m ' ' ++ c :: rest) spot =
      .ok ⟨[], c :: rest, spot.past (List.replicate m ' ')⟩ := by
  simp only [isSolid, Bool.and_eq_true, Bool.not_eq_true'] at hsolid
  induction m generalizing spot with
  | zero => simp [scanFlowBreaks, hsolid.1, hsolid.2, Spot.past]
  | succ m ih =>
      rw [List.replicate_succ, List.cons_append, scanFlowBreaks]
      simp only [Bool.false_and, Bool.false_eq_true, if_false]
      exact ih _

/-- So are breaks before them, which are kept. -/
theorem scanFlowBreaks_breaks {rest : List Char} {c : Char} (hsolid : isSolid c = true) (k m : Nat)
    (spot : Spot) :
    scanFlowBreaks true (List.replicate k '\n' ++ (List.replicate (m + 1) ' ' ++ c :: rest)) spot =
      .ok ⟨List.replicate k '\n', c :: rest,
        spot.past (List.replicate k '\n' ++ List.replicate (m + 1) ' ')⟩ := by
  induction k generalizing spot with
  | zero =>
      rw [List.replicate_zero, List.nil_append, List.nil_append, List.replicate_succ,
        List.cons_append, scanFlowBreaks]
      exact scanFlowBreaks_blanks hsolid m _
  | succ k ih =>
      rw [List.replicate_succ, List.cons_append, scanFlowBreaks]
      have hmarker : isMarker ('\n' :: (List.replicate k '\n' ++
          (List.replicate (m + 1) ' ' ++ c :: rest))) = false := by
        simp [isMarker]
      rw [hmarker]
      simp only [Bool.true_and, Bool.false_eq_true, if_false]
      rw [ih]
      rfl

/-- A break, or some of them, at which lines were folded. -/
theorem Quoted.fold {double : Bool} {spelled text : List Char} (h : Quoted double spelled text)
    (hsolid : ∀ c, spelled.head? = some c → isSolid c = true) (k : Nat) :
    Quoted double ('\n' :: List.replicate k '\n' ++ List.replicate margin ' ' ++ spelled)
      ((if k = 0 then [' '] else List.replicate k '\n') ++ text) := by
  refine Quoted.append _ _ (by simp) h fun n rest spot => ?_
  obtain ⟨c, tail, htext, hc⟩ : ∃ c tail, spelled ++ mark double :: rest = c :: tail ∧
      isSolid c = true := by
    cases spelled with
    | nil => exact ⟨_, _, rfl, by cases double <;> decide⟩
    | cons c others => exact ⟨_, _, rfl, hsolid c rfl⟩
  rw [htext]
  have hfold : scanFlowFold
      ('\n' :: (List.replicate k '\n' ++ (List.replicate margin ' ' ++ c :: tail))) spot =
        .ok ⟨if k = 0 then [' '] else List.replicate k '\n', c :: tail,
          spot.past ('\n' :: List.replicate k '\n' ++ List.replicate margin ' ')⟩ := by
    have hbreak : isTabOrBlank '\n' = false ∧ isBreak '\n' = true := by decide
    rw [scanFlowFold, scanWhile, List.takeWhile_cons_of_neg (by simp [hbreak]),
      List.dropWhile_cons_of_neg (by simp [hbreak])]
    simp only [hbreak.2, if_true, margin]
    rw [scanFlowBreaks_breaks hc]
    cases k with
    | zero => rfl
    | succ k => simp [Except.map, Scanned.map, breakText, List.replicate_succ, Spot.past]
  rw [List.append_assoc, List.cons_append, quotedFrom_of_scanFlowFold rfl hfold]

/-! ## Single marks -/

/-- A character of a word that needs no escape is solid. -/
theorem isSolid_of_inWord {c : Char} (hword : inWord c = true) (hforeign : isForeign c = false) :
    isSolid c = true := by
  rw [inWord_iff] at hword
  simp only [isSolid, isTabOrBlank, isBreak, Bool.and_eq_true, Bool.not_eq_true',
    Bool.or_eq_false_iff, beq_eq_false_iff_ne]
  refine ⟨⟨hword.1, ?_⟩, ⟨⟨hword.2, ?_⟩, ?_⟩, ?_⟩ <;> rintro rfl <;>
    exact absurd hforeign (by decide)

/-- A word between single marks, its own marks written twice. -/
theorem Quoted.word {run spelled text : List Char} (hword : ∀ c ∈ run, inWord c = true)
    (hforeign : ∀ c ∈ run, isForeign c = false) (h : Quoted false spelled text) :
    Quoted false (doubled run ++ spelled) (run ++ text) := by
  induction run with
  | nil => exact h
  | cons c rest ih =>
      rw [List.forall_mem_cons] at hword hforeign
      have hrest := ih hword.2 hforeign.2
      rw [doubled_cons]
      split
      · next hmark =>
        rw [hmark]
        exact hrest.marks
      · next hmark =>
        exact hrest.cons (isSolid_of_inWord hword.1 hforeign.1) hmark (by simp)

/-- Folded lines between single marks are read as the words and separators they are made
from. -/
theorem quoted_of_folded {word : Bool} {rs : List (List Char)} {spelled : List Char}
    (h : Folded doubled word rs spelled) (hforeign : ∀ c ∈ rs.flatten, isForeign c = false) :
    Quoted false spelled rs.flatten ∧
      (word = true → ∀ c, spelled.head? = some c → isSolid c = true) := by
  induction h with
  | nil word => exact ⟨.nil false, by simp⟩
  | @word run text rest hrun hrest ih =>
      simp only [List.flatten_cons, List.forall_mem_append] at hforeign
      obtain ⟨c, tail, heq, hc⟩ := hrun.exists_head
      cases hrun with
      | word hne h =>
        refine ⟨(ih hforeign.2).1.word h hforeign.1, fun _ d hd => ?_⟩
        have hhead := head?_doubled run
        obtain rfl : c = d := by
          rw [heq] at hhead hd
          cases hdoubled : doubled (c :: tail) with
          | nil =>
              rw [hdoubled] at hhead
              cases hhead
          | cons first others =>
              rw [hdoubled] at hhead hd
              cases hhead
              cases hd
              rfl
        exact isSolid_of_inWord hc (hforeign.1 c (heq ▸ List.mem_cons_self))
  | @blanks k text rest hrest ih =>
      simp only [List.flatten_cons, List.forall_mem_append] at hforeign
      obtain ⟨hread, hsolid⟩ := ih hforeign.2
      refine ⟨?_, by simp⟩
      have hmore (n : Nat) : StaysOn false (List.replicate n ' ' ++ text) ∧
          Quoted false (List.replicate n ' ' ++ text) (List.replicate n ' ' ++ rest.flatten) := by
        induction n with
        | zero => exact ⟨staysOn_of_isSolid (hsolid rfl), hread⟩
        | succ n ih => exact ⟨ih.1.blank, ih.2.blank ih.1⟩
      exact (hmore (k + 1)).2
  | fold hne hrest ih =>
      simp only [List.flatten_cons, List.forall_mem_append] at hforeign
      obtain ⟨hread, hsolid⟩ := ih hforeign.2
      exact ⟨hread.fold (hsolid rfl) 0, by simp⟩
  | breaks k hrest ih =>
      simp only [List.flatten_cons, List.forall_mem_append] at hforeign
      obtain ⟨hread, hsolid⟩ := ih hforeign.2
      exact ⟨hread.fold (hsolid rfl) (k + 1), by simp⟩

/-- A text whose breaks have no blanks beside them is read from its folded lines. -/
theorem quoted_foldRuns {text : List Char} (hforeign : ∀ c ∈ text, isForeign c = false)
    (hblank : hasBlankAtBreak text = false) (column : Nat) :
    Quoted false (foldRuns true column (runs (doubled text))) text := by
  obtain ⟨word, hwoven⟩ := woven_runs hblank
  have hread := quoted_of_folded (folded_foldRuns spelling_doubled hwoven true column)
  rw [flatten_runs] at hread
  rw [runs_doubled]
  exact (hread hforeign).1

/-! ## Escapes -/

/-- Digits of either case have their value. -/
theorem value?_toUpper : ∀ d, d < 16 → Hex.value? (Hex.digit d).toUpper = some d := by
  decide

/-- The digits of a number, one by one. -/
theorem mapM_upperHex (width n : Nat) :
    (upperHex width n).mapM Hex.value? =
      some ((List.range width).reverse.map fun i => n >>> (4 * i) % 16) := by
  rw [upperHex, Hex.padded, List.map_map]
  induction (List.range width).reverse with
  | nil => rfl
  | cons i rest ih =>
      rw [List.map_cons, List.mapM_cons, ih]
      simp only [Function.comp, value?_toUpper _ (Nat.mod_lt _ (by decide : 0 < 16)),
        Option.bind_eq_bind, Option.bind_some]
      rfl

/-- They make up what the number has in so many digits. -/
theorem foldl_digits (width n m : Nat) :
    (((List.range width).reverse.map fun i => n >>> (4 * i) % 16).foldl
      (fun n d => 16 * n + d) m) = m * 16 ^ width + n % 16 ^ width := by
  induction width generalizing m with
  | zero => simp [Nat.mod_one]
  | succ width ih =>
      have hpower : 2 ^ (4 * width) = 16 ^ width := pow_mul 2 4 width
      rw [List.range_succ, List.reverse_append, List.reverse_singleton, List.singleton_append,
        List.map_cons, List.foldl_cons, ih, Nat.mod_pow_succ, Nat.shiftRight_eq_div_pow, hpower]
      ring

/-- A character is read from the digits of its number. -/
theorem scanNumbered_upperHex {width : Nat} {c : Char} (h : c.toNat < 16 ^ width)
    (rest : List Char) (spot : Spot) :
    scanNumbered width (upperHex width c.toNat ++ rest) spot =
      .ok ⟨[c], rest, spot.past (upperHex width c.toNat)⟩ := by
  have hlength : (upperHex width c.toNat).length = width := by simp [upperHex, Hex.padded]
  have hcharacter : characterOf c.toNat = .ok c := by
    have hvalid : c.toNat < 0xD800 ∨ 0xDFFF < c.toNat ∧ c.toNat < 0x110000 := c.valid
    rw [characterOf, if_neg (by omega), if_neg (by omega), Char.ofNat_toNat]
  rw [scanNumbered, List.take_left' hlength, List.drop_left' hlength, mapM_upperHex]
  simp only [List.length_map, List.length_reverse, List.length_range, if_true, foldl_digits,
    Nat.mod_eq_of_lt h, Nat.zero_mul, Nat.zero_add, hcharacter]
  rfl

/-- What an escape is, behind its backslash. -/
theorem exists_escape (c : Char) : ∃ tail, escape c = '\\' :: tail ∧
    ∀ rest spot, scanEscape (tail ++ rest) spot = .ok ⟨[c], rest, spot.past tail⟩ := by
  have hletters : ∀ pair ∈ escapes, escapes.lookup pair.1 = some pair.2 := by decide
  rw [escape]
  split
  · next letter d hfind =>
    have hlookup := hletters _ (List.mem_of_find?_eq_some hfind)
    obtain rfl : d = c := by simpa using List.find?_some hfind
    refine ⟨[letter], rfl, fun rest spot => ?_⟩
    simp only [List.cons_append, List.nil_append, scanEscape, hlookup]
    rfl
  · have hnumbered {letter : Char} {width : Nat} (hlookup : escapes.lookup letter = none)
        (hwidth : escapeWidth? letter = some width) (hlt : c.toNat < 16 ^ width)
        (rest : List Char) (spot : Spot) :
        scanEscape (letter :: upperHex width c.toNat ++ rest) spot =
          .ok ⟨[c], rest, spot.past (letter :: upperHex width c.toNat)⟩ := by
      rw [List.cons_append, scanEscape]
      simp only [hlookup, hwidth]
      exact scanNumbered_upperHex hlt rest _
    split
    · next hlt => exact ⟨_, rfl, hnumbered (by decide) rfl hlt⟩
    · split
      · next hlt => exact ⟨_, rfl, hnumbered (by decide) rfl hlt⟩
      · have hvalid : c.toNat < 0xD800 ∨ 0xDFFF < c.toNat ∧ c.toNat < 0x110000 := c.valid
        exact ⟨_, rfl, hnumbered (by decide) rfl (by omega)⟩

/-- An escape between double marks. -/
theorem Quoted.escape {spelled text : List Char} (h : Quoted true spelled text) (c : Char) :
    Quoted true (Style.escape c ++ spelled) (c :: text) := by
  obtain ⟨tail, heq, hscan⟩ := exists_escape c
  rw [heq]
  refine Quoted.append _ [c] (List.cons_ne_nil _ _) h fun n rest spot => ?_
  rw [List.cons_append]
  conv_lhs => unfold quotedFrom
  have hbackslash : (isTabOrBlank '\\' || isBreak '\\') = false := by decide
  simp only [hbackslash, hscan, if_true, Bool.false_eq_true, if_false]
  rfl

/-- A line that is spliced between double marks. -/
theorem Quoted.splice {spelled text : List Char} (h : Quoted true spelled text)
    (hsolid : ∀ c, spelled.head? = some c → isSolid c = true) :
    Quoted true ('\\' :: newLine ++ spelled) text := by
  refine Quoted.append _ [] (List.cons_ne_nil _ _) h fun n rest spot => ?_
  obtain ⟨c, tail, htext, hc⟩ : ∃ c tail, spelled ++ mark true :: rest = c :: tail ∧
      isSolid c = true := by
    cases spelled with
    | nil => exact ⟨_, _, rfl, by decide⟩
    | cons c others => exact ⟨_, _, rfl, hsolid c rfl⟩
  have hscan : scanEscape (newLine ++ c :: tail) (spot.next '\\') =
      .ok ⟨[], c :: tail, (spot.next '\\').past newLine⟩ := by
    have hbreak : escapes.lookup '\n' = none ∧ escapeWidth? '\n' = none ∧ isBreak '\n' = true := by
      decide
    rw [newLine, List.cons_append, scanEscape]
    simp only [hbreak, if_true]
    exact scanFlowBreaks_breaks hc 0 3 _
  rw [htext, List.cons_append]
  conv_lhs => unfold quotedFrom
  have hbackslash : (isTabOrBlank '\\' || isBreak '\\') = false := by decide
  simp only [hbackslash, hscan, if_true, Bool.false_eq_true, if_false]
  rfl

/-- A character that is not escaped is ordinary if it is no blank. -/
theorem isSolid_of_not_escaped {c : Char} (h : isEscaped c = false) (hblank : c ≠ ' ') :
    isSolid c = true ∧ c ≠ mark true ∧ c ≠ '\\' := by
  simp only [isEscaped, Bool.or_eq_false_iff, beq_eq_false_iff_ne] at h
  have hforeign : isForeign c = false := by simp [isForeign, h.2]
  have hbreak : c ≠ '\n' := by
    rintro rfl
    exact absurd h.2 (by decide)
  exact ⟨isSolid_of_inWord ((inWord_iff c).mpr ⟨hblank, hbreak⟩) hforeign, h.1⟩

/-- A character behind a spliced line: a blank is kept by a backslash. -/
theorem Quoted.spliced {c : Char} {spelled text : List Char} (hc : isEscaped c = false)
    (h : Quoted true spelled text) :
    Quoted true (Style.splice (some c) ++ c :: spelled) (c :: text) := by
  rw [Style.splice]
  by_cases hblank : c = ' '
  · subst hblank
    rw [if_pos rfl, List.append_assoc]
    have hescape : Style.escape ' ' = ['\\', ' '] := by decide
    have hblank := h.escape ' '
    rw [hescape] at hblank
    refine hblank.splice ?_
    rintro _ ⟨⟩
    decide
  · obtain ⟨hsolid, hmark, hbackslash⟩ := isSolid_of_not_escaped hc hblank
    rw [if_neg (by simpa using hblank), List.append_nil]
    refine (h.cons hsolid hmark fun _ => hbackslash).splice ?_
    rintro _ ⟨⟩
    exact hsolid

/-- What begins with an escape begins with a solid character. -/
theorem isSolid_backslash {spelled : List Char} :
    ∀ c, ('\\' :: spelled).head? = some c → isSolid c = true := by
  rintro _ ⟨⟩
  decide

/-- Texts that are read from their escaped form, wherever it begins, also behind a spliced
line. -/
structure Spliceable (text : List Char) : Prop where
  quoted : ∀ first afterEscape column, Quoted true (escapeFrom first afterEscape column text) text
  staysOn : ∀ first afterEscape column, StaysOn true (escapeFrom first afterEscape column text)
  splice : Quoted true (splice text.head? ++ escapeFrom false true (spliceColumn text.head?) text)
    text

namespace Spliceable

variable {c : Char} {rest : List Char}

/-- Nothing stays as it is. -/
theorem nil : Spliceable [] where
  quoted _ _ _ := .nil true
  staysOn _ _ _ := staysOn_of_isSolid (by simp [escapeFrom])
  splice := (Quoted.nil true).splice (by simp)

/-- A character that is escaped. -/
theorem escaped (hc : isEscaped c = true) (h : Spliceable rest) : Spliceable (c :: rest) := by
  obtain ⟨tail, hescape, -⟩ := exists_escape c
  have hread (first afterEscape : Bool) (column : Nat) :
      Quoted true (escapeFrom first afterEscape column (c :: rest)) (c :: rest) ∧
        ∃ spelled, escapeFrom first afterEscape column (c :: rest) = '\\' :: spelled := by
    rw [escapeFrom]
    simp only [hc, if_true]
    split
    · rw [List.append_assoc]
      exact ⟨h.splice.escape c, _, by rw [hescape]; rfl⟩
    · exact ⟨(h.quoted _ _ _).escape c, _, by rw [hescape]; rfl⟩
  refine ⟨fun _ _ _ => (hread _ _ _).1, fun first afterEscape column => ?_, ?_⟩
  · obtain ⟨-, spelled, heq⟩ := hread first afterEscape column
    rw [heq]
    exact staysOn_of_isSolid isSolid_backslash
  · have hblank : c ≠ ' ' := by
      rintro rfl
      exact absurd hc (by decide)
    obtain ⟨hquoted, spelled, heq⟩ := hread false true (spliceColumn (some c))
    rw [List.head?_cons, Style.splice, if_neg (by simpa using hblank), List.append_nil]
    refine hquoted.splice ?_
    rw [heq]
    exact isSolid_backslash

/-- An ordinary character. -/
theorem ordinary (hc : isEscaped c = false) (h : Spliceable rest) : Spliceable (c :: rest) := by
  have hcons (column : Nat) : Quoted true (c :: escapeFrom false false column rest) (c :: rest) ∧
      StaysOn true (c :: escapeFrom false false column rest) := by
    have hquoted := h.quoted false false column
    by_cases hblank : c = ' '
    · have hstays := h.staysOn false false column
      subst hblank
      exact ⟨hquoted.blank hstays, hstays.blank⟩
    · obtain ⟨hsolid, hmark, hescape⟩ := isSolid_of_not_escaped hc hblank
      refine ⟨hquoted.cons hsolid hmark fun _ => hescape, staysOn_of_isSolid ?_⟩
      rintro _ ⟨⟩
      exact hsolid
  have hread (first afterEscape : Bool) (column : Nat) :
      Quoted true (escapeFrom first afterEscape column (c :: rest)) (c :: rest) ∧
        StaysOn true (escapeFrom first afterEscape column (c :: rest)) := by
    rw [escapeFrom]
    simp only [hc, Bool.false_eq_true, if_false]
    split
    · exact ⟨(h.quoted _ _ _).spliced hc, staysOn_of_isSolid isSolid_backslash⟩
    · exact hcons _
  refine ⟨fun _ _ _ => (hread _ _ _).1, fun _ _ _ => (hread _ _ _).2, ?_⟩
  have hcolumn : ¬width < spliceColumn (some c) := by
    rw [spliceColumn]
    split <;> decide
  rw [List.head?_cons, escapeFrom]
  simp only [hc, Bool.false_eq_true, if_false, hcolumn, decide_false, Bool.and_false]
  exact (h.quoted _ _ _).spliced hc

end Spliceable

/-- Every text is read from its escaped form. -/
theorem spliceable (text : List Char) : Spliceable text := by
  induction text with
  | nil => exact .nil
  | cons c rest ih =>
      cases hc : isEscaped c with
      | true => exact ih.escaped hc
      | false => exact ih.ordinary hc

/-- Escaped text between double marks is read as the text. -/
theorem quoted_escapeFrom (first afterEscape : Bool) (column : Nat) (text : List Char) :
    Quoted true (escapeFrom first afterEscape column text) text :=
  (spliceable text).quoted first afterEscape column

end StakeLedger.Yaml
