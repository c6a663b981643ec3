import Mathlib.Data.Bool.AllAny
import StakeLedger.Yaml.Style

/-!
# Texts on folded lines

A text whose breaks have no blanks beside them is words and separators in turn.  On
folded lines the words stand as they are spelled, a single blank between two words may
have become a new line, and breaks are written once more than they are.

Main definitions:

- {lit}`Yaml.Style.Piece`, {lit}`Yaml.Style.Woven`: words and separators in turn.
- {lit}`Yaml.Style.Spelling`: what the spelling of words must keep.
- {lit}`Yaml.Style.Folded`: words and separators on folded lines.

Main results:

- Theorem {lit}`Yaml.Style.woven_runs`: the runs of a text are words and separators.
- Theorem {lit}`Yaml.Style.folded_foldRuns`: lines of limited width are folded lines.
- Theorem {lit}`Yaml.Style.runs_doubled`: doubling marks goes run by run.
-/

namespace StakeLedger.Yaml.Style

/-! ## The choice of a style -/

/-- What is known of a text that is spelled in a style. -/
theorem ofText_cases (text : List Char) :
    (ofText text = .plain ∧ isPlain text = true) ∨ ofText text = .double ∨
      (ofText text = .single ∧ (∀ c ∈ text, isForeign c = false) ∧
        hasBlankAtBreak text = false) := by
  by_cases hplain : isPlain text = true
  · exact Or.inl ⟨if_pos hplain, hplain⟩
  · by_cases hdouble : (text.any isForeign || hasBlankAtBreak text) = true
    · exact Or.inr (Or.inl (by rw [ofText, if_neg hplain, if_pos hdouble]))
    · refine Or.inr (Or.inr ⟨by rw [ofText, if_neg hplain, if_neg hdouble], ?_⟩)
      simpa [List.any_eq_false, not_or] using hdouble

/-! ## Words and separators -/

/-- Whether a character belongs to a word: it is neither a blank nor a usual break. -/
def inWord (c : Char) : Bool :=
  c ≠ ' ' && c ≠ '\n'

/-- Characters of words are neither blanks nor usual breaks. -/
theorem inWord_iff (c : Char) : inWord c = true ↔ c ≠ ' ' ∧ c ≠ '\n' := by
  simp [inWord]

/-- Two characters of one run are both blanks, both breaks or both of a word. -/
theorem sameRun_iff (c d : Char) :
    sameRun c d = true ↔ (c = ' ' ↔ d = ' ') ∧ (c = '\n' ↔ d = '\n') := by
  rw [sameRun, Bool.and_eq_true, beq_iff_eq, beq_iff_eq, Bool.eq_iff_iff, beq_iff_eq, beq_iff_eq,
    Bool.eq_iff_iff, beq_iff_eq, beq_iff_eq]

/-- A word or what separates words. -/
inductive Piece : Bool → List Char → Prop where
  | word {run : List Char} (hne : run ≠ []) (h : ∀ c ∈ run, inWord c = true) : Piece true run
  | blanks (k : Nat) : Piece false (List.replicate (k + 1) ' ')
  | breaks (k : Nat) : Piece false (List.replicate (k + 1) '\n')

/-- Words and separators in turn; the first of them, if there is one, is a word or not. -/
inductive Woven : Bool → List (List Char) → Prop where
  | nil (word : Bool) : Woven word []
  | cons {word : Bool} {run : List Char} {rest : List (List Char)} (hrun : Piece word run)
      (hrest : Woven (!word) rest) : Woven word (run :: rest)

/-- The first character of a piece tells which of the two it is. -/
theorem Piece.exists_head {word : Bool} {run : List Char} (h : Piece word run) :
    ∃ c rest, run = c :: rest ∧ inWord c = word := by
  cases h with
  | word hne h =>
      obtain ⟨c, rest, rfl⟩ := List.exists_cons_of_ne_nil hne
      exact ⟨c, rest, rfl, h c List.mem_cons_self⟩
  | blanks k => exact ⟨' ', List.replicate k ' ', rfl, rfl⟩
  | breaks k => exact ⟨'\n', List.replicate k '\n', rfl, rfl⟩

/-- The first character of a text tells with which of the two it begins. -/
theorem Woven.exists_head {word : Bool} {rs : List (List Char)} (h : Woven word rs)
    (hne : rs ≠ []) : ∃ c rest, rs.flatten = c :: rest ∧ inWord c = word := by
  cases h with
  | nil => exact absurd rfl hne
  | cons hrun hrest =>
      obtain ⟨c, others, rfl, hc⟩ := hrun.exists_head
      exact ⟨c, _, rfl, hc⟩

/-- A single character is a piece. -/
theorem piece_singleton (c : Char) : Piece (inWord c) [c] := by
  by_cases hblank : c = ' '
  · subst hblank
    exact .blanks 0
  · by_cases hbreak : c = '\n'
    · subst hbreak
      exact .breaks 0
    · have hword : inWord c = true := by simp [inWord, hblank, hbreak]
      rw [hword]
      exact .word (List.cons_ne_nil _ _) (by simpa using hword)

/-- A character of the same run makes a piece longer. -/
theorem Piece.cons {word : Bool} {c d : Char} {rest : List Char} (h : Piece word (d :: rest))
    (hsame : sameRun c d = true) : Piece word (c :: d :: rest) := by
  rw [sameRun_iff] at hsame
  generalize hrun : d :: rest = run at h
  cases h with
  | word hne h =>
      subst hrun
      refine .word (List.cons_ne_nil _ _) ?_
      rw [List.forall_mem_cons]
      have hd := h d List.mem_cons_self
      rw [inWord_iff] at hd ⊢
      exact ⟨⟨fun hc => hd.1 (hsame.1.mp hc), fun hc => hd.2 (hsame.2.mp hc)⟩, h⟩
  | blanks k =>
      obtain rfl : c = ' ' := hsame.1.mpr (List.cons.inj hrun).1
      exact .blanks (k + 1)
  | breaks k =>
      obtain rfl : c = '\n' := hsame.2.mpr (List.cons.inj hrun).1
      exact .breaks (k + 1)

/-- Of two neighbours in different runs one belongs to a word, unless a blank stands beside a
break. -/
theorem inWord_eq_not {c d : Char} (hsame : sameRun c d = false)
    (hbeside : (c == ' ' && d == '\n') = false ∧ (c == '\n' && d == ' ') = false) :
    inWord d = !inWord c := by
  rw [← Bool.not_eq_true, sameRun_iff] at hsame
  simp only [Bool.and_eq_false_iff, beq_eq_false_iff_ne] at hbeside
  rw [Bool.eq_iff_iff, Bool.not_eq_true', ← Bool.not_eq_true, inWord_iff, inWord_iff]
  grind

/-- The runs of a text are words and separators in turn. -/
theorem woven_runs {text : List Char} (h : hasBlankAtBreak text = false) :
    ∃ word, Woven word (runs text) := by
  induction text with
  | nil => exact ⟨true, .nil true⟩
  | cons c rest ih =>
      have hbeside : hasBlankAtBreak rest = false ∧ ∀ d, rest.head? = some d →
          (c == ' ' && d == '\n') = false ∧ (c == '\n' && d == ' ') = false := by
        cases rest with
        | nil => exact ⟨rfl, by simp⟩
        | cons d others =>
            simp only [hasBlankAtBreak, Bool.or_eq_false_iff] at h
            refine ⟨h.2, ?_⟩
            rintro _ ⟨⟩
            exact h.1
      obtain ⟨word, hwoven⟩ := ih hbeside.1
      have hflat := flatten_runs rest
      generalize hruns : runs rest = rs at hwoven hflat
      cases hwoven with
      | nil =>
          refine ⟨inWord c, ?_⟩
          rw [runs, hruns]
          exact .cons (piece_singleton c) (.nil _)
      | @cons _ run others hrun hothers =>
          obtain ⟨d, tail, rfl, hd⟩ := hrun.exists_head
          rw [runs, hruns]
          by_cases hsame : sameRun c d = true
          · refine ⟨word, ?_⟩
            simp only [List.head?_cons, Option.map_some, Option.getD_some, hsame, if_true]
            exact .cons (hrun.cons hsame) hothers
          · rw [Bool.not_eq_true] at hsame
            have hnot := inWord_eq_not hsame (hbeside.2 d (by rw [← hflat]; rfl))
            refine ⟨inWord c, ?_⟩
            simp only [List.head?_cons, Option.map_some, Option.getD_some, hsame,
              Bool.false_eq_true, if_false]
            refine .cons (piece_singleton c) ?_
            rw [← hnot, hd]
            exact .cons hrun hothers

/-! ## Folded lines -/

/-- A spelling of words: a word becomes a word, and separators stay. -/
structure Spelling (spell : List Char → List Char) : Prop where
  word : ∀ {run}, Piece true run → Piece true (spell run)
  gap : ∀ {run}, Piece false run → spell run = run

/-- Words and separators on folded lines. -/
inductive Folded (spell : List Char → List Char) : Bool → List (List Char) → List Char → Prop where
  | nil (word : Bool) : Folded spell word [] []
  | word {run text : List Char} {rest : List (List Char)} (hrun : Piece true run)
      (hrest : Folded spell false rest text) : Folded spell true (run :: rest) (spell run ++ text)
  | blanks (k : Nat) {text : List Char} {rest : List (List Char)}
      (hrest : Folded spell true rest text) :
      Folded spell false (List.replicate (k + 1) ' ' :: rest) (List.replicate (k + 1) ' ' ++ text)
  | fold {text : List Char} {rest : List (List Char)} (hne : rest ≠ [])
      (hrest : Folded spell true rest text) : Folded spell false ([' '] :: rest) (newLine ++ text)
  | breaks (k : Nat) {text : List Char} {rest : List (List Char)}
      (hrest : Folded spell true rest text) :
      Folded spell false (List.replicate (k + 1) '\n' :: rest)
        ('\n' :: List.replicate (k + 1) '\n' ++ List.replicate margin ' ' ++ text)

/-- Lines of limited width are folded lines. -/
theorem folded_foldRuns {spell : List Char → List Char} (hspell : Spelling spell) {word : Bool}
    {rs : List (List Char)} (h : Woven word rs) (first : Bool) (column : Nat) :
    Folded spell word rs (foldRuns first column (rs.map spell)) := by
  induction h generalizing first column with
  | nil word => exact .nil word
  | @cons word run rest hrun hrest ih =>
      rw [List.map_cons, foldRuns]
      simp only [Bool.and_eq_true, decide_eq_true_eq]
      cases hrun with
      | word hne h =>
          obtain ⟨c, tail, heq, hc⟩ := (hspell.word (.word hne h)).exists_head
          rw [inWord_iff] at hc
          rw [if_neg (by simp [heq, hc.1]), if_neg (by simp [heq, hc.2])]
          exact .word (.word hne h) (ih false _)
      | blanks k =>
          rw [hspell.gap (.blanks k)]
          split
          · next hfold =>
            obtain ⟨⟨⟨hsingle, -⟩, hrest⟩, -⟩ := hfold
            rw [hsingle]
            exact .fold (by simpa using hrest) (ih false _)
          · rw [if_neg (by simp [List.replicate_succ])]
            exact .blanks k (ih false _)
      | breaks k =>
          rw [hspell.gap (.breaks k), if_neg (by simp [List.replicate_succ]),
            if_pos (by simp [List.replicate_succ])]
          exact .breaks k (ih false _)

/-- A word is a single run. -/
theorem runs_word {text : List Char} (hne : text ≠ []) (h : ∀ c ∈ text, inWord c = true) :
    runs text = [text] := by
  induction text with
  | nil => exact absurd rfl hne
  | cons c rest ih =>
      rw [List.forall_mem_cons] at h
      cases rest with
      | nil => rfl
      | cons d others =>
          have hsame : sameRun c d = true := by
            have hd := h.2 d List.mem_cons_self
            have hc := h.1
            rw [inWord_iff] at hc hd
            simp [sameRun_iff, hc, hd]
          rw [runs, ih (List.cons_ne_nil _ _) h.2]
          simp [hsame]

/-- A word stands on its line as it is. -/
theorem foldRuns_word {text : List Char} (hne : text ≠ []) (h : ∀ c ∈ text, inWord c = true)
    (first : Bool) (column : Nat) : foldRuns first column (runs text) = text := by
  obtain ⟨c, rest, rfl⟩ := List.exists_cons_of_ne_nil hne
  have hc := (inWord_iff c).mp (h c List.mem_cons_self)
  rw [runs_word hne h, foldRuns]
  simp [hc, foldRuns]

/-- Folded lines have the characters of their runs, blanks and breaks. -/
theorem mem_foldRuns {c : Char} {first : Bool} {column : Nat} {rs : List (List Char)}
    (h : c ∈ foldRuns first column rs) : c ∈ rs.flatten ∨ c = ' ' ∨ c = '\n' := by
  induction rs generalizing first column with
  | nil => cases h
  | cons run rest ih =>
      rw [List.flatten_cons, List.mem_append]
      rw [foldRuns] at h
      split at h
      · simp only [newLine, List.mem_append, List.mem_cons, List.mem_replicate] at h
        rcases h with (h | h) | h
        · exact Or.inr (Or.inr h)
        · exact Or.inr (Or.inl h.2)
        · exact (ih h).imp_left Or.inr
      · split at h
        · simp only [List.mem_append, List.mem_cons, List.mem_replicate] at h
          rcases h with ((h | h) | h) | h
          · exact Or.inr (Or.inr h)
          · exact Or.inl (Or.inl h)
          · exact Or.inr (Or.inl h.2)
          · exact (ih h).imp_left Or.inr
        · rw [List.mem_append] at h
          exact h.elim (fun h => Or.inl (Or.inl h)) fun h => (ih h).imp_left Or.inr

/-! ## Doubled marks -/

/-- The mark is spelled by two, and every other character by itself. -/
theorem doubled_cons (c : Char) (rest : List Char) :
    doubled (c :: rest) = (if c = '\'' then ['\'', '\''] else [c]) ++ doubled rest := by
  rw [doubled, List.flatMap_cons]
  rfl

/-- Doubling marks keeps the first character. -/
theorem head?_doubled (text : List Char) : (doubled text).head? = text.head? := by
  cases text with
  | nil => rfl
  | cons c rest =>
      rw [doubled_cons]
      split
      · next h =>
        rw [h]
        rfl
      · rfl

/-- Doubling marks keeps the characters. -/
theorem mem_doubled {text : List Char} {c : Char} : c ∈ doubled text ↔ c ∈ text := by
  induction text with
  | nil => rfl
  | cons d rest ih =>
      rw [doubled_cons, List.mem_append, ih, List.mem_cons]
      split
      · next h => simp [h]
      · simp

/-- Doubling marks goes run by run. -/
theorem runs_doubled (text : List Char) : runs (doubled text) = (runs text).map doubled := by
  induction text with
  | nil => rfl
  | cons c rest ih =>
      have hself (d : Char) : sameRun d d = true := by simp [sameRun]
      rw [doubled_cons]
      split
      · next hmark =>
        rw [List.cons_append, List.cons_append, List.nil_append, runs, runs, ih, runs, hmark]
        cases runs rest with
        | nil => rfl
        | cons run others =>
            simp only [List.map_cons, head?_doubled]
            cases (run.head?.map (sameRun '\'')).getD true <;>
              simp [doubled, hself]
      · next hmark =>
        rw [List.cons_append, List.nil_append, runs, ih, runs]
        cases runs rest with
        | nil => simp [hmark, doubled]
        | cons run others =>
            simp only [List.map_cons, head?_doubled]
            split <;> simp [hmark, doubled]

/-- A text without marks is the same when they are doubled. -/
theorem doubled_eq_self {text : List Char} (h : '\'' ∉ text) : doubled text = text := by
  induction text with
  | nil => rfl
  | cons c rest ih =>
      rw [List.mem_cons, not_or] at h
      rw [doubled_cons, if_neg (Ne.symm h.1), ih h.2]
      rfl

/-- Doubling marks spells words. -/
theorem spelling_doubled : Spelling doubled where
  word := by
    rintro run ⟨hne, h⟩
    refine .word ?_ fun c hc => h c (mem_doubled.mp hc)
    obtain ⟨c, rest, rfl⟩ := List.exists_cons_of_ne_nil hne
    intro hnil
    have hhead := head?_doubled (c :: rest)
    rw [hnil] at hhead
    cases hhead
  gap := by
    intro run h
    cases h with
    | blanks k => exact doubled_eq_self (by simp)
    | breaks k => exact doubled_eq_self (by simp)

/-- Words can be spelled as they are. -/
theorem spelling_id : Spelling id :=
  ⟨id, fun _ => rfl⟩

end StakeLedger.Yaml.Style
