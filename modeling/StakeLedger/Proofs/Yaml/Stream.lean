import Mathlib
import StakeLedger.Proofs.Yaml.Plain
import StakeLedger.Proofs.Yaml.Quoted
import StakeLedger.Yaml.Token.Stream

/-!
# Cutting block collections

Cutting goes on from state to state.  Between two tokens stands a gap, behind which the
state is a plain one: no candidate is open and a key may begin.

Main definitions:

- {lit}`Yaml.Cutter.advance`: one token.
- {lit}`Yaml.Cutter.Reaches`: cutting goes on from one state to another.
- {lit}`Yaml.Cutter.Arrives`: it goes on to the gap before a state.
- {lit}`Yaml.Cutter.block`: a state outside of flow collections.
- {lit}`Yaml.Cutter.ArrivesAt`: it goes on to the gap before some lines.

Main results:

- Theorem {lit}`Yaml.Cutter.Arrives.key`: a name before a colon becomes a key.
- Theorem {lit}`Yaml.Cutter.arrivesAt_spelled`: a text at the end of a line becomes its
  scalar, however it is spelled.
-/

namespace StakeLedger.Yaml

/-! ## Spots -/

/-- Visible characters stay on their line. -/
theorem line_past {text : List Char} (h : ∀ c ∈ text, ' ' ≤ c ∧ c ≤ '~') (spot : Spot) :
    (spot.past text).line = spot.line := by
  induction text generalizing spot with
  | nil => rfl
  | cons c rest ih =>
      rw [List.forall_mem_cons] at h
      rw [Spot.past, List.foldl_cons, ← Spot.past, ih h.2, Spot.next, isBreak_eq_false h.1,
        if_neg Bool.false_ne_true]
      split <;> rfl

/-- No character leads back to an earlier line. -/
theorem le_line_past (text : List Char) (spot : Spot) : spot.line ≤ (spot.past text).line := by
  induction text generalizing spot with
  | nil => exact le_rfl
  | cons c rest ih =>
      refine le_trans ?_ (ih (spot.next c))
      rw [Spot.next]
      split
      · exact Nat.le_succ _
      · split <;> exact le_rfl

/-- Each character takes an index. -/
theorem index_past (text : List Char) (spot : Spot) :
    (spot.past text).index = spot.index + text.length := by
  induction text generalizing spot with
  | nil => rfl
  | cons c rest ih =>
      have hnext : (spot.next c).index = spot.index + 1 := by
        rw [Spot.next]
        split
        · rfl
        · split <;> rfl
      rw [Spot.past, List.foldl_cons, ← Spot.past, ih, hnext, List.length_cons]
      omega

namespace Cutter

open Style TokenStream

/-! ## From state to state -/

/-- One token: the open candidates are settled, and the next token is cut. -/
def advance (c : Cutter) : Except Fault Cutter := do
  (← c.settled).step

/-- Cutting goes on from one state to another: what comes of the first is what comes of the
second, and there is room enough for the text that is left. -/
def Reaches (c d : Cutter) : Prop :=
  ∀ n used, c.rest.length + 2 ≤ n → ∃ n' used', d.rest.length + 2 ≤ n' ∧
    ofCutter n used c = ofCutter n' used' d

/-- Cutting stays where it is. -/
theorem Reaches.refl (c : Cutter) : Reaches c c :=
  fun n used hn => ⟨n, used, hn, rfl⟩

/-- Cutting goes on further. -/
theorem Reaches.trans {c d e : Cutter} (hcd : Reaches c d) (hde : Reaches d e) : Reaches c e := by
  intro n used hn
  obtain ⟨n', used', hn', heq⟩ := hcd n used hn
  obtain ⟨n'', used'', hn'', heq'⟩ := hde n' used' hn'
  exact ⟨n'', used'', hn'', heq.trans heq'⟩

/-- The stream of a state that has a next one. -/
theorem ofCutter_succ {c d : Cutter} (h : c.advance = .ok d) (n used : Nat) :
    ∃ used', ofCutter (n + 1) used c =
      if d.finished then ⟨d.tokens, none⟩ else ofCutter n used' d := by
  rw [advance] at h
  cases hsettled : c.settled with
  | error fault =>
      rw [hsettled] at h
      cases h
  | ok settled =>
      rw [hsettled] at h
      replace h : settled.step = .ok d := h
      exact ⟨settled.usable, by rw [ofCutter, hsettled]; simp only [h]⟩

/-- One token further, if it takes some of the text. -/
theorem Reaches.of_advance {c d : Cutter} (h : c.advance = .ok d) (hfinished : d.finished = false)
    (hlength : d.rest.length < c.rest.length) : Reaches c d := by
  intro n used hn
  obtain ⟨n, rfl⟩ := Nat.exists_eq_add_one.mpr (by omega : 0 < n)
  obtain ⟨used', heq⟩ := ofCutter_succ h n used
  rw [hfinished, if_neg Bool.false_ne_true] at heq
  exact ⟨n, used', by omega, heq⟩

/-- Cutting goes on to the gap before a state. -/
def Arrives (c d : Cutter) : Prop :=
  ∃ c', Reaches c c' ∧ d.rest.length ≤ c'.rest.length ∧
    c'.advance = (d.unwind d.column).cut

/-- Behind the gap stands a token. -/
theorem Arrives.reaches {c d e : Cutter} (h : Arrives c d)
    (hcut : (d.unwind d.column).cut = .ok e) (hfinished : e.finished = false)
    (hlength : e.rest.length < d.rest.length) : Reaches c e := by
  obtain ⟨c', hreaches, hle, hadvance⟩ := h
  exact hreaches.trans (.of_advance (hadvance.trans hcut) hfinished (by omega))

/-- The gap is arrived at from before. -/
theorem Reaches.arrives {c d e : Cutter} (h : Reaches c d) (harrives : Arrives d e) :
    Arrives c e := by
  obtain ⟨d', hreaches, hle, hadvance⟩ := harrives
  exact ⟨d', h.trans hreaches, hle, hadvance⟩

/-- The last token ends the stream. -/
theorem Arrives.ofCutter {c d e : Cutter} (h : Arrives c d)
    (hcut : (d.unwind d.column).cut = .ok e) (hfinished : e.finished = true) {n : Nat}
    (hn : c.rest.length + 2 ≤ n) (used : Nat) :
    TokenStream.ofCutter n used c = ⟨e.tokens, none⟩ := by
  obtain ⟨c', hreaches, -, hadvance⟩ := h
  obtain ⟨n', used', hn', heq⟩ := hreaches n used hn
  obtain ⟨n', rfl⟩ := Nat.exists_eq_add_one.mpr (by omega : 0 < n')
  obtain ⟨used'', heq'⟩ := ofCutter_succ (hadvance.trans hcut) n' used'
  rw [heq, heq', hfinished, if_pos rfl]

/-! ## States outside of flow collections -/

/-- A state outside of flow collections. -/
def block (indent : Int) (outer : List Int) (tokens : List Token) (allowed : Bool)
    (candidate : Option Candidate) (rest : List Char) (spot : Spot) : Cutter where
  rest := rest
  spot := spot
  tokens := tokens
  indent := indent
  outerIndents := outer
  keyAllowed := allowed
  candidate := candidate

section

variable {indent : Int} {outer : List Int} {tokens : List Token} {allowed : Bool}
  {candidate : Option Candidate} {rest : List Char} {spot : Spot}

/-- A candidate that is not given up stays. -/
theorem settled_of_fresh (h : ∀ k, candidate = some k →
    (block indent outer tokens allowed candidate rest spot).isStale k = false) :
    (block indent outer tokens allowed candidate rest spot).settled =
      .ok (block indent outer tokens allowed candidate rest spot) := by
  cases candidate with
  | none => rfl
  | some k =>
      have hk := h k rfl
      simp only [settled, settle, block] at hk ⊢
      simp only [hk]
      rfl

/-- A candidate that need not be a key can be given up. -/
theorem settled_of_stale (h : ∀ k, candidate = some k → k.required = false ∧
    (block indent outer tokens allowed candidate rest spot).isStale k = true) :
    (block indent outer tokens allowed candidate rest spot).settled =
      .ok (block indent outer tokens allowed none rest spot) := by
  cases candidate with
  | none => rfl
  | some k =>
      obtain ⟨hrequired, hstale⟩ := h k rfl
      simp only [settled, settle, block] at hstale ⊢
      simp only [hstale, hrequired]
      rfl

/-- A candidate that need not be a key stays or is given up. -/
theorem settled_of_optional (h : ∀ k, candidate = some k → k.required = false) :
    ∃ candidate', (∀ k, candidate' = some k → candidate = some k) ∧
      (block indent outer tokens allowed candidate rest spot).settled =
        .ok (block indent outer tokens allowed candidate' rest spot) := by
  by_cases hstale : ∀ k, candidate = some k →
      (block indent outer tokens allowed candidate rest spot).isStale k = true
  · exact ⟨none, by simp, settled_of_stale fun k hk => ⟨h k hk, hstale k hk⟩⟩
  · refine ⟨candidate, fun k hk => hk, settled_of_fresh fun k hk => ?_⟩
    cases hk' : (block indent outer tokens allowed candidate rest spot).isStale k with
    | false => rfl
    | true =>
        refine absurd (fun k' hk'' => ?_) hstale
        rw [hk] at hk''
        cases hk''
        exact hk'

/-! ## Gaps -/

/-- Whether a text is at its end or begins with a visible character that begins no comment. -/
def Begins (rest : List Char) : Prop :=
  ∀ c, rest.head? = some c → (' ' ≤ c ∧ c ≤ '~') ∧ c ≠ ' ' ∧ c ≠ '#'

/-- Blanks are a gap. -/
theorem scanGap_blanks (hrest : Begins rest) (k : Nat) (spot : Spot) (allowed : Bool) :
    scanGap false false (List.replicate k ' ' ++ rest) spot allowed =
      ⟨allowed, rest, spot.past (List.replicate k ' ')⟩ := by
  induction k generalizing spot with
  | zero =>
      cases rest with
      | nil => rfl
      | cons c others =>
          obtain ⟨hvisible, hblank, hmark⟩ := hrest c rfl
          simp [scanGap, hblank, hmark, isBreak_eq_false hvisible, Spot.past]
  | succ k ih =>
      have hblank : isBreak ' ' = false := by decide
      rw [List.replicate_succ, List.cons_append, scanGap]
      simp only [hblank, Bool.false_eq_true, if_false, Bool.false_or, decide_eq_true_eq]
      exact ih _

/-- So are a break and the blanks behind it, where a key may begin. -/
theorem scanGap_break (hrest : Begins rest) (k : Nat) (spot : Spot) (allowed : Bool) :
    scanGap false false ('\n' :: List.replicate k ' ' ++ rest) spot allowed =
      ⟨true, rest, spot.past ('\n' :: List.replicate k ' ')⟩ := by
  have hbreak : isBreak '\n' = true := by decide
  rw [List.cons_append, scanGap]
  simp only [hbreak, if_true, Bool.not_false, Bool.or_true]
  exact scanGap_blanks hrest k _ true

/-- The state behind a gap. -/
theorem afterGap_block {text : List Char} {allowed' : Bool} {after : Spot}
    (hmark : text.head? ≠ some orderMark)
    (hgap : scanGap false false text spot allowed = ⟨allowed', rest, after⟩) :
    (block indent outer tokens allowed candidate text spot).afterGap =
      block indent outer tokens allowed' candidate rest after := by
  simp [afterGap, block, hmark, inFlow, hgap, goOn]

/-- A gap between two tokens. -/
theorem arrives_of_settled {c d e : Cutter} (hsettled : c.settled = .ok d)
    (hgap : d.afterGap.settled = .ok e) (hlength : e.rest.length ≤ c.rest.length) :
    Arrives c e := by
  refine ⟨c, .refl c, hlength, ?_⟩
  rw [advance, hsettled]
  simp only [step, hgap, bind, Except.bind]

/-- A text that begins visibly does not begin with a mark of the order of octets. -/
theorem Begins.head?_ne (h : Begins rest) : rest.head? ≠ some orderMark := by
  intro hmark
  exact absurd (h _ hmark).1 (by decide)

/-- A blank before a token where no candidate is open. -/
theorem arrives_blank (hrest : Begins rest) (indent : Int) (outer : List Int) (tokens : List Token)
    (allowed : Bool) (spot : Spot) :
    Arrives (block indent outer tokens allowed none (' ' :: rest) spot)
      (block indent outer tokens allowed none rest (spot.next ' ')) := by
  have hgap : scanGap false false (' ' :: rest) spot allowed = ⟨allowed, rest, spot.next ' '⟩ :=
    scanGap_blanks hrest 1 spot allowed
  refine arrives_of_settled (settled_of_fresh (by simp)) ?_ (by simp [block])
  rw [afterGap_block (by simp [orderMark]) hgap]
  exact settled_of_fresh (by simp)

/-- A token at once, where the candidate is still open. -/
theorem arrives_here (hrest : Begins rest) (hfresh : ∀ s, candidate = some s →
      (block indent outer tokens allowed candidate rest spot).isStale s = false) :
    Arrives (block indent outer tokens allowed candidate rest spot)
      (block indent outer tokens allowed candidate rest spot) := by
  refine arrives_of_settled (settled_of_fresh hfresh) ?_ le_rfl
  rw [afterGap_block hrest.head?_ne (scanGap_blanks hrest 0 spot allowed)]
  exact settled_of_fresh hfresh

/-- A break before a token gives up what need not be a key. -/
theorem arrives_break (hrest : Begins rest) (k : Nat)
    (hoptional : ∀ s, candidate = some s → s.required = false ∧ s.spot.line ≤ spot.line) :
    Arrives
      (block indent outer tokens allowed candidate ('\n' :: List.replicate k ' ' ++ rest) spot)
      (block indent outer tokens true none rest (spot.past ('\n' :: List.replicate k ' '))) := by
  obtain ⟨candidate', hsame, hsettled⟩ := settled_of_optional fun s hs => (hoptional s hs).1
  refine arrives_of_settled hsettled ?_ (by simp [block]; omega)
  rw [afterGap_block (by simp [orderMark]) (scanGap_break hrest k spot allowed)]
  refine settled_of_stale fun s hs => ?_
  obtain ⟨hrequired, hline⟩ := hoptional s (hsame s hs)
  refine ⟨hrequired, ?_⟩
  have hlines : (spot.past ('\n' :: List.replicate k ' ')).line = spot.line + 1 := by
    rw [Spot.past, List.foldl_cons, ← Spot.past, line_past fun c hc => by
      rw [List.eq_of_mem_replicate hc]
      decide]
    rfl
  have hne : s.spot.line ≠ spot.line + 1 := by omega
  simp [isStale, block, hlines, hne]

/-- Behind a scalar that ended on an earlier line there is no gap, and its place is given up. -/
theorem arrives_crossed (hrest : Begins rest)
    (hoptional : ∀ s, candidate = some s → s.required = false ∧ s.spot.line < spot.line) :
    Arrives (block indent outer tokens true candidate rest spot)
      (block indent outer tokens true none rest spot) := by
  have hstale : ∀ s, candidate = some s → s.required = false ∧
      (block indent outer tokens true candidate rest spot).isStale s = true := by
    intro s hs
    obtain ⟨hrequired, hline⟩ := hoptional s hs
    have hne : s.spot.line ≠ spot.line := by omega
    exact ⟨hrequired, by simp [isStale, block, hne]⟩
  refine arrives_of_settled (settled_of_stale hstale) ?_ le_rfl
  rw [afterGap_block hrest.head?_ne (scanGap_blanks hrest 0 spot true)]
  exact settled_of_fresh (by simp)

/-! ## The next token -/

/-- Nothing is closed at a column that is not before the innermost collection. -/
theorem unwind_column (h : indent ≤ spot.column) :
    (block indent outer tokens allowed candidate rest spot).unwind
      (block indent outer tokens allowed candidate rest spot).column =
        block indent outer tokens allowed candidate rest spot := by
  have hclosing : closing spot.column indent outer = (indent, outer, 0) := by
    cases outer with
    | nil => rfl
    | cons i others => rw [closing, if_neg (by omega)]
  simp [unwind, block, column, inFlow, hclosing]

/-- A plain scalar begins with what is no indicator, or with one that something follows. -/
theorem cut_plain {first : Char} (hends : endsWord (some first) = false)
    (hopener : first ∉ openers)
    (hindicator : first ∈ ['?', ':', '-'] → endsWord rest.head? = false)
    (hmarker : (spot.column == 0 && isMarker (first :: rest)) = false) :
    (block indent outer tokens allowed candidate (first :: rest) spot).cut =
      (block indent outer tokens allowed candidate (first :: rest) spot).atPlain := by
  have hplain : beginsPlain false first rest.head? = true := by
    by_cases hmem : first ∈ ['?', ':', '-']
    · simp only [List.mem_cons, List.not_mem_nil, or_false] at hmem
      simp only [beginsPlain, hends, hindicator (by simpa using hmem)]
      rcases hmem with rfl | rfl | rfl <;> rfl
    · have hindicators : indicators.contains first = false := by
        have hall : ∀ c ∈ indicators, c ∈ openers ∨ c ∈ ['?', ':', '-'] :=
          List.all_iff_forall_prop.mp (by decide)
        rw [List.contains_eq_mem, decide_eq_false_iff_not]
        exact fun h => (hall first h).elim hopener hmem
      rw [beginsPlain, hends, hindicators]
      rfl
  have hnext : ∀ c ∈ ['?', ':', '-'], ¬(first = c ∧ endsWord rest.head? = true) := by
    rintro c hc ⟨rfl, hends⟩
    rw [hindicator hc] at hends
    cases hends
  simp only [List.forall_mem_cons] at hnext
  simp only [openers, List.mem_cons, List.not_mem_nil, or_false, not_or] at hopener
  simp only [cut, block, inFlow, List.isEmpty_nil, Bool.not_true, Bool.not_false, and_true,
    Bool.false_eq_true, false_or, hmarker, and_false, hplain, hopener, hnext, false_and, if_false,
    if_true]

/-- A colon before a blank or a break follows a key. -/
theorem cut_colon (hends : endsWord rest.head? = true) :
    (block indent outer tokens allowed candidate (':' :: rest) spot).cut =
      (block indent outer tokens allowed candidate (':' :: rest) spot).atValue := by
  simp [cut, block, hends, inFlow]

/-- A hyphen before a blank comes before an item. -/
theorem cut_hyphen (hcolumn : spot.column ≠ 0) (hends : endsWord rest.head? = true) :
    (block indent outer tokens allowed candidate ('-' :: rest) spot).cut =
      (block indent outer tokens allowed candidate ('-' :: rest) spot).atBlockEntry := by
  simp [cut, block, hends, hcolumn]

/-- A mark begins a quoted scalar. -/
theorem cut_mark (double : Bool) :
    (block indent outer tokens allowed candidate (mark double :: rest) spot).cut =
      (block indent outer tokens allowed candidate (mark double :: rest) spot).atQuoted double := by
  cases double <;> simp [cut, block, mark, inFlow]

/-- The candidate of a scalar: its place, if a key may begin there. -/
def place (allowed : Bool) (indent : Int) (tokens : List Token) (spot : Spot) : Option Candidate :=
  if allowed then some ⟨tokens.length, indent == (spot.column : Int), spot⟩ else none

/-- Where a key may begin, the place of a scalar is kept. -/
theorem propose_block :
    (block indent outer tokens allowed none rest spot).propose =
      .ok (block indent outer tokens allowed (place allowed indent tokens spot) rest spot) := by
  cases allowed <;> rfl

/-- A plain scalar. -/
theorem atPlain_block {s : Scanned Plain} (h : scanPlain false (indent + 1) rest spot = s) :
    (block indent outer tokens allowed none rest spot).atPlain =
      .ok (block indent outer (tokens ++ [.scalar (String.ofList s.value.chars) true])
        s.value.crossed (place allowed indent tokens spot) s.rest s.spot) := by
  subst h
  rw [atPlain, propose_block]
  rfl

/-- A plain scalar behind a gap. -/
theorem Arrives.plain {c : Cutter} {first : Char}
    (h : Arrives c (block indent outer tokens allowed none (first :: rest) spot))
    (hindent : indent ≤ spot.column) (hends : endsWord (some first) = false)
    (hopener : first ∉ openers)
    (hindicator : first ∈ ['?', ':', '-'] → endsWord rest.head? = false)
    (hmarker : (spot.column == 0 && isMarker (first :: rest)) = false) {s : Scanned Plain}
    (hscan : scanPlain false (indent + 1) (first :: rest) spot = s)
    (hlength : s.rest.length ≤ rest.length) :
    Reaches c (block indent outer (tokens ++ [.scalar (String.ofList s.value.chars) true])
      s.value.crossed (place allowed indent tokens spot) s.rest s.spot) := by
  refine h.reaches ?_ rfl (Nat.lt_succ_of_le hlength)
  rw [unwind_column hindent, cut_plain hends hopener hindicator hmarker, atPlain_block hscan]

/-- A quoted scalar. -/
theorem atQuoted_block {double : Bool} {s : Scanned (List Char)}
    (h : scanQuoted double rest (spot.next (mark double)) = .ok s) :
    (block indent outer tokens allowed none (mark double :: rest) spot).atQuoted double =
      .ok (block indent outer (tokens ++ [.scalar (String.ofList s.value) false]) false
        (place allowed indent tokens spot) s.rest s.spot) := by
  rw [atQuoted, propose_block]
  simp only [block, bind, Except.bind, List.drop_one, List.tail_cons, List.take_one,
    List.head?_cons, Option.toList_some, Spot.past, List.foldl_cons, List.foldl_nil, h]
  rfl

/-! ## Keys -/

/-- Names that can stand plainly before a colon. -/
structure IsName (name : List Char) : Prop where
  first : ∃ c rest, name = c :: rest ∧ c.isAlpha = true
  chars : ∀ c ∈ name, isNameChar c = true
  kind : Kind.ofPlain name = .text
  short : name.length ≤ 1024

/-- The characters of names are visible, and none of them ends a word or a key. -/
theorem visible_of_isNameChar {c : Char} (h : isNameChar c = true) :
    (' ' ≤ c ∧ c ≤ '~') ∧ c ≠ ' ' ∧ c ≠ '#' ∧ c ≠ ':' := by
  have hascii : c.toNat < 128 := by
    simp only [isNameChar, Char.isAlphanum, Char.isAlpha, Char.isUpper, Char.isLower, Char.isDigit,
      Bool.or_eq_true, Bool.and_eq_true, decide_eq_true_eq, beq_iff_eq, ge_iff_le,
      UInt32.le_iff_toNat_le] at h
    rcases h with ((((h | h) | h) | rfl) | rfl)
    · exact lt_of_le_of_lt h.2 (by decide)
    · exact lt_of_le_of_lt h.2 (by decide)
    · exact lt_of_le_of_lt h.2 (by decide)
    · decide
    · decide
  have hall : ∀ n, n < 128 → isNameChar (Char.ofNat n) = true →
      (' ' ≤ Char.ofNat n ∧ Char.ofNat n ≤ '~') ∧ Char.ofNat n ≠ ' ' ∧ Char.ofNat n ≠ '#' ∧
        Char.ofNat n ≠ ':' := by
    decide
  have hc := hall c.toNat hascii
  rw [Char.ofNat_toNat] at hc
  exact hc h

/-- A name is read up to the colon behind it. -/
theorem scanPlain_name {name : List Char} (h : IsName name) (hends : endsWord rest.head? = true)
    (indent : Int) (spot : Spot) :
    scanPlain false indent (name ++ ':' :: rest) spot =
      ⟨⟨name, false⟩, ':' :: rest, spot.past name⟩ := by
  have hrun : plainRun false (name ++ ':' :: rest) = name := by
    have hchars := h.chars
    clear h
    induction name with
    | nil => simp [plainRun, endsPlain_false, hends]
    | cons c others ih =>
        rw [List.forall_mem_cons] at hchars
        obtain ⟨hvisible, hblank, -, hcolon⟩ := visible_of_isNameChar hchars.1
        rw [List.cons_append, plainRun, endsPlain_false, endsWord_eq_false hvisible hblank]
        simp [hcolon, ih hchars.2]
  have hne : name ≠ [] := by
    obtain ⟨c, others, rfl, -⟩ := h.first
    exact List.cons_ne_nil _ _
  have hbetween (spot : Spot) :
      scanBetween (':' :: rest) spot = ⟨⟨[], false⟩, ':' :: rest, spot⟩ := by
    have hbreak : isBreak ':' = false := by decide
    have hspan : scanWhile (· == ' ') (':' :: rest) spot = ⟨[], ':' :: rest, spot⟩ := rfl
    rw [scanBetween, hspan]
    simp only [hbreak, Bool.false_eq_true, if_false]
  obtain ⟨n, hn⟩ : ∃ n, (name ++ ':' :: rest).length = n + 1 := ⟨_, by simp; rfl⟩
  rw [scanPlain, hn, plainFrom_succ hne hrun, plainAfter, hbetween]
  simp [goesOn, Scanned.map]

/-- The block collections around a key at a column, and the token that opens the innermost of
them if it begins with the key. -/
def entered (column : Int) (indent : Int) (outer : List Int) : Int × List Int × List Token :=
  if indent < column then (column, indent :: outer, [.blockMapping]) else (indent, outer, [])

/-- A colon behind a candidate makes a key of what stands between them. -/
theorem atValueOf_block {more : List Token} {k : Candidate} (htoken : k.token = tokens.length)
    {i : Int} {o : List Int} {opening : List Token}
    (hentered : entered k.spot.column indent outer = (i, o, opening)) :
    (block indent outer (tokens ++ more) false (some k) (':' :: rest) spot).atValueOf k =
      block i o (tokens ++ opening ++ .key :: (more ++ [.value])) false none rest
        (spot.next ':') := by
  by_cases hlt : indent < k.spot.column
  · rw [entered, if_pos hlt] at hentered
    cases hentered
    simp [atValueOf, block, inFlow, openAt, skip, emit, Spot.past, htoken, hlt]
  · rw [entered, if_neg hlt] at hentered
    cases hentered
    simp [atValueOf, block, inFlow, openAt, skip, emit, Spot.past, htoken, hlt]

/-- A name and the colon behind it. -/
theorem Arrives.key {c : Cutter} {name : List Char} (hname : IsName name)
    (h : Arrives c (block indent outer tokens true none (name ++ ':' :: rest) spot))
    (hindent : indent ≤ spot.column) (hends : endsWord rest.head? = true) {i : Int} {o : List Int}
    {opening : List Token} (hentered : entered spot.column indent outer = (i, o, opening)) :
    Reaches c (block i o (tokens ++ opening ++ [.key, .scalar (String.ofList name) true, .value])
      false none rest ((spot.past name).next ':')) := by
  have hvisible : ∀ c ∈ name, ' ' ≤ c ∧ c ≤ '~' := fun c hc =>
    (visible_of_isNameChar (hname.chars c hc)).1
  have hscan := scanPlain_name hname hends (indent + 1) spot
  have hscalar : Reaches c (block indent outer (tokens ++ [.scalar (String.ofList name) true]) false
      (place true indent tokens spot) (':' :: rest) (spot.past name)) := by
    obtain ⟨first, others, rfl, hfirst⟩ := hname.first
    have hne {d : Char} (hd : d.isAlpha = false) : first ≠ d := by
      rintro rfl
      rw [hfirst] at hd
      cases hd
    have hopeners : ∀ d ∈ openers, d.isAlpha = false := List.all_iff_forall_prop.mp (by decide)
    have hindicators : ∀ d ∈ ['?', ':', '-'], d.isAlpha = false :=
      List.all_iff_forall_prop.mp (by decide)
    have hopener : first ∉ openers := fun hmem => hne (hopeners first hmem) rfl
    have hindicator : first ∉ ['?', ':', '-'] := fun hmem => hne (hindicators first hmem) rfl
    have hmarker : isMarker (first :: others.append (':' :: rest)) = false := by
      simp [isMarker, hne (d := '-') (by decide), hne (d := '.') (by decide)]
    exact h.plain hindent (endsWord_eq_false (hvisible _ List.mem_cons_self) (hne (by decide)))
      hopener (absurd · hindicator) (by rw [hmarker, Bool.and_false]) hscan (by simp)
  refine hscalar.trans (Arrives.reaches (arrives_here ?_ ?_) ?_ rfl (by simp [block]))
  · rintro _ ⟨⟩
    decide
  · rintro _ ⟨⟩
    have hshort := hname.short
    simp [isStale, block, line_past hvisible, index_past, hshort]
  · have hcolumn : indent ≤ ((spot.past name).column : Int) := by
      rw [column_past hvisible]
      omega
    have hcandidate : place true indent tokens spot =
        some ⟨tokens.length, indent == (spot.column : Int), spot⟩ := rfl
    rw [unwind_column hcolumn, cut_colon hends, hcandidate, atValue]
    exact congrArg Except.ok (atValueOf_block rfl hentered)

/-! ## Scalars at the end of a line -/

/-- How far lines are indented. -/
def indentOf (lines : List Char) : Nat :=
  (lines.takeWhile (· == ' ')).length

/-- What stands in lines behind their indentation. -/
def content (lines : List Char) : List Char :=
  lines.dropWhile (· == ' ')

/-- Lines are their indentation and their content. -/
theorem eq_indentOf_content (lines : List Char) :
    lines = List.replicate (indentOf lines) ' ' ++ content lines := by
  have hblanks : lines.takeWhile (· == ' ') = List.replicate (indentOf lines) ' ' := by
    rw [List.eq_replicate_iff]
    refine ⟨rfl, fun c hc => ?_⟩
    simpa using List.all_eq_true.mp List.all_takeWhile c hc
  rw [← hblanks, content, List.takeWhile_append_dropWhile]

/-- The content of lines is not longer than they are. -/
theorem length_content_le (lines : List Char) : (content lines).length ≤ lines.length :=
  (List.dropWhile_suffix _).length_le

/-- Lines below a collection: they are not indented beyond it, and begin like a token. -/
structure Follows (lines : List Char) (indent : Int) : Prop where
  begins : Begins (content lines)
  column : (indentOf lines : Int) ≤ indent
  marker : isMarker lines = false

/-- Cutting goes on to the gap before the content of lines. -/
def ArrivesAt (c : Cutter) (indent : Int) (outer : List Int) (tokens : List Token)
    (lines : List Char) : Prop :=
  ∃ s : Spot, s.column = indentOf lines ∧
    Arrives c (block indent outer tokens true none (content lines) s)

/-- Lines are arrived at from before. -/
theorem Reaches.arrivesAt {c d : Cutter} {lines : List Char} (h : Reaches c d)
    (harrives : ArrivesAt d indent outer tokens lines) :
    ArrivesAt c indent outer tokens lines := by
  obtain ⟨s, hs, harrives⟩ := harrives
  exact ⟨s, hs, h.arrives harrives⟩

/-- The column behind a break and some blanks. -/
theorem column_break (k : Nat) (spot : Spot) :
    (spot.past ('\n' :: List.replicate k ' ')).column = k := by
  rw [Spot.past, List.foldl_cons, ← Spot.past, column_blanks]
  exact Nat.zero_add k

/-- A break leads to a later line. -/
theorem lt_line_break (text : List Char) (spot : Spot) :
    spot.line < (spot.past ('\n' :: text)).line := by
  rw [Spot.past, List.foldl_cons, ← Spot.past]
  exact le_line_past text (spot.next '\n')

/-- The place of a scalar behind the column of a collection need not be a key. -/
theorem required_of_place (hcolumn : indent < spot.column) {k : Candidate}
    (h : place allowed indent tokens spot = some k) : k.required = false ∧ k.spot = spot := by
  cases allowed with
  | false => cases h
  | true =>
      cases h
      have hne : indent ≠ spot.column := by omega
      simp [hne]

/-- Lines below a break. -/
theorem arrivesAt_break {lines : List Char} (hlines : Begins (content lines))
    (hoptional : ∀ s, candidate = some s → s.required = false ∧ s.spot.line ≤ spot.line) :
    ArrivesAt (block indent outer tokens allowed candidate ('\n' :: lines) spot) indent outer
      tokens lines := by
  refine ⟨_, column_break (indentOf lines) spot, ?_⟩
  conv_lhs => rw [eq_indentOf_content lines]
  exact arrives_break hlines (indentOf lines) hoptional

/-- What follows a plain scalar at the end of a line. -/
theorem Follows.scanBetween_eq {lines : List Char} (h : Follows lines indent) (spot : Spot) :
    scanBetween ('\n' :: lines) spot =
      ⟨⟨[' '], true⟩, content lines, spot.past ('\n' :: List.replicate (indentOf lines) ' ')⟩ := by
  have hmarker := h.marker
  rw [eq_indentOf_content lines] at hmarker
  conv_lhs => rw [eq_indentOf_content lines]
  exact scanBetween_break
    (fun c hc => ⟨(h.begins c hc).2.1, isBreak_eq_false (h.begins c hc).1⟩) hmarker spot

/-- It does not go on with the scalar. -/
theorem Follows.goesOn_eq {lines : List Char} (h : Follows lines indent) (spot : Spot) :
    goesOn false (indent + 1) (scanBetween ('\n' :: lines) spot) = false := by
  have hcolumn : ¬indent + 1 ≤ (indentOf lines : Int) :=
    not_le_of_gt (Int.lt_add_one_of_le h.column)
  rw [h.scanBetween_eq, goesOn, column_break]
  simp [hcolumn]

/-- A plain scalar behind a blank, at the end of a line. -/
theorem arrivesAt_standing {text : String} {lines : List Char} (htext : Standing text.toList)
    (width : Nat) (hindent : indent < margin) (hcolumn : indent ≤ spot.column)
    (hlines : Follows lines indent) :
    ArrivesAt (block indent outer tokens allowed none
      (' ' :: (foldRuns true width (runs text.toList) ++ '\n' :: lines)) spot) indent outer
      (tokens ++ [.scalar text true]) lines := by
  have hends : endsWord ('\n' :: lines).head? = true := rfl
  have hnext : indent < (spot.next ' ').column := by
    rw [column_next (by decide)]
    omega
  have hscan := scanPlain_foldRuns (Int.add_one_le_of_lt hindent) hends hlines.goesOn_eq htext
    width (Int.add_one_le_of_lt hnext)
  obtain ⟨first, more, heq, hvisible, hblank, hopener, hindicator⟩ := htext.exists_first width hends
  have hfirst : Begins (foldRuns true width (runs text.toList) ++ '\n' :: lines) := by
    rw [heq]
    rintro _ ⟨⟩
    refine ⟨hvisible, hblank, ?_⟩
    rintro rfl
    exact hopener (by decide)
  have harrives := arrives_blank hfirst indent outer tokens allowed spot
  have hlength := congrArg List.length heq
  simp only [List.length_append, List.length_cons] at hlength
  have hcontent := length_content_le lines
  rw [endsBefore, hlines.scanBetween_eq, heq] at hscan
  rw [heq] at harrives ⊢
  have hreaches := harrives.plain hnext.le (endsWord_eq_false hvisible hblank) hopener hindicator
    (by simp [column_next]) hscan (by simp only [Scanned.map]; omega)
  rw [Scanned.map, String.ofList_toList] at hreaches
  refine ⟨_, column_break (indentOf lines)
      ((spot.next ' ').past (foldRuns true width (runs text.toList))),
    hreaches.arrives (arrives_crossed hlines.begins fun s hs => ?_)⟩
  obtain ⟨hrequired, hspot⟩ := required_of_place hnext hs
  rw [hspot]
  exact ⟨hrequired, lt_of_le_of_lt (le_line_past _ _) (lt_line_break _ _)⟩

/-- A quoted scalar behind a blank, at the end of a line. -/
theorem arrivesAt_quoted {text : String} {spelled lines : List Char} {double : Bool}
    (hquoted : Quoted double spelled text.toList) (hcolumn : indent ≤ spot.column)
    (hlines : Begins (content lines)) :
    ArrivesAt (block indent outer tokens allowed none
      (' ' :: mark double :: (spelled ++ mark double :: '\n' :: lines)) spot) indent outer
      (tokens ++ [.scalar text false]) lines := by
  have hfirst : Begins (mark double :: (spelled ++ mark double :: '\n' :: lines)) := by
    rintro _ ⟨⟩
    cases double <;> decide
  have hnext : indent < (spot.next ' ').column := by
    rw [column_next (by decide)]
    omega
  have hfuel : spelled.length < (spelled ++ mark double :: '\n' :: lines).length + 1 := by
    rw [List.length_append]
    omega
  have hscan := hquoted ((spelled ++ mark double :: '\n' :: lines).length + 1) hfuel
    ('\n' :: lines) (by simp) ((spot.next ' ').next (mark double))
  have hreaches := (arrives_blank hfirst indent outer tokens allowed spot).reaches
    (by rw [unwind_column hnext.le, cut_mark, atQuoted_block hscan]) rfl (by simp [block]; omega)
  rw [String.ofList_toList] at hreaches
  have hoptional : ∀ k, place allowed indent tokens (spot.next ' ') = some k →
      k.required = false ∧ k.spot.line ≤
        (((spot.next ' ').next (mark double)).past (spelled ++ [mark double])).line := by
    intro k hk
    obtain ⟨hrequired, hspot⟩ := required_of_place hnext hk
    rw [hspot]
    exact ⟨hrequired, le_trans (le_line_past [mark double] _) (le_line_past _ _)⟩
  exact hreaches.arrivesAt (arrivesAt_break hlines hoptional)

/-- The token of a text. -/
def textToken (text : String) : Token :=
  .scalar text (Style.ofText text.toList == .plain)

/-- A text behind a blank, at the end of a line, however it is spelled. -/
theorem arrivesAt_spelled {lines : List Char} (text : String) (width : Nat)
    (hindent : indent < margin) (hcolumn : indent ≤ spot.column) (hlines : Follows lines indent) :
    ArrivesAt (block indent outer tokens allowed none
      (' ' :: (Style.spell width text.toList ++ '\n' :: lines)) spot) indent outer
      (tokens ++ [textToken text]) lines := by
  rw [Style.spell, textToken]
  rcases ofText_cases text.toList with ⟨hstyle, hplain⟩ | hstyle | ⟨hstyle, hforeign, hblank⟩
  · rw [hstyle]
    exact arrivesAt_standing (standing_of_isPlain hplain) width hindent hcolumn hlines
  · have hquoted := quoted_escapeFrom true true (width + 1) text.toList
    rw [hstyle]
    simp only [List.cons_append, List.append_assoc, List.nil_append]
    exact arrivesAt_quoted hquoted hcolumn hlines.begins
  · have hquoted := quoted_foldRuns hforeign hblank (width + 1)
    rw [hstyle]
    simp only [List.cons_append, List.append_assoc, List.nil_append]
    exact arrivesAt_quoted hquoted hcolumn hlines.begins

end

end Cutter

end StakeLedger.Yaml
