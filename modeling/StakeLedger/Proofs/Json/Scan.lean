import StakeLedger.Proofs.Text.Numeral
import StakeLedger.Proofs.Text.Utf8

/-!
# The tokens of written documents

Written text is read one character at a time.  A written value leaves the
reading machine between two tokens, or inside a word that the next mark ends, so
what is said of a text here says which tokens come out whatever mark follows.

Main definitions:

- {lit}`Json.Token.Progress.Settles`: what was read ends with complete tokens.
- {lit}`Json.Token.Scans`: a text is read as some tokens.

Main results:

- Theorem {lit}`Json.Token.scans_writeText`: a written string is one token.
- Theorem {lit}`Json.Token.scans_writeInt`: so is a written whole number that is not too long.
- Theorem {lit}`Json.Token.scan?_of_scans`: a text that is read as some tokens has them.
-/

namespace StakeLedger.Json

namespace Token

variable {longest : Option Nat}

/-- A reader without a limit takes numbers of any length. -/
theorem allows_none (length : Nat) : Allows none length := by
  intro most hmost
  cases hmost

/-- A reader with a limit takes numbers up to it. -/
theorem allows_some_iff {most length : Nat} : Allows (some most) length ↔ length ≤ most := by
  simp [Allows]

/-! ## Words -/

/-- A mark is no part of a word. -/
theorem isWordChar_of_mark? {c : Char} {t : Token} (h : mark? c = some t) :
    isWordChar c = false := by
  unfold mark? at h
  split at h <;> first | rfl | contradiction

/-- A mark is neither a blank nor a quotation mark. -/
theorem openWith_of_mark? {c : Char} {t : Token} (h : mark? c = some t) :
    openWith c = some ([t], .between) := by
  have hblank : isBlank c = false := by
    unfold mark? at h
    split at h <;> first | rfl | contradiction
  have hquote : c ≠ '\x22' := by
    rintro rfl
    simp [mark?] at h
  simp [openWith, hblank, hquote, h]

/-- A character of a word begins one. -/
theorem openWith_of_isWordChar {c : Char} (h : isWordChar c = true) :
    openWith c = some ([], .word [c]) := by
  have hblank : isBlank c = false := by
    rw [Bool.eq_false_iff]
    intro hb
    simp only [isBlank, Bool.or_eq_true, beq_iff_eq] at hb
    rcases hb with ((rfl | rfl) | rfl) | rfl <;> exact absurd h (by decide)
  have hquote : c ≠ '\x22' := by
    rintro rfl
    exact absurd h (by decide)
  have hmark : mark? c = none := by
    cases hm : mark? c with
    | none => rfl
    | some t => simp [isWordChar_of_mark? hm] at h
  simp [openWith, hblank, hquote, hmark, h]

/-! ## Texts that are read as tokens -/

/-- What was read ends with complete tokens, the last one first: they are all
there at the end of the text, and a mark that follows comes after them. -/
structure Progress.Settles (longest : Option Nat) (p : Progress) (tokens : List Token) : Prop where
  finish : p.finish? longest = some tokens.reverse
  mark : ∀ c t, mark? c = some t → p.read longest c = some ⟨t :: tokens, .between⟩

/-- Between two tokens nothing is open. -/
theorem Progress.settles_between (tokens : List Token) :
    Progress.Settles longest ⟨tokens, .between⟩ tokens where
  finish := rfl
  mark := by
    intro c t h
    simp [Progress.read, step, openWith_of_mark? h]

/-- A word is a token once a mark or the end of the text follows. -/
theorem Progress.settles_word {word : List Char} {t : Token} (h : word? longest word = some t)
    (tokens : List Token) :
    Progress.Settles longest ⟨tokens, .word word.reverse⟩ (t :: tokens) where
  finish := by simp [Progress.finish?, h]
  mark := by
    intro c m hc
    simp [Progress.read, step, isWordChar_of_mark? hc, openWith_of_mark? hc, h]

/-- A text is read as some tokens, whatever tokens came before. -/
def Scans (longest : Option Nat) (text : List Char) (tokens : List Token) : Prop :=
  ∀ before, ∃ p, text.foldlM (Progress.read longest) ⟨before, .between⟩ = some p ∧
    p.Settles longest (tokens.reverse ++ before)

/-- No text is read as no tokens. -/
theorem scans_nil : Scans longest [] [] :=
  fun before => ⟨_, rfl, Progress.settles_between before⟩

/-- A text with a mark before it. -/
theorem Scans.cons {text : List Char} {tokens : List Token} (h : Scans longest text tokens)
    {c : Char} {t : Token} (hc : mark? c = some t) : Scans longest (c :: text) (t :: tokens) := by
  intro before
  obtain ⟨p, hp, hs⟩ := h (t :: before)
  refine ⟨p, ?_, by simpa using hs⟩
  rw [List.foldlM_cons, (Progress.settles_between before).mark c t hc]
  exact hp

/-- Two texts with a mark between them. -/
theorem Scans.append_cons {first rest : List Char} {ts us : List Token}
    (hfirst : Scans longest first ts) {c : Char} {t : Token} (hc : mark? c = some t)
    (hrest : Scans longest rest us) :
    Scans longest (first ++ c :: rest) (ts ++ t :: us) := by
  intro before
  obtain ⟨p, hp, hs⟩ := hfirst before
  obtain ⟨q, hq, hqs⟩ := hrest (t :: (ts.reverse ++ before))
  refine ⟨q, ?_, by simpa using hqs⟩
  rw [List.foldlM_append, hp]
  simp only [Option.bind_eq_bind, Option.bind_some, List.foldlM_cons, hs.mark c t hc]
  exact hq

/-- A text that is read as some tokens has them. -/
theorem scan?_of_scans {text : List Char} {tokens : List Token} (h : Scans longest text tokens) :
    scan? longest text = some tokens := by
  obtain ⟨p, hp, hs⟩ := h []
  simpa [scan?, hp] using hs.finish

/-- The letters of a word are kept. -/
theorem foldlM_read_word (before : List Token) (letters word : List Char)
    (hword : ∀ c ∈ word, isWordChar c = true) :
    word.foldlM (Progress.read longest) ⟨before, .word letters⟩ =
      some ⟨before, .word (word.reverse ++ letters)⟩ := by
  induction word generalizing letters with
  | nil => rfl
  | cons c rest ih =>
      have hc : isWordChar c = true := hword c List.mem_cons_self
      have hread : Progress.read longest ⟨before, .word letters⟩ c =
          some ⟨before, .word (c :: letters)⟩ := by
        simp [Progress.read, step, hc]
      rw [List.foldlM_cons, hread]
      simp only [Option.bind_eq_bind, Option.bind_some]
      rw [ih (c :: letters) fun d hd => hword d (List.mem_cons_of_mem c hd)]
      simp

/-- A word that spells a scalar is read as it. -/
theorem scans_word {word : List Char} {t : Token} (h : word? longest word = some t)
    (hword : word.all isWordChar = true) (hne : word ≠ []) : Scans longest word [t] := by
  rw [List.all_eq_true] at hword
  intro before
  refine ⟨⟨before, .word word.reverse⟩, ?_, Progress.settles_word h before⟩
  obtain ⟨c, rest, rfl⟩ := List.exists_cons_of_ne_nil hne
  have hc : isWordChar c = true := hword c List.mem_cons_self
  have hread : Progress.read longest ⟨before, .between⟩ c = some ⟨before, .word [c]⟩ := by
    simp [Progress.read, step, openWith_of_isWordChar hc]
  rw [List.foldlM_cons, hread]
  simp only [Option.bind_eq_bind, Option.bind_some]
  rw [foldlM_read_word before [c] rest fun d hd => hword d (List.mem_cons_of_mem c hd)]
  simp

/-! ## Strings -/

/-- Reading a text from some place in a string leads to another one, and no
token is complete on the way. -/
def Leads (longest : Option Nat) (start : State) (text : List Char) (stop : State) : Prop :=
  ∀ before, text.foldlM (Progress.read longest) ⟨before, start⟩ = some ⟨before, stop⟩

/-- One character that completes no token. -/
theorem leads_singleton {start stop : State} {c : Char}
    (h : step longest start c = some ([], stop)) : Leads longest start [c] stop := by
  intro before
  simp [Progress.read, h]

/-- A text after a text. -/
theorem Leads.append {start middle stop : State} {first rest : List Char}
    (hfirst : Leads longest start first middle) (hrest : Leads longest middle rest stop) :
    Leads longest start (first ++ rest) stop := by
  intro before
  rw [List.foldlM_append, hfirst before]
  exact hrest before

/-- A text after a character. -/
theorem Leads.cons {start stop : State} (middle : State) {c : Char} {rest : List Char}
    (hc : step longest start c = some ([], middle)) (hrest : Leads longest middle rest stop) :
    Leads longest start (c :: rest) stop :=
  (leads_singleton hc).append hrest

/-- Four hexadecimal digits end an escape. -/
private theorem leads_four {chars : List Char} {high : Option Nat} {stop : State} {a b c d : Char}
    (hdigits : ∀ x ∈ [a, b, c, d], (Hex.value? x).isSome)
    (h : State.afterUnit chars high (Numeral.valueIn 16 [a, b, c, d]) = some stop) :
    Leads longest (.unit chars high []) [a, b, c, d] stop := by
  obtain ⟨_, ha⟩ := Option.isSome_iff_exists.mp (hdigits a (by simp))
  obtain ⟨_, hb⟩ := Option.isSome_iff_exists.mp (hdigits b (by simp))
  obtain ⟨_, hc⟩ := Option.isSome_iff_exists.mp (hdigits c (by simp))
  obtain ⟨_, hd⟩ := Option.isSome_iff_exists.mp (hdigits d (by simp))
  refine Leads.cons (.unit chars high [a]) (by simp [step, ha]) ?_
  refine Leads.cons (.unit chars high [b, a]) (by simp [step, hb]) ?_
  refine Leads.cons (.unit chars high [c, b, a]) (by simp [step, hc]) ?_
  exact leads_singleton (by simp [step, hd, h])

/-- A number of four hexadecimal digits is read as a unit. -/
theorem leads_padded {chars : List Char} {high : Option Nat} {n : Nat} {stop : State}
    (hn : n < 65536) (h : State.afterUnit chars high n = some stop) :
    Leads longest (.unit chars high []) (Hex.padded 4 n) stop := by
  have hdigits : ∀ x ∈ Hex.padded 4 n, (Hex.value? x).isSome := by
    intro x hx
    obtain ⟨i, _, rfl⟩ := List.mem_map.mp hx
    rw [Hex.value?_digit _ (by omega)]
    rfl
  rw [← Hex.valueIn_padded hn] at h
  exact leads_four hdigits h

/-- The escape of a unit is read as the unit. -/
theorem leads_unitEscape {chars : List Char} {high : Option Nat} {n : Nat} {stop : State}
    (hn : n < 65536) (h : State.afterUnit chars high n = some stop) :
    Leads longest (.quoted chars high) (unitEscape n) stop := by
  refine Leads.cons (.escaped chars high) ?_ ?_
  · cases high <;> simp [step]
  · refine Leads.cons (.unit chars high []) ?_ (leads_padded hn h)
    cases high <;> simp [step]

/-- The escape of a character by its units is read as the character. -/
theorem leads_charEscape (chars : List Char) (c : Char) :
    Leads longest (.quoted chars none) (charEscape c) (.quoted (c :: chars) none) := by
  have hvalid := Utf8.toNat_scalar c
  unfold charEscape
  by_cases hsmall : c.toNat < 0x10000
  · rw [if_pos hsmall]
    refine leads_unitEscape hsmall ?_
    have hhigh : ¬(0xD800 ≤ c.toNat ∧ c.toNat ≤ 0xDBFF) := by omega
    have hlow : ¬(0xDC00 ≤ c.toNat ∧ c.toNat ≤ 0xDFFF) := by omega
    simp only [State.afterUnit, if_neg hhigh, if_neg hlow, Char.ofNat_toNat]
  · rw [if_neg hsmall]
    have hpair : 0x10000 + (0xD800 + (c.toNat - 0x10000) / 1024 - 0xD800) * 1024 +
        (0xDC00 + (c.toNat - 0x10000) % 1024 - 0xDC00) = c.toNat := by omega
    have hfirst : Leads longest (.quoted chars none)
        (unitEscape (0xD800 + (c.toNat - 0x10000) / 1024))
        (.quoted chars (some (0xD800 + (c.toNat - 0x10000) / 1024))) := by
      refine leads_unitEscape (by omega) ?_
      rw [State.afterUnit, if_pos (by omega)]
    refine hfirst.append ?_
    refine leads_unitEscape (by omega) ?_
    rw [State.afterUnit, if_pos (by omega)]
    rw [hpair, Char.ofNat_toNat]

/-- The escape of one letter is read as its character. -/
private theorem leads_escape {chars : List Char} {letter c : Char} (hletter : letter ≠ 'u')
    (h : escape? letter = some c) :
    Leads longest (.quoted chars none) ['\\', letter] (.quoted (c :: chars) none) :=
  Leads.cons (.escaped chars none) (by simp [step])
    (leads_singleton (by simp [step, hletter, h]))

/-- A written character is read as itself. -/
theorem leads_writeChar (charset : Charset) (chars : List Char) (c : Char) :
    Leads longest (.quoted chars none) (writeChar charset c) (.quoted (c :: chars) none) := by
  unfold writeChar
  split
  · subst c
    exact leads_escape (by decide) rfl
  split
  · subst c
    exact leads_escape (by decide) rfl
  split
  · subst c
    exact leads_escape (by decide) rfl
  split
  · subst c
    exact leads_escape (by decide) rfl
  split
  · subst c
    exact leads_escape (by decide) rfl
  split
  · subst c
    exact leads_escape (by decide) rfl
  split
  · subst c
    exact leads_escape (by decide) rfl
  split
  · exact leads_charEscape chars c
  split
  · exact leads_charEscape chars c
  · exact leads_singleton (by simp [step, *])

/-- The characters of a written string are read one after another. -/
theorem leads_flatMap_writeChar (charset : Charset) (chars text : List Char) :
    Leads longest (.quoted chars none) (text.flatMap (writeChar charset))
      (.quoted (text.reverse ++ chars) none) := by
  induction text generalizing chars with
  | nil => exact fun _ => rfl
  | cons c rest ih =>
      rw [List.flatMap_cons]
      refine (leads_writeChar charset chars c).append ?_
      simpa using ih (c :: chars)

/-- A written string is one token. -/
theorem scans_writeText (charset : Charset) (s : String) :
    Scans longest (writeText charset s) [.scalar (.text s)] := by
  intro before
  refine ⟨⟨.scalar (.text s) :: before, .between⟩, ?_, by
    simpa using Progress.settles_between (.scalar (.text s) :: before)⟩
  have hopen : Leads longest .between ['\x22'] (.quoted [] none) :=
    leads_singleton (by simp [step, openWith, isBlank])
  have hchars := hopen.append (leads_flatMap_writeChar charset [] s.toList)
  have hclose : Progress.read longest ⟨before, .quoted s.toList.reverse none⟩ '\x22' =
      some ⟨.scalar (.text s) :: before, .between⟩ := by
    simp [Progress.read, step]
  rw [writeText, ← List.cons_append, List.foldlM_append]
  rw [show '\x22' :: s.toList.flatMap (writeChar charset) =
    ['\x22'] ++ s.toList.flatMap (writeChar charset) from rfl, hchars before]
  simp [hclose]

/-! ## Numbers and words -/

/-- Digits after a sign are a whole part from end to end. -/
theorem wholePart_eq_self {word : List Char}
    (h : ∀ c ∈ word, Numeral.isDigit c = true ∨ c = '-') : wholePart word = word := by
  rw [wholePart, List.takeWhile_eq_self_iff]
  intro c hc
  rcases h c hc with hdigit | rfl
  · simp [hdigit]
  · rfl

/-- A written whole number is one token, unless it is too long. -/
theorem scans_writeInt {n : Int} (hlength : Allows longest (writeInt n).length) :
    Scans longest (writeInt n) [.scalar (.int n)] := by
  have hchar : ∀ c ∈ writeInt n, isWordChar c = true := by
    intro c hc
    rcases mem_writeInt hc with hdigit | rfl
    · rw [Numeral.isDigit_eq] at hdigit
      simp [isWordChar, Char.isAlphanum, hdigit]
    · decide
  have hletter (word : List Char) (c : Char) (hc : c ∈ word) (hdigit : Numeral.isDigit c = false)
      (hsign : c ≠ '-') : writeInt n ≠ word := by
    rintro rfl
    rcases mem_writeInt hc with h | h
    · simp [hdigit] at h
    · exact hsign h
  have hword : word? longest (writeInt n) = some (.scalar (.int n)) := by
    rw [word?, if_neg (hletter _ 'n' (by decide) (by decide) (by decide)),
      if_neg (hletter _ 't' (by decide) (by decide) (by decide)),
      if_neg (hletter _ 'f' (by decide) (by decide) (by decide)),
      if_neg (hletter _ 'N' (by decide) (by decide) (by decide)),
      if_neg (hletter _ 'I' (by decide) (by decide) (by decide)),
      if_neg (hletter _ 'I' (by decide) (by decide) (by decide)),
      wholePart_eq_self fun c hc => mem_writeInt hc, if_pos hlength, number?_writeInt]
    rfl
  have hne : writeInt n ≠ [] := by
    intro h
    have := number?_writeInt n
    simp [h, number?] at this
  exact scans_word hword (List.all_eq_true.mpr hchar) hne

end Token

end StakeLedger.Json
