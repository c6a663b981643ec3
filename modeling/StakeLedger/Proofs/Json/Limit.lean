import StakeLedger.Proofs.Json.Document

/-!
# Numbers that are too long

A reader with a limit on the length of numbers refuses some texts that a reader without one
takes.  What it takes it reads the same way, and no number in it is too long.  So a written
document reads back if all its numbers are short enough, and is refused otherwise.

Main definitions:

- {lit}`Json.Within`: a value whose whole numbers are no longer than allowed.

Main results:

- Theorem {lit}`Json.readWithin?_unlimited`: what is read with a limit is read without one.
- Theorem {lit}`Json.within_of_readWithin?`: what is read with a limit is within it.
- Theorem {lit}`Json.readWithin?_write_cases`: the written documents that read back.
-/

namespace StakeLedger

/-! ## The length of a number -/

/-- A number is written with its digits and a sign if it is negative. -/
theorem Json.length_writeInt_le {n : Int} {k : Nat} (hk : 0 < k) (h : n.natAbs < 10 ^ k) :
    (writeInt n).length ≤ (if n < 0 then 1 else 0) + k := by
  have hdigits := (Numeral.length_toDigits_le_iff hk).mpr h
  rw [writeInt]
  split
  · rw [List.length_cons]
    omega
  · omega

/-- A number that is not negative has its digits for its length. -/
theorem Json.length_writeInt_le_iff {n : Int} (hn : 0 ≤ n) {k : Nat} (hk : 0 < k) :
    (writeInt n).length ≤ k ↔ n.natAbs < 10 ^ k := by
  rw [writeInt, if_neg (not_lt.mpr hn), Numeral.length_toDigits_le_iff hk]

/-- A power of ten has one digit more than zeros. -/
theorem Json.not_length_writeInt_pow {k : Nat} (hk : 0 < k) :
    ¬(writeInt (10 ^ k)).length ≤ k := by
  rw [length_writeInt_le_iff (by positivity) hk, Int.natAbs_pow]
  exact Nat.lt_irrefl (10 ^ k)

namespace Json

variable {longest : Option Nat}

namespace Token

/-! ## What is read with a limit is read without one -/

/-- A word that is read with a limit is read without one. -/
theorem word?_unlimited {word : List Char} {t : Token} (h : word? longest word = some t) :
    word? none word = some t := by
  have hnone := allows_none (wholePart word).length
  unfold word? at h ⊢
  split_ifs at h ⊢ <;> exact h

/-- A step with a limit is one without a limit. -/
theorem step_unlimited {s s' : State} {c : Char} {tokens : List Token}
    (h : step longest s c = some (tokens, s')) : step none s c = some (tokens, s') := by
  cases s with
  | word letters =>
      rw [step] at h ⊢
      split at h
      · next hword =>
        rw [if_pos hword]
        exact h
      · next hword =>
        rw [if_neg hword]
        obtain ⟨t, ht, hopen⟩ := Option.bind_eq_some_iff.mp h
        exact Option.bind_eq_some_iff.mpr ⟨t, word?_unlimited ht, hopen⟩
  | quoted chars high => cases high <;> exact h
  | _ => exact h

/-- What is read of one character with a limit is read without one. -/
theorem Progress.read_unlimited {p q : Progress} {c : Char} (h : p.read longest c = some q) :
    p.read none c = some q := by
  obtain ⟨⟨tokens, state⟩, hstep, hq⟩ := Option.bind_eq_some_iff.mp h
  exact Option.bind_eq_some_iff.mpr ⟨(tokens, state), step_unlimited hstep, hq⟩

/-- What is read of a text with a limit is read without one. -/
theorem foldlM_read_unlimited {text : List Char} {p q : Progress}
    (h : text.foldlM (Progress.read longest) p = some q) :
    text.foldlM (Progress.read none) p = some q := by
  induction text generalizing p with
  | nil => exact h
  | cons c rest ih =>
      rw [List.foldlM_cons] at h ⊢
      obtain ⟨r, hread, hrest⟩ := Option.bind_eq_some_iff.mp h
      exact Option.bind_eq_some_iff.mpr ⟨r, Progress.read_unlimited hread, ih hrest⟩

/-- The tokens that are read with a limit are read without one. -/
theorem scan?_unlimited {text : List Char} {tokens : List Token}
    (h : scan? longest text = some tokens) : scan? none text = some tokens := by
  obtain ⟨p, hp, hfinish⟩ := Option.bind_eq_some_iff.mp h
  refine Option.bind_eq_some_iff.mpr ⟨p, foldlM_read_unlimited hp, ?_⟩
  unfold Progress.finish? at hfinish ⊢
  split at hfinish
  · exact hfinish
  · obtain ⟨t, ht, hlast⟩ := Option.map_eq_some_iff.mp hfinish
    exact Option.map_eq_some_iff.mpr ⟨t, word?_unlimited ht, hlast⟩
  · exact hfinish

end Token

/-- What is read with a limit is read without one. -/
theorem readWithin?_unlimited {depth : Nat} {text : String} {v : Value}
    (h : readWithin? longest depth text = some v) : readWithin? none depth text = some v := by
  obtain ⟨tokens, htokens, hvalue⟩ := Option.bind_eq_some_iff.mp h
  rw [readWithin?, Token.scan?_unlimited htokens]
  exact hvalue

/-! ## What is read with a limit is within it -/

/-- A value whose whole numbers are written with no more characters than allowed. -/
inductive Within (longest : Option Nat) : Value → Prop where
  | null : Within longest .null
  | bool (b : Bool) : Within longest (.bool b)
  | int {n : Int} (hlength : Token.Allows longest (writeInt n).length) : Within longest (.int n)
  | real (x : Binary64) : Within longest (.real x)
  | text (s : String) : Within longest (.text s)
  | list {items : List Value} (hitems : ∀ v ∈ items, Within longest v) :
      Within longest (.list items)
  | dict {fields : List (String × Value)} (hfields : ∀ pair ∈ fields, Within longest pair.2) :
      Within longest (.dict fields)

/-- The numbers within a limit. -/
theorem within_int_iff {most : Nat} {n : Int} :
    Within (some most) (.int n) ↔ (writeInt n).length ≤ most := by
  constructor
  · intro h
    cases h with
    | int hlength => exact Token.allows_some_iff.mp hlength
  · intro h
    exact .int (Token.allows_some_iff.mpr h)

/-- The dictionaries within a limit. -/
theorem within_dict_iff {fields : Fields} :
    Within longest (.dict fields) ↔ ∀ pair ∈ fields, Within longest pair.2 := by
  constructor
  · intro h
    cases h with
    | dict hfields => exact hfields
  · exact .dict

/-- The member of a dictionary. -/
theorem Within.get? {fields : Fields} {key : String} {v : Value}
    (h : Within longest (.dict fields)) (hget : Fields.get? fields key = some v) :
    Within longest v := by
  obtain ⟨before, after, hsplit, _⟩ := List.lookup_eq_some_iff.mp hget
  exact within_dict_iff.mp h (key, v) (by simp [hsplit])

/-- A dictionary stays within a limit with one more pair. -/
theorem within_set {fields : Fields} (key : String) {v : Value}
    (hfields : ∀ pair ∈ fields, Within longest pair.2) (hv : Within longest v) :
    ∀ pair ∈ Fields.set fields key v, Within longest pair.2 := by
  induction fields with
  | nil => simpa [Fields.set] using hv
  | cons head rest ih =>
      obtain ⟨k, w⟩ := head
      have hrest := ih fun pair hpair => hfields pair (List.mem_cons_of_mem _ hpair)
      rw [Fields.set]
      intro pair hpair
      split at hpair
      · rcases List.mem_cons.mp hpair with rfl | hpair
        · exact hv
        · exact hfields pair (List.mem_cons_of_mem _ hpair)
      · rcases List.mem_cons.mp hpair with rfl | hpair
        · exact hfields (k, w) List.mem_cons_self
        · exact hrest pair hpair

/-- The dictionary of pairs within a limit. -/
theorem within_ofFields {pairs : List (String × Value)}
    (hpairs : ∀ pair ∈ pairs, Within longest pair.2) : Within longest (Value.ofFields pairs) := by
  have hfold : ∀ before : Fields, (∀ pair ∈ before, Within longest pair.2) →
      ∀ pair ∈ pairs.foldl (fun fields pair => Fields.set fields pair.1 pair.2) before,
        Within longest pair.2 := by
    induction pairs with
    | nil => exact fun before hbefore => hbefore
    | cons pair rest ih =>
        intro before hbefore
        exact ih (fun p hp => hpairs p (List.mem_cons_of_mem pair hp)) _
          (within_set pair.1 hbefore (hpairs pair List.mem_cons_self))
  exact .dict (hfold [] (by simp))

namespace Token

/-- A number is written with no more characters than the digits and the sign that it was
read from. -/
private theorem within_signed (sign : Bool) {whole word : List Char} (hne : whole ≠ [])
    (hall : ∀ c ∈ whole, Numeral.isDigit c = true)
    (hword : word = (if sign then ['-'] else []) ++ whole)
    (hallows : Allows longest (wholePart word).length) :
    Within longest (.int (Numeral.signed sign whole)) := by
  have hpart : wholePart word = word := by
    refine wholePart_eq_self fun c hc => ?_
    rw [hword] at hc
    rcases List.mem_append.mp hc with hsign | hdigit
    · cases sign with
      | false => simp at hsign
      | true => exact Or.inr (by simpa using hsign)
    · exact Or.inl (hall c hdigit)
  have hlength : word.length = (if sign then 1 else 0) + whole.length := by
    rw [hword, List.length_append]
    cases sign <;> rfl
  have habs : (Numeral.signed sign whole).natAbs = Numeral.value whole := by
    cases sign <;> simp [Numeral.signed]
  have hnegative : Numeral.signed sign whole < 0 → sign = true := by
    cases sign <;> simp [Numeral.signed]
  have hwritten := length_writeInt_le (List.length_pos_of_ne_nil hne)
    (habs ▸ Numeral.value_lt hall)
  rw [hpart, hlength] at hallows
  refine .int fun most hmost => le_trans ?_ (hallows most hmost)
  refine hwritten.trans ?_
  split
  · next hneg => simp [hnegative hneg]
  · omega

/-- What a word spells is within a limit that its whole part keeps. -/
theorem within_of_number? {word : List Char} {v : Value} (h : number? word = some v)
    (hallows : Allows longest (wholePart word).length) : Within longest v := by
  unfold number? at h
  extract_lets negative body whole tail at h
  have hall : ∀ c ∈ whole, Numeral.isDigit c = true := fun c hc => List.mem_takeWhile_imp hc
  have hbody : whole ++ tail = body := List.takeWhile_append_dropWhile
  clear_value whole tail
  split at h
  · exact nomatch h
  · next hshape =>
    have hne : whole ≠ [] := fun hnil => hshape (Or.inl hnil)
    split at h
    · rw [List.append_nil] at hbody
      have hword : word = (if decide negative then ['-'] else []) ++ whole := by
        by_cases hsign : negative
        · obtain ⟨rest, rfl⟩ : ∃ rest, word = '-' :: rest := by
            cases word with
            | nil => exact nomatch hsign
            | cons c rest => exact ⟨rest, by rw [Option.some.inj hsign]⟩
          simpa [body, hsign] using hbody.symm
        · simpa [body, hsign] using hbody.symm
      obtain rfl := Option.some.inj h
      exact within_signed _ hne hall hword hallows
    · dsimp only at h
      split at h
      · exact nomatch h
      · obtain ⟨exponent, _, hv⟩ := Option.bind_eq_some_iff.mp h
        obtain rfl := Option.some.inj hv
        exact .real _
    · obtain ⟨exponent, _, hv⟩ := Option.bind_eq_some_iff.mp h
      obtain rfl := Option.some.inj hv
      exact .real _

/-- A token that is no number that is too long. -/
def Fits (longest : Option Nat) (t : Token) : Prop :=
  ∀ v, t = .scalar v → Within longest v

/-- A mark is no number. -/
theorem fits_of_mark? {c : Char} {t : Token} (h : mark? c = some t) : Fits longest t := by
  rintro v rfl
  unfold mark? at h
  split at h <;> simp at h

/-- A text is no number. -/
theorem fits_text (text : String) : Fits longest (.scalar (.text text)) := by
  rintro v ⟨⟩
  exact .text text

/-- The value of a word is no longer than allowed. -/
theorem fits_of_word? {word : List Char} {t : Token} (h : word? longest word = some t) :
    Fits longest t := by
  rintro v rfl
  unfold word? at h
  split_ifs at h with _ _ _ _ _ _ hallows
  · obtain rfl : Value.null = v := by simpa using h
    exact .null
  · obtain rfl : Value.bool true = v := by simpa using h
    exact .bool true
  · obtain rfl : Value.bool false = v := by simpa using h
    exact .bool false
  · obtain rfl : Value.real .nan = v := by simpa using h
    exact .real _
  · obtain rfl : Value.real (.infinite false) = v := by simpa using h
    exact .real _
  · obtain rfl : Value.real (.infinite true) = v := by simpa using h
    exact .real _
  · exact within_of_number? (by simpa using h) hallows

/-- The tokens that are complete between two tokens. -/
theorem fits_of_openWith {c : Char} {tokens : List Token} {s : State}
    (h : openWith c = some (tokens, s)) : ∀ t ∈ tokens, Fits longest t := by
  unfold openWith at h
  split_ifs at h
  · obtain ⟨rfl, -⟩ : [] = tokens ∧ State.between = s := by simpa using h
    simp
  · obtain ⟨rfl, -⟩ : [] = tokens ∧ State.quoted [] none = s := by simpa using h
    simp
  all_goals
    split at h
    · next t hmark =>
      obtain ⟨rfl, -⟩ : [t] = tokens ∧ State.between = s := by simpa using h
      simpa using fits_of_mark? hmark
    · simp_all

/-- The tokens that one character completes. -/
theorem fits_of_step {s s' : State} {c : Char} {tokens : List Token}
    (h : step longest s c = some (tokens, s')) : ∀ t ∈ tokens, Fits longest t := by
  have hnone : tokens = [] → ∀ t ∈ tokens, Fits longest t := by
    rintro rfl
    simp
  cases s with
  | between => exact fits_of_openWith h
  | word letters =>
      rw [step] at h
      split at h
      · exact hnone (by simpa using (congrArg Prod.fst (Option.some.inj h)).symm)
      · obtain ⟨t, ht, hrest⟩ := Option.bind_eq_some_iff.mp h
        obtain ⟨⟨ts, state⟩, hopen, hlast⟩ := Option.bind_eq_some_iff.mp hrest
        obtain rfl := congrArg Prod.fst (Option.some.inj hlast)
        intro u hu
        rcases List.mem_cons.mp hu with rfl | hu
        · exact fits_of_word? ht
        · exact fits_of_openWith hopen u hu
  | quoted chars high =>
      cases high with
      | none =>
          rw [step] at h
          split_ifs at h
          · obtain rfl := congrArg Prod.fst (Option.some.inj h)
            simpa using fits_text _
          all_goals exact hnone (congrArg Prod.fst (Option.some.inj h)).symm
      | some unit =>
          rw [step] at h
          split_ifs at h
          exact hnone (congrArg Prod.fst (Option.some.inj h)).symm
  | escaped chars high =>
      rw [step] at h
      split_ifs at h
      · exact hnone (congrArg Prod.fst (Option.some.inj h)).symm
      · obtain ⟨_, _, hlast⟩ := Option.map_eq_some_iff.mp h
        exact hnone (congrArg Prod.fst hlast).symm
  | unit chars high digits =>
      obtain ⟨_, _, hrest⟩ := Option.bind_eq_some_iff.mp h
      dsimp only at hrest
      split at hrest
      · exact hnone (congrArg Prod.fst (Option.some.inj hrest)).symm
      · obtain ⟨_, _, hlast⟩ := Option.bind_eq_some_iff.mp hrest
        exact hnone (congrArg Prod.fst (Option.some.inj hlast)).symm

/-- The tokens that are read of a text. -/
theorem fits_of_foldlM_read {text : List Char} {p q : Progress}
    (h : text.foldlM (Progress.read longest) p = some q) (hp : ∀ t ∈ p.tokens, Fits longest t) :
    ∀ t ∈ q.tokens, Fits longest t := by
  induction text generalizing p with
  | nil =>
      obtain rfl := Option.some.inj h
      exact hp
  | cons c rest ih =>
      rw [List.foldlM_cons] at h
      obtain ⟨r, hread, hrest⟩ := Option.bind_eq_some_iff.mp h
      obtain ⟨⟨tokens, state⟩, hstep, hr⟩ := Option.bind_eq_some_iff.mp hread
      obtain rfl := Option.some.inj hr
      refine ih hrest fun t ht => ?_
      rcases List.mem_append.mp ht with ht | ht
      · exact fits_of_step hstep t (List.mem_reverse.mp ht)
      · exact hp t ht

/-- The tokens of a text. -/
theorem fits_of_scan? {text : List Char} {tokens : List Token}
    (h : scan? longest text = some tokens) : ∀ t ∈ tokens, Fits longest t := by
  obtain ⟨p, hp, hfinish⟩ := Option.bind_eq_some_iff.mp h
  have hread := fits_of_foldlM_read hp (by simp)
  unfold Progress.finish? at hfinish
  split at hfinish
  · obtain rfl := Option.some.inj hfinish
    exact fun t ht => hread t (List.mem_reverse.mp ht)
  · obtain ⟨last, hlast, rfl⟩ := Option.map_eq_some_iff.mp hfinish
    intro t ht
    rcases List.mem_cons.mp (List.mem_reverse.mp ht) with rfl | ht
    · exact fits_of_word? hlast
    · exact hread t ht
  · exact nomatch hfinish

end Token

/-- What is open around the place where a value may come. -/
def Frame.Within (longest : Option Nat) : Frame → Prop
  | .list items => ∀ v ∈ items, Json.Within longest v
  | .dict fields _ => ∀ pair ∈ fields, Json.Within longest pair.2

/-- Everything that was read is within a limit. -/
def State.Within (longest : Option Nat) : State → Prop
  | .value stack _ => ∀ f ∈ stack, f.Within longest
  | .key fields stack _ | .colon fields _ stack | .afterField fields stack =>
      (∀ pair ∈ fields, Json.Within longest pair.2) ∧ ∀ f ∈ stack, f.Within longest
  | .afterItem items stack => (∀ v ∈ items, Json.Within longest v) ∧ ∀ f ∈ stack, f.Within longest
  | .done v => Json.Within longest v

/-- A value is put where it belongs. -/
theorem within_place {v : Value} (hv : Within longest v) {stack : List Frame}
    (hstack : ∀ f ∈ stack, f.Within longest) : (place v stack).Within longest := by
  cases stack with
  | nil => exact hv
  | cons frame rest =>
      have hframe := hstack frame List.mem_cons_self
      have hrest : ∀ f ∈ rest, f.Within longest := fun f hf => hstack f (List.mem_cons_of_mem _ hf)
      cases frame with
      | list items => exact ⟨List.forall_mem_cons.mpr ⟨hv, hframe⟩, hrest⟩
      | dict fields key => exact ⟨List.forall_mem_cons.mpr ⟨hv, hframe⟩, hrest⟩

/-- A token is taken where a value may begin. -/
theorem within_beginValue {depth : Nat} {stack : List Frame} {t : Token} {s : State}
    (hstack : ∀ f ∈ stack, f.Within longest) (ht : t.Fits longest)
    (h : beginValue depth stack t = some s) : s.Within longest := by
  unfold beginValue at h
  split at h
  · next v =>
    obtain rfl := Option.some.inj h
    exact within_place (ht v rfl) hstack
  · obtain ⟨-, rfl⟩ : stack.length < depth ∧ State.value (.list [] :: stack) true = s := by
      simpa using h
    exact List.forall_mem_cons.mpr ⟨List.forall_mem_nil _, hstack⟩
  · obtain ⟨-, rfl⟩ : stack.length < depth ∧ State.key [] stack true = s := by
      simpa using h
    exact ⟨List.forall_mem_nil _, hstack⟩
  · exact nomatch h

/-- A token is taken. -/
theorem within_step {depth : Nat} {s s' : State} {t : Token} (hs : s.Within longest)
    (ht : t.Fits longest) (h : step depth s t = some s') : s'.Within longest := by
  have hdict {fields : List (String × Value)} (hfields : ∀ pair ∈ fields, Within longest pair.2) :
      Within longest (Value.ofFields fields.reverse) :=
    within_ofFields fun pair hpair => hfields pair (List.mem_reverse.mp hpair)
  unfold step at h
  split at h
  · obtain rfl := Option.some.inj h
    exact within_place (.list (by simp)) fun f hf => hs f (List.mem_cons_of_mem _ hf)
  · exact within_beginValue hs ht h
  · obtain rfl := Option.some.inj h
    exact hs
  · obtain rfl := Option.some.inj h
    exact within_place (hdict hs.1) hs.2
  · obtain rfl := Option.some.inj h
    exact List.forall_mem_cons.mpr hs
  · obtain rfl := Option.some.inj h
    exact List.forall_mem_cons.mpr hs
  · obtain rfl := Option.some.inj h
    exact within_place (.list fun v hv => hs.1 v (List.mem_reverse.mp hv)) hs.2
  · obtain rfl := Option.some.inj h
    exact hs
  · obtain rfl := Option.some.inj h
    exact within_place (hdict hs.1) hs.2
  · exact nomatch h

/-- All tokens are taken. -/
theorem within_foldlM_step {depth : Nat} {tokens : List Token} {s s' : State}
    (htokens : ∀ t ∈ tokens, t.Fits longest) (hs : s.Within longest)
    (h : tokens.foldlM (step depth) s = some s') : s'.Within longest := by
  induction tokens generalizing s with
  | nil =>
      obtain rfl := Option.some.inj h
      exact hs
  | cons t rest ih =>
      rw [List.foldlM_cons] at h
      obtain ⟨r, hstep, hrest⟩ := Option.bind_eq_some_iff.mp h
      exact ih (fun u hu => htokens u (List.mem_cons_of_mem t hu))
        (within_step hs (htokens t List.mem_cons_self) hstep) hrest

/-- What is read with a limit is within it. -/
theorem within_of_readWithin? {depth : Nat} {text : String} {v : Value}
    (h : readWithin? longest depth text = some v) : Within longest v := by
  obtain ⟨tokens, htokens, hvalue⟩ := Option.bind_eq_some_iff.mp h
  unfold ofTokens? at hvalue
  split at hvalue
  · next w hfold =>
    obtain rfl := Option.some.inj hvalue
    exact within_foldlM_step (Token.fits_of_scan? htokens) (s := .value [] false)
      (fun f hf => nomatch hf) hfold
  · exact nomatch hvalue

/-! ## The documents that read back -/

/-- A document within a limit is plain for a reader with that limit. -/
theorem Plain.limit {depth : Nat} {v : Value} (hv : Plain none depth v) (hw : Within longest v) :
    Plain longest depth v := by
  induction hv with
  | null => exact .null
  | bool b => exact .bool b
  | int _ =>
      cases hw with
      | int hlength => exact .int hlength
  | text s => exact .text s
  | list _ ih =>
      cases hw with
      | list hitems => exact .list fun v hv => ih v hv (hitems v hv)
  | dict hkeys _ ih =>
      cases hw with
      | dict hfields => exact .dict hkeys fun pair hpair => ih pair hpair (hfields pair hpair)

/-- A written document reads back if its numbers are short enough, and is refused
otherwise. -/
theorem readWithin?_write_cases (charset : Charset) {depth : Nat} {v : Value}
    (hv : Plain none depth v) :
    (Within longest v →
      readWithin? longest depth (String.ofList (write charset v)) = some v) ∧
    (¬Within longest v → readWithin? longest depth (String.ofList (write charset v)) = none) := by
  refine ⟨fun hw => readWithin?_write charset (hv.limit hw), fun hw => ?_⟩
  cases hread : readWithin? longest depth (String.ofList (write charset v)) with
  | none => rfl
  | some w =>
      have hplain := readWithin?_write charset hv
      rw [readWithin?_unlimited hread] at hplain
      obtain rfl := Option.some.inj hplain
      exact absurd (within_of_readWithin? hread) hw

end Json

end StakeLedger
