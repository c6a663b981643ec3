import Mathlib.Data.List.Induction
import StakeLedger.Http.Endpoint
import StakeLedger.Proofs.Text.Utf8

/-!
# Parameters read back

A query spells the names and values of its parameters, each character bare, as a plus
sign, or as escaped octets, whichever its client prefers.  However it is spelled, it is
read as the parameters, and these ask for one query of each operation.

Main definitions:

- {lit}`Http.Spells`: the spellings of a text.
- {lit}`Http.Parameters.Spelled`: the spellings of parameters.
- {lit}`Http.Parameters.Gives`: the value that parameters give to a name.
- {lit}`Http.Parameters.Asks`: the query that parameters ask for.

Main results:

- Theorem {lit}`Http.Parameters.parse_append`: a query is read piece by piece.
- Theorem {lit}`Http.Parameters.parse_of_spelled`: a spelled query reads back.
- Theorem {lit}`Http.Parameters.exists_spelled`: all parameters can be spelled.
- Theorem {lit}`Http.Parameters.queryOf_eq_iff_asks`: which parameters ask for a query.
-/

namespace StakeLedger

namespace Http

/-! ## Spelled texts -/

/-- The characters that may stand for themselves in a query. -/
def isBare (c : Char) : Bool :=
  c.isAlphanum || "-._~!$'()*,;:@/?=".toList.contains c

/-- Octets, each as a percent sign and two hexadecimal digits of either case. -/
inductive Escapes : Octets → List Char → Prop where
  | nil : Escapes [] []
  | cons {b : UInt8} {high low : Char} {h l : Nat} {octets : Octets} {text : List Char}
      (hhigh : Hex.value? high = some h) (hlow : Hex.value? low = some l)
      (hb : 16 * h + l = b.toNat) (hrest : Escapes octets text) :
      Escapes (b :: octets) ('%' :: high :: low :: text)

/-- The spellings of a text: each character stands for itself, or is a blank spelled as
a plus sign, or is spelled as the octets of UTF-8. -/
inductive Spells : List Char → List Char → Prop where
  | nil : Spells [] []
  | bare {c : Char} {text spelling : List Char} (hc : isBare c = true)
      (hrest : Spells text spelling) : Spells (c :: text) (c :: spelling)
  | plus {text spelling : List Char} (hrest : Spells text spelling) :
      Spells (' ' :: text) ('+' :: spelling)
  | escaped {c : Char} {escape text spelling : List Char}
      (hc : Escapes (Utf8.encodeChar c) escape) (hrest : Spells text spelling) :
      Spells (c :: text) (escape ++ spelling)

/-- Escaped octets are read as octets. -/
theorem unescapeOctets_of_escapes {octets : Octets} {escape : List Char}
    (h : Escapes octets escape) (rest : List Char) :
    unescapeOctets (escape ++ rest) = octets ++ unescapeOctets rest := by
  induction h with
  | nil => rfl
  | cons hhigh hlow hb _ ih =>
      simp only [List.cons_append, unescapeOctets, hhigh, hlow, ih, hb, UInt8.ofNat_toNat]

/-- A character that may stand for itself is none of the others. -/
theorem ne_of_isBare {c d : Char} (hc : isBare c = true) (hd : isBare d = false) : c ≠ d := by
  rintro rfl
  exact Bool.false_ne_true (hd.symm.trans hc)

/-- A character that may stand for itself is read as itself. -/
theorem unescapeOctets_bare {c : Char} (hc : isBare c = true) (rest : List Char) :
    unescapeOctets (c :: rest) = Utf8.encodeChar c ++ unescapeOctets rest := by
  have hpercent : c ≠ '%' := ne_of_isBare hc (by decide)
  have hplus : c ≠ '+' := ne_of_isBare hc (by decide)
  rw [unescapeOctets]
  · exact fun _ _ _ h _ => hpercent h
  · exact hplus

/-- A spelling is read as the octets of its text. -/
theorem unescapeOctets_of_spells {text spelling : List Char} (h : Spells text spelling) :
    unescapeOctets spelling = Utf8.encode text := by
  induction h with
  | nil => rfl
  | bare hc _ ih => rw [unescapeOctets_bare hc, ih, Utf8.encode, Utf8.encode, List.flatMap_cons]
  | plus _ ih => rw [unescapeOctets, ih, Utf8.encode, Utf8.encode, List.flatMap_cons]
  | escaped hc _ ih =>
      rw [unescapeOctets_of_escapes hc, ih, Utf8.encode, Utf8.encode, List.flatMap_cons]

/-- A spelling is read as its text. -/
theorem unescape_of_spells {text : String} {spelling : List Char}
    (h : Spells text.toList spelling) : unescape spelling = text := by
  have hread : Utf8.decodeLossy (Utf8.encode text.toList) = text.toList := by
    simp only [Utf8.decodeLossy, Utf8.scan_encode, List.map_map, Function.comp_def,
      Option.getD_some, List.map_id']
  rw [unescape, unescapeOctets_of_spells h, hread, String.ofList_toList]

/-- Characters of an escape are percent signs and hexadecimal digits. -/
theorem Escapes.of_mem {octets : Octets} {escape : List Char} (h : Escapes octets escape)
    {c : Char} (hc : c ∈ escape) : c = '%' ∨ (Hex.value? c).isSome = true := by
  induction h with
  | nil => exact absurd hc List.not_mem_nil
  | cons hhigh hlow _ _ ih =>
      simp only [List.mem_cons] at hc
      rcases hc with rfl | rfl | rfl | hc
      · exact Or.inl rfl
      · exact Or.inr (by rw [hhigh]; rfl)
      · exact Or.inr (by rw [hlow]; rfl)
      · exact ih hc

/-- A spelling has no ampersands. -/
theorem Spells.ampersand_notMem {text spelling : List Char} (h : Spells text spelling) :
    '&' ∉ spelling := by
  induction h with
  | nil => exact List.not_mem_nil
  | bare hc _ ih =>
      rw [List.mem_cons, not_or]
      exact ⟨(ne_of_isBare hc (by decide)).symm, ih⟩
  | plus _ ih =>
      rw [List.mem_cons, not_or]
      exact ⟨by decide, ih⟩
  | escaped hc _ ih =>
      rw [List.mem_append, not_or]
      exact ⟨fun hmem => absurd (hc.of_mem hmem) (by decide), ih⟩

/-- A text of bare characters spells itself. -/
theorem spells_self {text : List Char} (h : ∀ c ∈ text, isBare c = true) : Spells text text := by
  induction text with
  | nil => exact .nil
  | cons c rest ih =>
      exact .bare (h c List.mem_cons_self) (ih fun d hd => h d (List.mem_cons_of_mem c hd))

/-- Octets can be escaped. -/
theorem exists_escapes (octets : Octets) : ∃ escape, Escapes octets escape := by
  induction octets with
  | nil => exact ⟨[], .nil⟩
  | cons b rest ih =>
      obtain ⟨escape, hescape⟩ := ih
      have hb : b.toNat < 256 := b.toNat_lt
      exact ⟨_, .cons (Hex.value?_digit (b.toNat / 16) (by omega))
        (Hex.value?_digit (b.toNat % 16) (by omega)) (by omega) hescape⟩

/-- A text can be spelled without equals signs. -/
theorem exists_spells (text : List Char) : ∃ spelling, Spells text spelling ∧ '=' ∉ spelling := by
  induction text with
  | nil => exact ⟨[], .nil, List.not_mem_nil⟩
  | cons c rest ih =>
      obtain ⟨spelling, hspelling, hequals⟩ := ih
      obtain ⟨escape, hescape⟩ := exists_escapes (Utf8.encodeChar c)
      refine ⟨escape ++ spelling, .escaped hescape hspelling, ?_⟩
      rw [List.mem_append, not_or]
      exact ⟨fun hmem => absurd (hescape.of_mem hmem) (by decide), hequals⟩

namespace Parameters

/-! ## Spelled parameters -/

/-- The spellings of parameters: names and values with equals signs between them and
ampersands between the pairs.  A name has no bare equals sign, but a value may. -/
inductive Spelled : Parameters → String → Prop where
  | empty : Spelled [] ""
  | single {name value : String} {before after : List Char} (hname : Spells name.toList before)
      (hequals : '=' ∉ before) (hvalue : Spells value.toList after) :
      Spelled [(name, value)] (String.ofList (before ++ '=' :: after))
  | append {ps qs : Parameters} {first second : String} (hfirst : Spelled ps first)
      (hsecond : Spelled qs second) : Spelled (ps ++ qs) (first ++ "&" ++ second)

/-- A query is read piece by piece. -/
theorem parse_append (first second : String) :
    parse (first ++ "&" ++ second) = parse first ++ parse second := by
  have hlist : (first ++ "&" ++ second).toList = first.toList ++ '&' :: second.toList := by
    simp [String.toList_append]
  rw [parse, hlist, pieces_append, List.filter_append, List.map_append, parse, parse]

/-- A name and a value are told apart at the first equals sign. -/
theorem pair_of_spells {name value : String} {before after : List Char}
    (hname : Spells name.toList before) (hequals : '=' ∉ before)
    (hvalue : Spells value.toList after) : pair (before ++ '=' :: after) = (name, value) := by
  have hall : ∀ c ∈ before, decide (c ≠ '=') = true := by
    intro c hc
    rw [decide_eq_true_eq]
    rintro rfl
    exact hequals hc
  have htake : (before ++ '=' :: after).takeWhile (· ≠ '=') = before := by
    rw [List.takeWhile_append_of_pos hall]
    simp
  have hdrop : (before ++ '=' :: after).dropWhile (· ≠ '=') = '=' :: after := by
    rw [List.dropWhile_append_of_pos hall]
    simp
  rw [pair, htake, hdrop, unescape_of_spells hname, List.drop_one, List.tail_cons,
    unescape_of_spells hvalue]

/-- A spelled query is read as its parameters, in their order. -/
theorem parse_of_spelled {ps : Parameters} {query : String} (h : ps.Spelled query) :
    parse query = ps := by
  induction h with
  | empty => rfl
  | @single name value before after hname hequals hvalue =>
      have hnone : '&' ∉ before ++ '=' :: after := by
        rw [List.mem_append, List.mem_cons, not_or, not_or]
        exact ⟨hname.ampersand_notMem, by decide, hvalue.ampersand_notMem⟩
      rw [parse, String.toList_ofList, pieces_of_notMem hnone]
      simp [pair_of_spells hname hequals hvalue]
  | append _ _ hfirst hsecond => rw [parse_append, hfirst, hsecond]

-- Escapes, a plus sign, and an equals sign in a value.
example : parse "a=%C3%A9+%3d&b==" = [("a", "é ="), ("b", "=")] := by decide

/-- All parameters can be spelled. -/
theorem exists_spelled (ps : Parameters) : ∃ query, ps.Spelled query := by
  induction ps with
  | nil => exact ⟨"", .empty⟩
  | cons p rest ih =>
      obtain ⟨query, hquery⟩ := ih
      obtain ⟨before, hname, hequals⟩ := exists_spells p.1.toList
      obtain ⟨after, hvalue, -⟩ := exists_spells p.2.toList
      exact ⟨_, .append (.single hname hequals hvalue) hquery⟩

/-! ## Values of names -/

/-- The value that parameters give to a name: the empty one if the name is missing, and
otherwise the last one. -/
inductive Gives (ps : Parameters) (name : String) : String → Prop where
  | missing (h : ∀ value, (name, value) ∉ ps) : Gives ps name ""
  | last (before after : Parameters) {value : String} (hps : ps = before ++ (name, value) :: after)
      (h : ∀ other, (name, other) ∉ after) : Gives ps name value

/-- A name that is missing is not looked up. -/
theorem lookup_reverse_of_missing {ps : Parameters} {name : String}
    (h : ∀ value, (name, value) ∉ ps) : ps.reverse.lookup name = none := by
  rw [List.lookup_eq_none_iff]
  rintro ⟨other, value⟩ hmem
  rw [bne_iff_ne]
  rintro rfl
  exact h value (List.mem_reverse.mp hmem)

/-- The value that is given to a name. -/
theorem value_of_gives {ps : Parameters} {name value : String} (h : ps.Gives name value) :
    ps.value name = value := by
  cases h with
  | missing h => rw [Parameters.value, lookup_reverse_of_missing h, Option.getD_none]
  | last before after hps h =>
      rw [Parameters.value, hps, List.reverse_append, List.reverse_cons, List.lookup_append,
        List.lookup_append, lookup_reverse_of_missing h]
      simp

/-- Another pair behind does not change what is given to a name. -/
theorem Gives.append_singleton {ps : Parameters} {name value other : String}
    (h : ps.Gives name value) {rest : String} (hother : name ≠ other) :
    (ps ++ [(other, rest)]).Gives name value := by
  cases h with
  | missing h =>
      refine .missing fun value hmem => ?_
      rw [List.mem_append, List.mem_singleton, Prod.mk.injEq] at hmem
      exact hmem.elim (h value) fun heq => hother heq.1
  | last before after hps h =>
      refine .last before (after ++ [(other, rest)]) (by simp [hps]) ?_
      intro value hmem
      rw [List.mem_append, List.mem_singleton, Prod.mk.injEq] at hmem
      exact hmem.elim (h value) fun heq => hother heq.1

/-- Some value is given to every name. -/
theorem exists_gives (ps : Parameters) (name : String) : ∃ value, ps.Gives name value := by
  induction ps using List.reverseRecOn with
  | nil => exact ⟨"", .missing fun _ => List.not_mem_nil⟩
  | append_singleton rest p ih =>
      obtain ⟨other, value⟩ := p
      by_cases hother : name = other
      · subst hother
        exact ⟨value, .last rest [] rfl fun _ => List.not_mem_nil⟩
      · exact ih.imp fun _ hgives => hgives.append_singleton hother

/-- Values are the ones that are given. -/
theorem value_eq_iff_gives {ps : Parameters} {name value : String} :
    ps.value name = value ↔ ps.Gives name value := by
  constructor
  · rintro rfl
    obtain ⟨given, hgiven⟩ := ps.exists_gives name
    rwa [value_of_gives hgiven]
  · exact value_of_gives

/-! ## Queries of parameters -/

/-- Parameters that ask for a query.  The key of a staker whose delegations are counted
may stand under the name of a provider's key, which counts exactly when no key of a
staker is given or an empty one is. -/
def Asks (ps : Parameters) : Query → Prop
  | .listDelegations staker paginationKey =>
      ps.Gives "staker_btc_pk" staker ∧ ps.Gives "pagination_key" paginationKey
  | .countStakers provider => ps.Gives "finality_provider_pk_hex" provider
  | .countProviderDelegations provider => ps.Gives "finality_provider_pk_hex" provider
  | .countStakerDelegations staker =>
      (ps.Gives "staker_btc_pk" staker ∧ staker ≠ "") ∨
        (ps.Gives "staker_btc_pk" "" ∧ ps.Gives "finality_provider_pk_hex" staker)
  | .checkActivity address timeframe =>
      ps.Gives "address" address ∧ ps.Gives "timeframe" timeframe
  | .findDelegation txHash => ps.Gives "staking_tx_hash_hex" txHash

/-- The first text unless it is empty, and then the second one. -/
theorem orElse_eq_iff {first second text : String} :
    orElse first second = text ↔ (first = text ∧ text ≠ "") ∨ (first = "" ∧ second = text) := by
  unfold orElse
  split
  · rename_i hempty
    subst hempty
    constructor
    · exact fun h => Or.inr ⟨rfl, h⟩
    · rintro (⟨rfl, hne⟩ | ⟨-, h⟩)
      · exact absurd rfl hne
      · exact h
  · rename_i hne
    constructor
    · rintro rfl
      exact Or.inl ⟨rfl, hne⟩
    · rintro (⟨h, -⟩ | ⟨hempty, -⟩)
      · exact h
      · exact absurd hempty hne

/-- The query of an operation that is made of parameters is the one that they ask for. -/
theorem queryOf_eq_iff_asks {ps : Parameters} {q : Query} :
    queryOf q.operation ps = q ↔ ps.Asks q := by
  cases q with
  | listDelegations staker paginationKey =>
      simp [Query.operation, queryOf, Asks, value_eq_iff_gives]
  | countStakers provider => simp [Query.operation, queryOf, Asks, value_eq_iff_gives]
  | countProviderDelegations provider =>
      simp [Query.operation, queryOf, Asks, value_eq_iff_gives]
  | countStakerDelegations staker =>
      simp [Query.operation, queryOf, Asks, orElse_eq_iff, value_eq_iff_gives]
  | checkActivity address timeframe =>
      simp [Query.operation, queryOf, Asks, value_eq_iff_gives]
  | findDelegation txHash => simp [Query.operation, queryOf, Asks, value_eq_iff_gives]

/-- Parameters ask for exactly one query of an operation. -/
theorem existsUnique_asks (op : Operation) (ps : Parameters) :
    ∃! q : Query, q.operation = op ∧ ps.Asks q := by
  have hop : (queryOf op ps).operation = op := by cases op <;> rfl
  refine ⟨queryOf op ps, ⟨hop, ?_⟩, ?_⟩
  · rw [← queryOf_eq_iff_asks, hop]
  · rintro q ⟨rfl, hasks⟩
    exact (queryOf_eq_iff_asks.mpr hasks).symm

/-- A single pair gives its value to its name. -/
theorem gives_single (name value : String) : Gives [(name, value)] name value :=
  .last [] [] rfl fun _ => List.not_mem_nil

/-- Of two pairs with different names, each gives its value to its name. -/
theorem gives_pair {name other : String} (hne : name ≠ other) (value rest : String) :
    Gives [(name, value), (other, rest)] name value ∧
      Gives [(name, value), (other, rest)] other rest :=
  ⟨(gives_single name value).append_singleton hne,
    .last [(name, value)] [] rfl fun _ => List.not_mem_nil⟩

/-- Some parameters ask for every query. -/
theorem exists_asks (q : Query) : ∃ ps : Parameters, ps.Asks q := by
  cases q with
  | listDelegations staker paginationKey =>
      exact ⟨_, gives_pair (by decide) staker paginationKey⟩
  | countStakers provider => exact ⟨_, gives_single _ provider⟩
  | countProviderDelegations provider => exact ⟨_, gives_single _ provider⟩
  | countStakerDelegations staker =>
      exact ⟨_, Or.inr (gives_pair (by decide) "" staker)⟩
  | checkActivity address timeframe => exact ⟨_, gives_pair (by decide) address timeframe⟩
  | findDelegation txHash => exact ⟨_, gives_single _ txHash⟩

end Parameters

end Http

end StakeLedger
