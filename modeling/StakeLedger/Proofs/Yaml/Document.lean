import StakeLedger.Proofs.Json.Document
import StakeLedger.Proofs.Yaml.Section
import StakeLedger.Yaml.Document

/-!
# Reading written sections

The tokens of a section make up the tree of a mapping in a mapping.  The tree has no
faults, and its value is the value of the section.

Main definitions:

- {lit}`Yaml.Entry.node`, {lit}`Yaml.Section.node`: the nodes of entries and sections.

Main results:

- Theorem {lit}`Yaml.Section.read_write`: a written section is read as its value.
-/

namespace StakeLedger.Yaml

open Node Cutter

/-! ## Steps of building -/

namespace Node

variable {α β : Type} {p q : Progress} {ts : List Token} {t : Token}

/-- A step before others. -/
theorem bind_ok {x : Builder α} {a : α} (h : x p = .ok (a, q)) (f : α → Builder β) :
    (x >>= f) p = f a q := by
  simp [bind, StateT.bind, h, Except.bind]

/-- What is left of the tokens of a document. -/
def Progress.on (p : Progress) (ts : List Token) : Progress :=
  { p with tokens := ts }

/-- The next token is seen. -/
theorem peek_cons : peek (p.on (t :: ts)) = .ok (t, p.on (t :: ts)) :=
  rfl

/-- The next token is passed. -/
theorem pass_cons : pass (p.on (t :: ts)) = .ok ((), p.on ts) :=
  rfl

/-- A token that is given is passed. -/
theorem passIf_same : passIf t (p.on (t :: ts)) = .ok (true, p.on ts) := by
  have hnext : isNext t (p.on (t :: ts)) = .ok (true, p.on (t :: ts)) := by
    rw [isNext, bind_ok peek_cons, beq_self_eq_true]
    rfl
  rw [passIf, bind_ok hnext]
  rfl

/-- A token that is another one stays. -/
theorem passIf_other {other : Token} (h : t ≠ other) :
    passIf other (p.on (t :: ts)) = .ok (false, p.on (t :: ts)) := by
  have hnext : isNext other (p.on (t :: ts)) = .ok (false, p.on (t :: ts)) := by
    rw [isNext, bind_ok peek_cons, beq_eq_false_iff_ne.mpr h]
    rfl
  rw [passIf, bind_ok hnext]
  rfl

/-- Whether a token is no property. -/
def isContent : Token → Bool
  | .anchor _ => false
  | .tag _ _ => false
  | _ => true

/-- There are no properties before what is none. -/
theorem properties_of_isContent (h : isContent t = true) :
    properties (p.on (t :: ts)) = .ok ({}, p.on (t :: ts)) := by
  cases t <;> first | rfl | cases h

/-- A collection without properties. -/
theorem sequenceWith_ok {items : Builder (List Node)} {nodes : List Node}
    (h : items p = .ok (nodes, q)) :
    sequenceWith {} items p = .ok (.sequence (.known .sequence) nodes, q) := by
  have hcheck : checkAnchor none p = .ok ((), p) := rfl
  have hnote : note none (.enclosing false) p = .ok ((), p) := rfl
  rw [sequenceWith, bind_ok hcheck, bind_ok hnote, bind_ok h]
  rfl

/-- A mapping without properties. -/
theorem mappingWith_ok {pairs : Builder (List (Node × Node))} {nodes : List (Node × Node)}
    (h : pairs p = .ok (nodes, q)) :
    mappingWith {} pairs p = .ok (.mapping (.known .mapping) nodes, q) := by
  have hcheck : checkAnchor none p = .ok ((), p) := rfl
  have hnote : note none (.enclosing true) p = .ok ((), p) := rfl
  rw [mappingWith, bind_ok hcheck, bind_ok hnote, bind_ok h]
  rfl

/-! ## Nodes of a section -/

/-- A scalar. -/
theorem build_scalar (text : String) (plain block unindented : Bool) (n : Nat) :
    build block unindented (n + 1) (p.on (.scalar text plain :: ts)) =
      .ok (.scalar (scalarTag none text plain) text, p.on ts) := by
  rw [build, bind_ok peek_cons]
  dsimp only
  rw [bind_ok (properties_of_isContent rfl), bind_ok peek_cons]
  dsimp only
  rw [bind_ok pass_cons]
  rfl

/-- The node of a text. -/
def textNode (text : String) : Node :=
  .scalar (.known .text) text

/-- Pairs of texts and the nodes of what stands under them. -/
def memberPairs {α : Type} (members : List (String × α)) (node : α → Node) : List (Node × Node) :=
  members.map fun member => (textNode member.1, node member.2)

/-- The token of a text is one. -/
theorem build_textToken (text : String) (block unindented : Bool) (n : Nat) :
    build block unindented (n + 1) (p.on (textToken text :: ts)) =
      .ok (textNode text, p.on ts) := by
  have htag : scalarTag none text (Style.ofText text.toList == .plain) = .known .text := by
    rcases Style.ofText_cases text.toList with ⟨hstyle, hplain⟩ | hstyle | ⟨hstyle, -⟩
    · have hkind : Kind.ofPlain text.toList = .text := by
        simp only [Style.isPlain, Bool.and_eq_true, beq_iff_eq] at hplain
        exact hplain.1.1.1.1.1.1
      simp [scalarTag, hstyle, hkind]
    · simp [scalarTag, hstyle]
    · simp [scalarTag, hstyle]
  rw [textToken, build_scalar, htag, textNode]

/-- Items without indentation. -/
theorem unindentedItems_texts (items : List String) (ht : t ≠ .blockEntry) {n : Nat}
    (hn : items.length + 1 < n) :
    unindentedItems n
      (p.on ((items.flatMap fun item => [.blockEntry, textToken item]) ++ t :: ts)) =
      .ok (items.map textNode, p.on (t :: ts)) := by
  induction items generalizing n with
  | nil =>
      obtain ⟨n, rfl⟩ := Nat.exists_eq_add_one.mpr (by omega : 0 < n)
      rw [unindentedItems, List.flatMap_nil, List.nil_append, bind_ok (passIf_other ht)]
      rfl
  | cons item rest ih =>
      rw [List.length_cons] at hn
      obtain ⟨n, rfl⟩ : ∃ m, n = m + 2 := ⟨n - 2, by omega⟩
      have hnext : (endsItem (textToken item) || endsMember (textToken item)) = false := rfl
      rw [unindentedItems, List.flatMap_cons, List.append_assoc, List.cons_append, List.cons_append,
        List.nil_append, bind_ok passIf_same, if_pos rfl, bind_ok peek_cons, hnext,
        if_neg Bool.false_ne_true, bind_ok (build_textToken item true false n)]
      dsimp only
      rw [bind_ok (ih (by omega))]
      rfl

end Node

/-- The node of an entry. -/
def Entry.node : Entry → Node
  | .int n => .scalar (.known .int) (toString n)
  | .real x => .scalar (.known .real) (String.ofList (Layout.yaml.write x))
  | .text s => textNode s
  | .texts items => .sequence (.known .sequence) (items.map textNode)

/-- An entry begins with its first token. -/
theorem Entry.exists_tokens (entry : Entry) :
    ∃ t ts, entry.tokens = t :: ts ∧ endsMember t = false := by
  cases entry with
  | texts items => cases items <;> exact ⟨_, _, rfl, rfl⟩
  | _ => exact ⟨_, _, rfl, rfl⟩

namespace Node

variable {p : Progress} {ts : List Token} {t : Token}

/-- A number that stands plainly. -/
theorem build_plain {text : String} {kind : Kind} (hkind : Kind.ofPlain text.toList = kind)
    (block unindented : Bool) (n : Nat) :
    build block unindented (n + 1) (p.on (.scalar text true :: ts)) =
      .ok (.scalar (.known kind) text, p.on ts) := by
  rw [build_scalar, scalarTag, if_pos rfl, hkind]

/-- A sequence in flow style without items. -/
theorem build_noItems (block unindented : Bool) (n : Nat) :
    build block unindented (n + 2) (p.on (.flowSequence :: .flowSequenceEnd :: ts)) =
      .ok (.sequence (.known .sequence) [], p.on ts) := by
  have hitems : (do pass; flowItems true (n + 1) : Builder (List Node))
      (p.on (.flowSequence :: .flowSequenceEnd :: ts)) = .ok ([], p.on ts) := by
    rw [bind_ok pass_cons, flowItems, bind_ok passIf_same]
    rfl
  rw [build, bind_ok peek_cons]
  dsimp only
  rw [bind_ok (properties_of_isContent rfl), bind_ok peek_cons]
  exact sequenceWith_ok hitems

/-- A sequence in block style without indentation. -/
theorem build_unindented {items : List Node} {q : Progress} {n : Nat}
    (h : unindentedItems n (p.on (.blockEntry :: ts)) = .ok (items, q)) (block : Bool) :
    build block true (n + 1) (p.on (.blockEntry :: ts)) =
      .ok (.sequence (.known .sequence) items, q) := by
  rw [build, bind_ok peek_cons]
  dsimp only
  rw [bind_ok (properties_of_isContent rfl), bind_ok peek_cons]
  exact sequenceWith_ok h

/-- The node of an entry is built from its tokens. -/
theorem build_entry (entry : Entry) (ht : t ≠ .blockEntry) {n : Nat}
    (hn : entry.tokens.length + 2 ≤ n) :
    build true true n (p.on (entry.tokens ++ t :: ts)) = .ok (entry.node, p.on (t :: ts)) := by
  obtain ⟨n, rfl⟩ : ∃ m, n = m + 2 := ⟨n - 2, by omega⟩
  cases entry with
  | int m => exact build_plain (ofPlain_int m) true true (n + 1)
  | real x =>
      have hkind : Kind.ofPlain (String.ofList (Layout.yaml.write x)).toList = .real := by
        rw [String.toList_ofList, ofPlain_write]
      exact build_plain hkind true true (n + 1)
  | text s => exact build_textToken s true true (n + 1)
  | texts items =>
      cases items with
      | nil => exact build_noItems true true n
      | cons item rest =>
          have hlength : (Entry.texts (item :: rest)).tokens.length = 2 * (rest.length + 1) := by
            simp [Entry.tokens, List.length_flatMap]
            omega
          refine build_unindented ?_ true
          exact unindentedItems_texts (item :: rest) ht (by rw [List.length_cons]; omega)

/-- The end of a mapping. -/
theorem blockPairs_end (n : Nat) :
    blockPairs (n + 1) (p.on (.blockEnd :: ts)) = .ok ([], p.on ts) := by
  rw [blockPairs, bind_ok peek_cons]
  rfl

/-- A member whose key is a name. -/
theorem blockPairs_member {key : String} (hkey : IsName key.toList) (ht : endsMember t = false)
    {node : Node} {pairs : List (Node × Node)} {q r : Progress} {n : Nat}
    (hnode : build true true (n + 1) (p.on (t :: ts)) = .ok (node, q))
    (hpairs : blockPairs (n + 1) q = .ok (pairs, r)) :
    blockPairs (n + 2) (p.on (.key :: .scalar key true :: .value :: t :: ts)) =
      .ok ((textNode key, node) :: pairs, r) := by
  have htag : scalarTag none key true = .known .text := by
    simp [scalarTag, hkey.kind]
  have hscalar : endsMember (.scalar key true) = false := rfl
  rw [blockPairs, bind_ok peek_cons]
  dsimp only
  rw [bind_ok pass_cons, bind_ok peek_cons, hscalar, if_neg Bool.false_ne_true,
    bind_ok (build_scalar key true true true n), htag, bind_ok passIf_same, if_pos rfl,
    bind_ok peek_cons, ht, if_neg Bool.false_ne_true, bind_ok hnode, bind_ok hpairs]
  rfl

/-- The pairs of a section are built from the tokens of its members. -/
theorem blockPairs_members (members : List (String × Entry))
    (hkeys : ∀ member ∈ members, IsName member.1.toList) {n : Nat}
    (hn : (members.flatMap fun (key, entry) => Section.memberTokens key entry).length + 3 ≤ n) :
    blockPairs n (p.on ((members.flatMap fun (key, entry) => Section.memberTokens key entry) ++
      .blockEnd :: ts)) =
      .ok (memberPairs members Entry.node, p.on ts) := by
  induction members generalizing n with
  | nil =>
      obtain ⟨n, rfl⟩ := Nat.exists_eq_add_one.mpr (by omega : 0 < n)
      exact blockPairs_end n
  | cons member rest ih =>
      obtain ⟨key, entry⟩ := member
      rw [List.forall_mem_cons] at hkeys
      have hhead : Section.memberTokens key entry =
          .key :: .scalar key true :: .value :: entry.tokens := rfl
      rw [List.flatMap_cons] at hn ⊢
      change (Section.memberTokens key entry ++ _).length + 3 ≤ _ at hn
      change blockPairs _ (p.on ((Section.memberTokens key entry ++ _) ++ _)) = _
      rw [hhead, List.length_append, List.length_cons, List.length_cons, List.length_cons] at hn
      obtain ⟨n, rfl⟩ : ∃ m, n = m + 2 := ⟨n - 2, by omega⟩
      have hrest := ih hkeys.2 (n := n + 1) (by omega)
      obtain ⟨next, behind, hbehind, hnext⟩ : ∃ t more,
          (rest.flatMap fun (key, entry) => Section.memberTokens key entry) ++ .blockEnd :: ts =
            t :: more ∧ t ≠ .blockEntry := by
        cases rest with
        | nil => exact ⟨_, _, rfl, by simp⟩
        | cons member others => exact ⟨_, _, rfl, by simp⟩
      rw [hbehind] at hrest
      have hbuild : build true true (n + 1) (p.on (entry.tokens ++ next :: behind)) =
          .ok (entry.node, p.on (next :: behind)) := build_entry entry hnext (by omega)
      obtain ⟨t, more, hentry, hmember⟩ := entry.exists_tokens
      rw [hhead, List.append_assoc, hbehind]
      rw [hentry, List.cons_append] at hbuild
      rw [hentry]
      exact blockPairs_member hkeys.1 hmember hbuild hrest

/-- A mapping in block style. -/
theorem build_blockMapping {pairs : List (Node × Node)} {q : Progress} {n : Nat}
    (h : blockPairs n (p.on ts) = .ok (pairs, q)) (unindented : Bool) :
    build true unindented (n + 1) (p.on (.blockMapping :: ts)) =
      .ok (.mapping (.known .mapping) pairs, q) := by
  rw [build, bind_ok peek_cons]
  dsimp only
  rw [bind_ok (properties_of_isContent rfl), bind_ok peek_cons]
  dsimp only
  rw [if_pos rfl]
  exact mappingWith_ok (by rw [bind_ok pass_cons, h])

end Node

namespace Section

variable {s : Section}

/-- The node of the members of a section. -/
def membersNode (s : Section) : Node :=
  .mapping (.known .mapping) (memberPairs s.members Entry.node)

/-- The node of a section. -/
def node (s : Section) : Node :=
  .mapping (.known .mapping) [(textNode s.name, s.membersNode)]

/-- The node of a section is built from its tokens. -/
theorem build_tokens (hs : s.WellFormed) (p : Progress) {n : Nat} (hn : s.tokens.length + 1 ≤ n) :
    build true false n (p.on s.tokens) = .ok (s.node, p.on [.streamEnd]) := by
  have htokens : s.tokens = .blockMapping :: .key :: .scalar s.name true :: .value ::
      .blockMapping :: ((s.members.flatMap fun (key, entry) => memberTokens key entry) ++
        .blockEnd :: [.blockEnd, .streamEnd]) := by
    simp [tokens]
  have hlength : s.tokens.length =
      (s.members.flatMap fun (key, entry) => memberTokens key entry).length + 8 := by
    rw [htokens]
    simp
  obtain ⟨n, rfl⟩ : ∃ m, n = m + 4 := ⟨n - 4, by omega⟩
  rw [htokens]
  refine build_blockMapping (blockPairs_member hs.name rfl (build_blockMapping ?_ true)
    (blockPairs_end _)) false
  exact blockPairs_members s.members hs.keys (by omega)

/-- Nothing follows the only section. -/
theorem beginDocument_streamEnd (p : Progress) (n : Nat) :
    beginDocument (n + 1) (p.on [.streamEnd]) = .ok (false, p.on [.streamEnd]) := by
  rw [beginDocument, passEnds, bind_ok (bind_ok (passIf_other (by simp)) _)]
  rfl

/-- The only document of a stream. -/
theorem document_tokens (hs : s.WellFormed) (p : Progress) {n : Nat}
    (hn : s.tokens.length + 1 ≤ n) :
    document n (p.on s.tokens) =
      .ok (some s.node, { p with handles := usualHandles }.on [.streamEnd]) := by
  have hbuild := build_tokens hs { p with handles := usualHandles } hn
  obtain ⟨n, rfl⟩ := Nat.exists_eq_add_one.mpr (by omega : 0 < n)
  obtain ⟨rest, htokens⟩ : ∃ rest, s.tokens = .blockMapping :: rest := ⟨_, rfl⟩
  have hmodify : (modify fun p => { p with handles := usualHandles } : Builder Unit)
      (p.on s.tokens) = .ok ((), { p with handles := usualHandles }.on s.tokens) := rfl
  have hpeek : peek (p.on s.tokens) = .ok (.blockMapping, p.on s.tokens) := by
    rw [htokens, peek_cons]
  have hbare : isBare .blockMapping = true := rfl
  rw [document, bind_ok hpeek, hbare, if_pos rfl, bind_ok hmodify, bind_ok hbuild,
    document.finish, bind_ok (passIf_other (by simp)), bind_ok (beginDocument_streamEnd _ n)]
  rfl

/-- A stream of the tokens of a section has its node. -/
theorem ofStream?_tokens (hs : s.WellFormed) :
    ofStream? ⟨s.tokens, none⟩ = .ok (some s.node) := by
  have hdocument := document_tokens hs { tokens := [], fault := .within .nextToken }
    (n := 4 * s.tokens.length + 16) (by omega)
  have hprogress : ({ tokens := s.tokens, fault := .within .nextToken } : Progress) =
      Progress.on { tokens := [], fault := .within .nextToken } s.tokens := rfl
  rw [ofStream?]
  dsimp only
  rw [Option.getD_none, hprogress, hdocument]
  rfl

end Section

/-! ## Faults and values of a section -/

namespace Node

/-- Steps that all succeed. -/
theorem mapM_ok {α β ε : Type} {f : α → Except ε β} {g : α → β} {items : List α}
    (h : ∀ item ∈ items, f item = .ok (g item)) : items.mapM f = .ok (items.map g) := by
  induction items with
  | nil => rfl
  | cons item rest ih =>
      rw [List.forall_mem_cons] at h
      rw [List.mapM_cons, h.1, ih h.2]
      rfl

/-- Pairs whose keys are texts merge nothing. -/
theorem merged_texts {pairs : List (Node × Node)}
    (h : ∀ pair ∈ pairs, ∃ text, pair.1 = textNode text) (n : Nat) :
    merged n pairs = .ok pairs := by
  have hmerge : ∀ pair ∈ pairs, pair.1.isMerge = false := by
    intro pair hpair
    obtain ⟨text, htext⟩ := h pair hpair
    rw [htext]
    rfl
  have hown : pairs.filter (fun pair => !pair.1.isMerge) = pairs := by
    rw [List.filter_eq_self]
    exact fun pair hpair => by rw [hmerge pair hpair]; rfl
  cases n with
  | zero => rw [merged, hown]
  | succ n =>
      have htaken : pairs.filter (fun pair => pair.1.isMerge) = [] := by
        rw [List.filter_eq_nil_iff]
        exact fun pair hpair => by rw [hmerge pair hpair]; exact Bool.false_ne_true
      have hkeys : pairs.map (fun pair => (pair.1.asKey, pair.2)) = pairs := by
        refine List.map_congr_left (fun pair hpair => ?_) |>.trans (List.map_id pairs)
        obtain ⟨text, htext⟩ := h pair hpair
        obtain ⟨key, value⟩ := pair
        obtain rfl : key = textNode text := htext
        rfl
      rw [merged, htaken, hown, List.mapM_nil]
      exact congrArg Except.ok hkeys

/-- A number has a fault if its text has no value. -/
theorem visit_number {kind : Kind} (h : kind = .int ∨ kind = .real) (text : String) :
    visit (.scalar (.known kind) text) = (scalarValue kind text).map fun _ => [] := by
  rcases h with rfl | rfl <;> cases hvalue : scalarValue _ text <;>
    simp [visit, tag, scalarText, hvalue, Except.map, bind, Except.bind, pure, Except.pure]

/-- The value of a number is that of its text. -/
theorem value_number {kind : Kind} (h : kind = .int ∨ kind = .real) (text : String) (n : Nat) :
    value (n + 1) (.scalar (.known kind) text) = (scalarValue kind text).toOption.getD .other := by
  rcases h with rfl | rfl <;> rfl

/-- So do the pairs of members. -/
theorem merged_memberPairs {α : Type} (members : List (String × α)) (node : α → Node) (n : Nat) :
    merged n (memberPairs members node) = .ok (memberPairs members node) := by
  refine merged_texts (fun pair hpair => ?_) n
  obtain ⟨member, -, rfl⟩ := List.mem_map.mp hpair
  exact ⟨member.1, rfl⟩

/-- What is found below a mapping whose keys are texts. -/
theorem enter_mapping {α : Type} (members : List (String × α)) {node : α → Node}
    (inner : α → List Node)
    (h : ∀ member ∈ members, (node member.2).visit = .ok (inner member.2)) (n : Nat) :
    enter n (.mapping (.known .mapping) (memberPairs members node)) =
      .ok (members.flatMap fun member => inner member.2) := by
  have hpairs : (memberPairs members node).mapM visitPair =
      .ok (members.map fun member => inner member.2) := by
    rw [memberPairs, List.mapM_map]
    refine mapM_ok fun member hmember => ?_
    rw [Function.comp_apply, visitPair, h member hmember]
    rfl
  have henter (pairs : List (Node × Node)) : enter n (.mapping (.known .mapping) pairs) =
      (do return (← (← merged n pairs).mapM visitPair).flatten) := rfl
  rw [henter, merged_memberPairs]
  change (do return (← List.mapM visitPair _).flatten : Except Fault (List Node)) = _
  rw [hpairs]
  exact congrArg Except.ok List.flatMap_def.symm

/-- The value of a mapping whose keys are different texts. -/
theorem value_mapping {α : Type} (members : List (String × α)) {node : α → Node}
    (v : α → Value) {n : Nat} (hkeys : (members.map Prod.fst).Nodup)
    (h : ∀ member ∈ members, (node member.2).value n = v member.2) :
    value (n + 1) (.mapping (.known .mapping) (memberPairs members node)) =
      .dict (members.map fun member => (member.1, v member.2)) := by
  have hkept : (memberPairs members node).filterMap
      (fun pair => pair.1.keyText?.map fun key => (key, value n pair.2)) =
        members.map fun member => (member.1, v member.2) := by
    rw [memberPairs, List.filterMap_map, List.filterMap_eq_map_iff_forall_eq_some]
    intro member hmember
    simp only [Function.comp_apply, keyText?, textNode, tag, scalarText, h member hmember]
    rfl
  have hvalue (pairs : List (Node × Node)) : value (n + 1) (.mapping (.known .mapping) pairs) =
      .ofFields (((merged n pairs).toOption.getD []).filterMap
        fun pair => pair.1.keyText?.map fun key => (key, value n pair.2)) := rfl
  have hdistinct : ((members.map fun member => (member.1, v member.2)).map Prod.fst).Nodup := by
    rwa [List.map_map]
  rw [hvalue, merged_memberPairs, ← Value.ofFields_of_nodup hdistinct]
  exact congrArg Value.ofFields hkept

end Node

/-- The value of a whole number that is written. -/
theorem scalarValue_int {n : Int} (h : Numeral.IsShort n) :
    scalarValue .int (toString n) = .ok (.int n) := by
  rw [scalarValue, intOf_int h]
  rfl

/-- The value of a double that is written. -/
theorem scalarValue_write (x : Binary64) :
    scalarValue .real (String.ofList (Layout.yaml.write x)) = .ok (.real x) := by
  rw [scalarValue, realOf_write]
  rfl

namespace Entry

/-- What is to be looked into below an entry. -/
def inner : Entry → List Node
  | .texts items => [(Entry.texts items).node]
  | _ => []

/-- Entries have no faults themselves. -/
theorem visit_node {entry : Entry} (h : entry.IsShort) : entry.node.visit = .ok entry.inner := by
  cases entry with
  | int n =>
      rw [node, visit_number (Or.inl rfl), scalarValue_int h]
      rfl
  | real x =>
      rw [node, visit_number (Or.inr rfl), scalarValue_write]
      rfl
  | text s => rfl
  | texts items => rfl

/-- Nor is there anything to look into below them. -/
theorem enter_node {entry : Entry} {node : Node} (h : node ∈ entry.inner) (n : Nat) :
    node.enter n = .ok [] := by
  cases entry with
  | texts items =>
      obtain rfl := List.mem_singleton.mp h
      have hvisit : (items.map textNode).mapM visit =
          .ok ((items.map textNode).map fun _ => ([] : List Node)) := by
        refine mapM_ok fun node hnode => ?_
        obtain ⟨text, -, rfl⟩ := List.mem_map.mp hnode
        rfl
      change visitAll (items.map textNode) = _
      rw [visitAll, hvisit]
      simp [Except.map]
  | _ => cases h

/-- The value of an entry. -/
theorem value_node {entry : Entry} (h : entry.IsShort) (n : Nat) :
    entry.node.value (n + 2) = entry.toValue := by
  cases entry with
  | int m =>
      rw [node, value_number (Or.inl rfl), scalarValue_int h]
      rfl
  | real x =>
      rw [node, value_number (Or.inr rfl), scalarValue_write]
      rfl
  | text s => rfl
  | texts items =>
      change Value.list ((items.map textNode).map (value (n + 1))) = .list (items.map .text)
      rw [List.map_map]
      rfl

end Entry

namespace Section

variable {s : Section}

/-- A section has no faults. -/
theorem fault?_node (hs : s.WellFormed) (depth : Nat) : s.node.fault? depth = none := by
  have houter (n : Nat) : s.node.enter n = .ok [s.membersNode] :=
    enter_mapping [(s.name, s)] (fun s => [s.membersNode])
      (List.forall_mem_singleton.mpr rfl) n
  have hinner (n : Nat) :
      s.membersNode.enter n = .ok (s.members.flatMap fun member => member.2.inner) :=
    enter_mapping s.members Entry.inner
      (fun member hmember => Entry.visit_node (hs.numbers member hmember)) n
  have hentries (n : Nat) :
      enterAll n (s.members.flatMap fun member => member.2.inner) = .ok () := by
    cases n with
    | zero => rfl
    | succ n =>
        have hempty : (s.members.flatMap fun member => member.2.inner).mapM (enter n) =
            .ok ((s.members.flatMap fun member => member.2.inner).map fun _ => []) := by
          refine mapM_ok fun node hnode => ?_
          obtain ⟨member, -, hnode⟩ := List.mem_flatMap.mp hnode
          exact Entry.enter_node hnode n
        rw [enterAll, hempty]
        simp [bind, Except.bind]
  have hmembers (n : Nat) : enterAll n [s.membersNode] = .ok () := by
    cases n with
    | zero => rfl
    | succ n =>
        rw [enterAll, List.mapM_cons, hinner]
        simp [bind, Except.bind, pure, Except.pure, hentries]
  have hall : enterAll depth [s.node] = .ok () := by
    cases depth with
    | zero => rfl
    | succ n =>
        rw [enterAll, List.mapM_cons, houter]
        simp [bind, Except.bind, pure, Except.pure, hmembers]
  have hvisit : s.node.visit = .ok [s.node] := rfl
  simp only [fault?, hvisit, bind, Except.bind, hall]

/-- The value of a section. -/
theorem value_node (hs : s.WellFormed) {depth : Nat} (hdepth : 4 ≤ depth) :
    s.node.value depth = s.toValue := by
  obtain ⟨n, rfl⟩ : ∃ n, depth = n + 4 := ⟨depth - 4, by omega⟩
  have hmembers : s.membersNode.value (n + 3) = .dict s.fields :=
    value_mapping s.members Entry.toValue hs.distinct
      fun member hmember => Entry.value_node (hs.numbers member hmember) n
  exact value_mapping [(s.name, s)] (fun s => .dict s.fields) (by simp) (by simpa using hmembers)

/-- A text without carriage returns keeps its breaks. -/
theorem usualBreaks_eq {text : List Char} (h : '\r' ∉ text) : usualBreaks text = text := by
  induction text using usualBreaks.induct with
  | case1 => rfl
  | case2 rest ih => simp at h
  | case3 rest hrest ih => simp at h
  | case4 c rest hpair hreturn ih =>
      rw [List.mem_cons, not_or] at h
      rw [usualBreaks, ih h.2]
      · exact hpair
      · exact hreturn

/-- A written section is read as its value. -/
theorem read_write (hs : s.WellFormed) : Yaml.read s.write = .ok s.toValue := by
  have hreturn : '\r' ∉ s.write.toList := fun hmem =>
    absurd (isWritten_of_mem_write hs hmem) (by unfold IsWritten; decide)
  have hlength : 2 ≤ s.write.toList.length := by
    rw [write, String.toList_ofList, List.length_append, List.length_cons, List.length_cons]
    omega
  rw [Yaml.read, usualBreaks_eq hreturn, ofText_write hs, ofStream?_tokens hs]
  dsimp only [bind, Except.bind]
  rw [fault?_node hs, value_node hs (by omega)]

end Section

end StakeLedger.Yaml
