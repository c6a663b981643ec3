import StakeLedger.Yaml.Kind
import StakeLedger.Yaml.Token.Stream

/-!
# Nodes of a document

Tokens make up a tree of nodes.  An alias is the node with its anchor, and inside
of that node it stands for what encloses it.

Main definitions:

- {lit}`Yaml.Node`: a scalar, a sequence or a mapping with its tag.
- {lit}`Yaml.Node.ofStream?`: the node of the only document of a text.
-/

namespace StakeLedger.Yaml

/-- A node of a document. -/
inductive Node where
  | scalar (tag : Tag) (text : String)
  | sequence (tag : Tag) (items : List Node)
  | mapping (tag : Tag) (pairs : List (Node × Node))
  /-- An alias of a sequence or of a mapping that encloses it. -/
  | enclosing (isMapping : Bool)
deriving Inhabited

namespace Node

/-- What is left of a stream, the anchors so far and the handles of the document.
The anchor of an open collection says whether it is a mapping. -/
structure Progress where
  tokens : List Token
  fault : Fault
  anchors : List (String × Node) := []
  handles : List (String × String) := []

/-- Steps that read nodes. -/
abbrev Builder (α : Type) := StateT Progress (Except Fault) α

/-! ## Tokens -/

/-- The next token. -/
def peek : Builder Token := do
  let p ← get
  match p.tokens with
  | t :: _ => return t
  | [] => throw p.fault

/-- Pass the next token. -/
def pass : Builder Unit :=
  modify fun p => { p with tokens := p.tokens.drop 1 }

/-- Whether the next token is a given one. -/
def isNext (t : Token) : Builder Bool := do
  return (← peek) == t

/-- Pass the next token if it is a given one, and say whether it was. -/
def passIf (t : Token) : Builder Bool := do
  if ← isNext t then
    pass
    return true
  else return false

/-- A fault within a context. -/
def fail {α : Type} (context : Context) : Builder α :=
  throw (.within context)

/-! ## Properties -/

/-- An anchor if one comes next. -/
def anchor? : Builder (Option String) := do
  match ← peek with
  | .anchor name =>
      pass
      return some name
  | _ => return none

/-- The handle and suffix of a tag if one comes next. -/
def tagParts? : Builder (Option (Option String × String)) := do
  match ← peek with
  | .tag handle suffix =>
      pass
      return some (handle, suffix)
  | _ => return none

/-- The tag of a handle and a suffix. -/
def tagOf : Option String × String → Builder String
  | (none, suffix) => return suffix
  | (some handle, suffix) => do
      match (← get).handles.lookup handle with
      | some start => return start ++ suffix
      | none => fail .node

/-- What stands before a node. -/
structure Properties where
  anchor : Option String := none
  tag : Option String := none

/-- An anchor and a tag in either order. -/
def properties : Builder Properties := do
  let first ← anchor?
  let parts ← tagParts?
  let second ←
    match first, parts with
    | none, some _ => anchor?
    | _, _ => pure none
  match parts with
  | none => return { anchor := first }
  | some parts => return { anchor := first.or second, tag := some (← tagOf parts) }

/-- Whether a tag leaves the kind of a node open. -/
def isOpen (tag : Option String) : Bool :=
  tag.isNone || tag == some "!"

/-- The tag of a collection. -/
def collectionTag (tag : Option String) (kind : Kind) : Tag :=
  if isOpen tag then .known kind else .ofUri (tag.getD "")

/-- The tag of a scalar: without one, or with an open one, a plain scalar is what
its form says and a quoted one is text. -/
def scalarTag (tag : Option String) (text : String) (plain : Bool) : Tag :=
  match tag with
  | none => if plain then .known (.ofPlain text.toList) else .known .text
  | some "!" => .known (.ofPlain text.toList)
  | some uri => .ofUri uri

/-- A scalar that is not there. -/
def absent : Node :=
  .scalar (.known .null) ""

/-- An anchor must be new. -/
def checkAnchor : Option String → Builder Unit
  | none => return ()
  | some name => do
      if ((← get).anchors.lookup name).isSome then throw (.repeatedAnchor name)
      else return ()

/-- Let an anchor stand for a node. -/
def note (anchor : Option String) (node : Node) : Builder Unit :=
  match anchor with
  | none => return ()
  | some name => modify fun p => { p with anchors := (name, node) :: p.anchors }

/-- A node with its anchor. -/
def noted (anchor : Option String) (node : Node) : Builder Node := do
  note anchor node
  return node

/-- A sequence whose items are read while its anchor stands for it. -/
def sequenceWith (ps : Properties) (items : Builder (List Node)) : Builder Node := do
  checkAnchor ps.anchor
  note ps.anchor (.enclosing false)
  noted ps.anchor (.sequence (collectionTag ps.tag .sequence) (← items))

/-- A mapping whose pairs are read while its anchor stands for it. -/
def mappingWith (ps : Properties) (pairs : Builder (List (Node × Node))) : Builder Node := do
  checkAnchor ps.anchor
  note ps.anchor (.enclosing true)
  noted ps.anchor (.mapping (collectionTag ps.tag .mapping) (← pairs))

/-- A scalar. -/
def scalarWith (ps : Properties) (text : String) (plain : Bool) : Builder Node := do
  checkAnchor ps.anchor
  noted ps.anchor (.scalar (scalarTag ps.tag text plain) text)

/-- Whether an item of a block sequence is missing before a token. -/
def endsItem (t : Token) : Bool :=
  t == .blockEntry || t == .blockEnd

/-- Whether a key or a value of a block mapping is missing before a token. -/
def endsMember (t : Token) : Bool :=
  t == .key || t == .value || t == .blockEnd

/-- Whether a part of a flow collection is missing before a token. -/
def endsFlow (closing t : Token) : Bool :=
  t == .flowEntry || t == closing

/-- Pass the comma before a part of a flow collection; the first part has none. -/
def checkEntry (first : Bool) (context : Context) : Builder Unit := do
  if first then return ()
  else if ← passIf .flowEntry then return ()
  else fail context

/-! ## Collections -/

mutual

/-- A node; in a block its collections may be indented ones, and behind a key a
sequence may stand without indentation. -/
def build (block unindented : Bool) : Nat → Builder Node
  | 0 => fail .node
  | n + 1 => do
      match ← peek with
      | .alias name =>
          pass
          match (← get).anchors.lookup name with
          | some node => return node
          | none => throw (.undefinedAlias name)
      | _ =>
          let ps ← properties
          match ← peek with
          | .blockEntry =>
              if unindented then sequenceWith ps (unindentedItems n)
              else emptyOrFail block ps
          | .scalar text plain =>
              pass
              scalarWith ps text plain
          | .flowSequence =>
              sequenceWith ps do
                pass
                flowItems true n
          | .flowMapping =>
              mappingWith ps do
                pass
                flowPairs true n
          | .blockSequence =>
              if block then
                sequenceWith ps do
                  pass
                  blockItems n
              else emptyOrFail block ps
          | .blockMapping =>
              if block then
                mappingWith ps do
                  pass
                  blockPairs n
              else emptyOrFail block ps
          | _ => emptyOrFail block ps

/-- A node without content: only one with properties may be. -/
def emptyOrFail (block : Bool) (ps : Properties) : Builder Node :=
  if ps.anchor.isSome || ps.tag.isSome then scalarWith ps "" (isOpen ps.tag)
  else fail (if block then .blockNode else .flowNode)

/-- The items of a block sequence. -/
def blockItems : Nat → Builder (List Node)
  | 0 => fail .blockCollection
  | n + 1 => do
      if ← passIf .blockEntry then
        let item ← if endsItem (← peek) then pure absent else build true false n
        return item :: (← blockItems n)
      else if ← passIf .blockEnd then return []
      else fail .blockCollection

/-- The items of a sequence without indentation. -/
def unindentedItems : Nat → Builder (List Node)
  | 0 => fail .blockCollection
  | n + 1 => do
      if ← passIf .blockEntry then
        let next ← peek
        let item ←
          if endsItem next || endsMember next then pure absent else build true false n
        return item :: (← unindentedItems n)
      else return []

/-- The pairs of a block mapping. -/
def blockPairs : Nat → Builder (List (Node × Node))
  | 0 => fail .blockMapping
  | n + 1 => do
      match ← peek with
      | .key =>
          pass
          let key ← if endsMember (← peek) then pure absent else build true true n
          let value ←
            if ← passIf .value then
              if endsMember (← peek) then pure absent else build true true n
            else pure absent
          return (key, value) :: (← blockPairs n)
      | .blockEnd =>
          pass
          return []
      | _ => fail .blockMapping

/-- The value of a pair in a flow collection. -/
def flowValue (closing : Token) : Nat → Builder Node
  | 0 => fail .flowNode
  | n + 1 => do
      if ← passIf .value then
        if endsFlow closing (← peek) then return absent else build false false n
      else return absent

/-- A pair of a flow collection behind the token of its key. -/
def flowPair (closing : Token) : Nat → Builder (Node × Node)
  | 0 => fail .flowNode
  | n + 1 => do
      let next ← peek
      let key ←
        if next == .value || endsFlow closing next then pure absent else build false false n
      return (key, ← flowValue closing n)

/-- The items of a flow sequence, the first one without a comma before it. -/
def flowItems (first : Bool) : Nat → Builder (List Node)
  | 0 => fail .flowSequence
  | n + 1 => do
      if ← passIf .flowSequenceEnd then return []
      else
        checkEntry first .flowSequence
        match ← peek with
        | .key =>
            pass
            let (key, value) ← flowPair .flowSequenceEnd n
            return .mapping (.known .mapping) [(key, value)] :: (← flowItems false n)
        | .flowSequenceEnd =>
            pass
            return []
        | _ =>
            let item ← build false false n
            return item :: (← flowItems false n)

/-- The pairs of a flow mapping, the first one without a comma before it. -/
def flowPairs (first : Bool) : Nat → Builder (List (Node × Node))
  | 0 => fail .flowMapping
  | n + 1 => do
      if ← passIf .flowMappingEnd then return []
      else
        checkEntry first .flowMapping
        match ← peek with
        | .key =>
            pass
            let pair ← flowPair .flowMappingEnd n
            return pair :: (← flowPairs false n)
        | .flowMappingEnd =>
            pass
            return []
        | _ =>
            let key ← build false false n
            return (key, absent) :: (← flowPairs false n)

end

/-! ## Documents -/

/-- The handles that every document has. -/
def usualHandles : List (String × String) :=
  [("!", "!"), ("!!", tagStem)]

/-- Directives before a document: whether a version was given, and the handles. -/
def directives : Nat → Bool → List (String × String) → Builder (List (String × String))
  | 0, _, handles => return handles
  | n + 1, versioned, handles => do
      match ← peek with
      | .directive (.version major _) =>
          pass
          if versioned then throw .repeatedDirective
          else if major ≠ 1 then throw .version
          else directives n true handles
      | .directive (.tag handle uri) =>
          pass
          if (handles.lookup handle).isSome then throw (.repeatedHandle handle)
          else directives n versioned ((handle, uri) :: handles)
      | .directive .other =>
          pass
          directives n versioned handles
      | _ => return handles

/-- Pass the ends of documents. -/
def passEnds : Nat → Builder Unit
  | 0 => return ()
  | n + 1 => do
      if ← passIf .documentEnd then passEnds n
      else return ()

/-- Pass the beginning of a document, if there is one more. -/
def beginDocument (n : Nat) : Builder Bool := do
  passEnds n
  if ← isNext .streamEnd then return false
  else
    let handles ← directives n false []
    modify fun p => { p with handles := handles ++ usualHandles }
    match ← peek with
    | .documentStart =>
        pass
        return true
    | t => throw (.documentStart t.label)

/-- Whether a document with a marker before it is empty. -/
def endsDocument : Token → Bool
  | .directive _ => true
  | .documentStart => true
  | .documentEnd => true
  | .streamEnd => true
  | _ => false

/-- Whether a document begins without a marker. -/
def isBare : Token → Bool
  | .directive _ => false
  | .documentStart => false
  | .streamEnd => false
  | _ => true

/-- The node of the only document, if there is one. -/
def document (n : Nat) : Builder (Option Node) := do
  let bare := isBare (← peek)
  if bare then
    modify fun p => { p with handles := usualHandles }
    finish (← build true false n)
  else if ← beginDocument n then
    if endsDocument (← peek) then finish absent
    else finish (← build true false n)
  else return none
where
  /-- Nothing may follow a document but its end. -/
  finish (node : Node) : Builder (Option Node) := do
    let _ ← passIf .documentEnd
    if ← beginDocument n then throw .secondDocument
    else return some node

/-- The node of the only document of a stream, if it has one. -/
def ofStream? (stream : TokenStream) : Except Fault (Option Node) :=
  let progress : Progress := {
    tokens := stream.tokens
    fault := stream.fault.getD (.within .nextToken) }
  (document (4 * stream.tokens.length + 16) progress).map Prod.fst

end Node

end StakeLedger.Yaml
