import StakeLedger.Yaml.Node
import StakeLedger.Yaml.Scalar.Value

/-!
# Documents of YAML

The nodes of a document have values.  A mapping first takes in what it merges, its
own pairs coming last; then its keys must be scalars.  Faults are found layer by
layer: those of the scalars of a collection come before those inside of its
collections.

Main definitions:

- {lit}`Yaml.Node.merged`: the pairs of a mapping with those that it merges.
- {lit}`Yaml.Node.visit`: the fault of a node, or what is to be looked into.
- {lit}`Yaml.Node.fault?`: the first fault of the values of a node.
- {lit}`Yaml.Node.value`: the value of a node without faults.
- {lit}`Yaml.read`: the value of a text.
-/

namespace StakeLedger.Yaml

namespace Node

/-- How the kinds of nodes are named. -/
def kindName : Node → String
  | .scalar _ _ => "scalar"
  | .sequence _ _ => "sequence"
  | .mapping _ _ => "mapping"
  | .enclosing true => "mapping"
  | .enclosing false => "sequence"

/-- The tag of a node. -/
def tag : Node → Tag
  | .scalar tag _ => tag
  | .sequence tag _ => tag
  | .mapping tag _ => tag
  | .enclosing true => .known .mapping
  | .enclosing false => .known .sequence

/-- The text of a scalar, or of the scalar that a mapping has under an equals
sign. -/
def scalarText : Node → Except Fault String
  | .scalar _ text => .ok text
  | .mapping _ pairs =>
      match pairs.find? fun pair => pair.1.tag == .known .value with
      | some (_, .scalar _ text) => .ok text
      | some (_, node) => .error (.kind "scalar" node.kindName)
      | none => .error (.kind "scalar" "mapping")
  | node => .error (.kind "scalar" node.kindName)

/-! ## Merging -/

/-- A sign of a value reads as text where it is a key. -/
def asKey : Node → Node
  | .scalar (.known .value) text => .scalar (.known .text) text
  | node => node

/-- Whether a key is the sign of a merge. -/
def isMerge (key : Node) : Bool :=
  key.tag == .known .merge

/-- The pairs of a mapping among some nodes. -/
def pairsOf? : Node → Option (List (Node × Node))
  | .mapping _ pairs => some pairs
  | .enclosing true => some []
  | _ => none

/-- The pairs of a mapping, those that it merges first.  Of several mappings that
are merged at once the last one comes first.  Merges are followed as deep as the
document is. -/
def merged : Nat → List (Node × Node) → Except Fault (List (Node × Node))
  | 0, pairs => .ok (pairs.filter fun pair => !pair.1.isMerge)
  | n + 1, pairs => do
      let taken ← (pairs.filter fun pair => pair.1.isMerge).mapM fun pair =>
        match pair.2 with
        | .sequence _ items => do
            let each ← items.mapM fun item =>
              match pairsOf? item with
              | some pairs => merged n pairs
              | none => .error (.within .mapping)
            return each.reverse.flatten
        | node =>
            match pairsOf? node with
            | some pairs => merged n pairs
            | none => .error (.within .mapping)
      let own := pairs.filter fun pair => !pair.1.isMerge
      return taken.flatten ++ own.map fun (key, value) => (key.asKey, value)

/-! ## Faults -/

/-- The fault of a node, or the node itself if it is a collection that is to be
looked into. -/
def visit (node : Node) : Except Fault (List Node) :=
  match node, node.tag with
  | .enclosing _, _ => .ok []
  | _, .unknown uri => .error (.unknownTag uri)
  | _, .known kind =>
      match kind with
      | .merge => .error (.unknownTag kind.uri)
      | .value => .error (.unknownTag kind.uri)
      | .sequence => .ok [node]
      | .mapping => .ok [node]
      | .set => .ok [node]
      | .orderedMap => .ok [node]
      | .pairs => .ok [node]
      | _ => do
          let _ ← scalarValue kind (← node.scalarText)
          return []

/-- Whether the value of a node is a collection, which no key can be. -/
def isCollection (node : Node) : Bool :=
  match node, node.tag with
  | .enclosing _, _ => true
  | _, .known kind => [Kind.sequence, .mapping, .set, .orderedMap, .pairs].contains kind
  | _, .unknown _ => false

/-- Visit some nodes one after the other. -/
def visitAll (nodes : List Node) : Except Fault (List Node) :=
  (nodes.mapM visit).map List.flatten

/-- Visit a key and its value. -/
def visitPair (pair : Node × Node) : Except Fault (List Node) := do
  let key ← visit pair.1
  if pair.1.isCollection then .error (.within .mapping)
  else return key ++ (← visit pair.2)

/-- Visit the only pair of a mapping. -/
def visitSingle (context : Context) : Node → Except Fault (List Node)
  | .mapping _ [(key, value)] => visitAll [key, value]
  | _ => .error (.within context)

/-- Look into a collection. -/
def enter (depth : Nat) (node : Node) : Except Fault (List Node) :=
  match node.tag, node with
  | .known .sequence, .sequence _ items => visitAll items
  | .known .sequence, _ => .error (.kind "sequence" node.kindName)
  | .known .orderedMap, .sequence _ items =>
      (items.mapM (visitSingle .orderedMap)).map List.flatten
  | .known .orderedMap, _ => .error (.within .orderedMap)
  | .known .pairs, .sequence _ items => (items.mapM (visitSingle .pairs)).map List.flatten
  | .known .pairs, _ => .error (.within .pairs)
  | _, .mapping _ pairs => do
      let pairs ← merged depth pairs
      return (← pairs.mapM visitPair).flatten
  | _, _ => .error (.kind "mapping" node.kindName)

/-- Look into some collections, then into those inside of them. -/
def enterAll : Nat → List Node → Except Fault Unit
  | 0, _ => .ok ()
  | n + 1, nodes => do
      let inner ← nodes.mapM (enter n)
      if inner.flatten.isEmpty then .ok () else enterAll n inner.flatten

/-- The first fault of the values of a node of a depth. -/
def fault? (depth : Nat) (node : Node) : Option Fault :=
  match (do enterAll depth (← visit node) : Except Fault Unit) with
  | .ok () => none
  | .error fault => some fault

/-! ## Values -/

/-- The text of a key; other keys than texts are not kept. -/
def keyText? (key : Node) : Option String :=
  match key.tag with
  | .known .text => key.scalarText.toOption
  | _ => none

/-- The value of a scalar without faults. -/
def valueOfScalar (kind : Kind) (node : Node) : Value :=
  match node.scalarText with
  | .error _ => .other
  | .ok text => (scalarValue kind text).toOption.getD .other

/-- The value of a node of a depth that has no faults. -/
def value : Nat → Node → Value
  | 0, _ => .other
  | n + 1, node =>
      match node.tag, node with
      | _, .enclosing isMapping => if isMapping then .dict [] else .list []
      | .known .sequence, .sequence _ items => .list (items.map (value n))
      | .known .mapping, .mapping _ pairs =>
          let pairs := (merged n pairs).toOption.getD []
          .ofFields (pairs.filterMap fun (key, v) => key.keyText?.map fun k => (k, value n v))
      | .known .set, .mapping _ pairs =>
          let pairs := (merged n pairs).toOption.getD []
          .list (pairs.map fun (key, _) => value n key)
      | .known .orderedMap, .sequence _ items => .list (items.map fun _ => .list [])
      | .known .pairs, .sequence _ items => .list (items.map fun _ => .list [])
      | .known kind, node => valueOfScalar kind node
      | .unknown _, _ => .other

end Node

/-- Breaks of all systems as the usual one. -/
def usualBreaks : List Char → List Char
  | [] => []
  | '\r' :: '\n' :: rest => '\n' :: usualBreaks rest
  | '\r' :: rest => '\n' :: usualBreaks rest
  | c :: rest => c :: usualBreaks rest

/-- The value of a text; an empty one has none. -/
def read (text : String) : Except Fault Value := do
  let chars := usualBreaks text.toList
  match ← Node.ofStream? (TokenStream.ofText chars) with
  | none => .ok .null
  | some node =>
      let depth := chars.length + 2
      match node.fault? depth with
      | some fault => .error fault
      | none => .ok (node.value depth)

end StakeLedger.Yaml
