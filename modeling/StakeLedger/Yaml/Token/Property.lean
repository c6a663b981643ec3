import StakeLedger.Yaml.Token
import StakeLedger.Text.Utf8

/-!
# Names, tags and directives

A node can have an anchor and a tag before it, a name with an asterisk stands for
the node with that anchor, and lines with a percent sign come before a document.

Main definitions:

- {lit}`Yaml.scanName`: an anchor or an alias.
- {lit}`Yaml.scanTag`: a tag.
- {lit}`Yaml.scanDirective`: a directive with the rest of its line.
-/

namespace StakeLedger.Yaml

/-! ## Anchors and aliases -/

/-- Whether a name is over. -/
def endsName (c : Option Char) : Bool :=
  endsWord c || (c.map fun d => "?:,]\x7d%@`".toList.contains d).getD false

/-- A name behind its indicator. -/
def scanName (context : Context) (text : List Char) (spot : Spot) :
    Except Fault (Scanned String) :=
  let name := scanWhile isNameChar text spot
  if name.value.isEmpty || !endsName name.rest.head? then refuse context
  else .ok (name.map String.ofList)

/-! ## Tags -/

/-- A handle: one exclamation mark, or two of them around a name that may be
missing. -/
def scanHandle (context : Context) (text : List Char) (spot : Spot) :
    Except Fault (Scanned String) :=
  match text with
  | '!' :: rest =>
      let name := rest.takeWhile isNameChar
      match rest.head?, rest.drop name.length with
      | some ' ', _ => .ok ⟨"!", rest, spot.next '!'⟩
      | _, '!' :: after =>
          let handle := '!' :: (name ++ ['!'])
          .ok ⟨String.ofList handle, after, spot.past handle⟩
      | _, _ => refuse context
  | _ => refuse context

/-- The characters of URIs apart from escapes. -/
def isUriChar (c : Char) : Bool :=
  c.isAlphanum || "-;/?:@&=+$,_.!~*'()[]".toList.contains c

/-- Escaped octets in a row; fewer than two digits behind a percent sign are a
fault. -/
def uriOctets (context : Context) : List Char → Except Fault (Octets × List Char)
  | '%' :: high :: low :: rest =>
      match Hex.value? high, Hex.value? low with
      | some h, some l =>
          (uriOctets context rest).map fun (octets, rest) =>
            (UInt8.ofNat (16 * h + l) :: octets, rest)
      | _, _ => refuse context
  | '%' :: _ => refuse context
  | text => .ok ([], text)

/-- The characters of a URI up to the first one that cannot be in it. -/
def uriChars (context : Context) : Nat → List Char → Except Fault (List Char × List Char)
  | 0, text => .ok ([], text)
  | n + 1, text =>
      match text with
      | [] => .ok ([], [])
      | c :: rest =>
          if c = '%' then do
            let (octets, rest) ← uriOctets context text
            match Utf8.decode? octets with
            | none => refuse context
            | some chars =>
                let (more, rest) ← uriChars context n rest
                return (chars ++ more, rest)
          else if isUriChar c then do
            let (more, rest) ← uriChars context n rest
            return (c :: more, rest)
          else .ok ([], text)

/-- A URI that is not empty. -/
def scanUri (context missing : Context) (text : List Char) (spot : Spot) :
    Except Fault (Scanned String) := do
  let (chars, rest) ← uriChars context (text.length + 1) text
  if rest.length = text.length then refuse missing
  else return ⟨String.ofList chars, rest, spot.past (text.take (text.length - rest.length))⟩

/-- Whether another exclamation mark stands in the same word. -/
def hasHandle (text : List Char) : Bool :=
  (text.takeWhile fun c => !endsField (some c)).contains '!'

/-- The handle and the suffix of a tag behind its exclamation mark, which is given
again in the text. -/
def scanTagParts (text : List Char) (spot : Spot) :
    Except Fault (Scanned (Option String × String)) :=
  let rest := text.drop 1
  let after := spot.next '!'
  match rest.head? with
  | some '<' => do
      let uri ← scanUri .tag .tagUri (rest.drop 1) (after.next '<')
      match uri.rest with
      | '>' :: rest => return ⟨(none, uri.value), rest, uri.spot.next '>'⟩
      | _ => refuse .tagUri
  | c =>
      if endsWord c then .ok ⟨(none, "!"), rest, after⟩
      else do
        let handle ←
          if hasHandle rest then scanHandle .tag text spot
          else Except.ok (⟨"!", rest, after⟩ : Scanned String)
        let uri ← scanUri .tag .tagUri handle.rest handle.spot
        return uri.map fun suffix => (some handle.value, suffix)

/-- A tag, with its exclamation mark in the text. -/
def scanTag (text : List Char) (spot : Spot) : Except Fault (Scanned Token) := do
  let parts ← scanTagParts text spot
  if endsField parts.rest.head? then
    return parts.map fun (handle, suffix) => .tag handle suffix
  else refuse .tag

/-! ## Directives -/

/-- A number of a version. -/
def scanNumber (text : List Char) (spot : Spot) : Except Fault (Scanned Nat) :=
  let digits := scanWhile Char.isDigit text spot
  if digits.value.isEmpty then refuse .directive
  else if Numeral.mostDigits < digits.value.length then
    .error (.scalar (.digits digits.value.length))
  else .ok (digits.map fun ds => ds.foldl (fun n c => 10 * n + (c.toNat - 48)) 0)

/-- Blanks, if there are any. -/
def skipBlanks (text : List Char) (spot : Spot) : Scanned Unit :=
  (scanWhile (· == ' ') text spot).map fun _ => ()

/-- What a version directive says. -/
def scanVersion (text : List Char) (spot : Spot) : Except Fault (Scanned Directive) := do
  let start := skipBlanks text spot
  let major ← scanNumber start.rest start.spot
  match major.rest with
  | '.' :: rest =>
      let minor ← scanNumber rest (major.spot.next '.')
      if endsField minor.rest.head? then
        return minor.map fun n => .version major.value n
      else refuse .directive
  | _ => refuse .directive

/-- What a tag directive says. -/
def scanTagDirective (text : List Char) (spot : Spot) : Except Fault (Scanned Directive) := do
  let start := skipBlanks text spot
  let handle ← scanHandle .directive start.rest start.spot
  if handle.rest.head? ≠ some ' ' then refuse .directive
  else
    let start := skipBlanks handle.rest handle.spot
    let uri ← scanUri .directive .directiveUri start.rest start.spot
    if endsField uri.rest.head? then return uri.map fun u => .tag handle.value u
    else refuse .directive

/-- A directive behind its percent sign, with the rest of its line. -/
def scanDirective (text : List Char) (spot : Spot) : Except Fault (Scanned Token) := do
  let name := scanWhile isNameChar text spot
  if name.value.isEmpty || !endsField name.rest.head? then refuse .directive
  else
    let directive ←
      if name.value = "YAML".toList then scanVersion name.rest name.spot
      else if name.value = "TAG".toList then scanTagDirective name.rest name.spot
      else
        let skipped := scanWhile (fun c => !isBreak c) name.rest name.spot
        Except.ok (skipped.map fun _ => Directive.other)
    let comment := scanComment directive.rest directive.spot
    if endsLine comment.rest.head? then
      let ended := scanBreak comment.rest comment.spot
      return ended.map fun _ => .directive directive.value
    else refuse .directive

end StakeLedger.Yaml
