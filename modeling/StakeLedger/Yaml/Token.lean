import StakeLedger.Yaml.Spot

/-!
# Tokens of YAML

A text is first cut into tokens.  Indentation becomes tokens of its own that open
and close collections.

Main definitions:

- {lit}`Yaml.Directive`: what a line with a percent sign says.
- {lit}`Yaml.Token`: a token, with {lit}`Yaml.Token.label`.
-/

namespace StakeLedger.Yaml

/-- What a line with a percent sign says. -/
inductive Directive where
  | version (major minor : Nat)
  | tag (handle uri : String)
  | other
deriving DecidableEq, Repr

/-- A token. -/
inductive Token where
  | directive (d : Directive)
  | documentStart
  | documentEnd
  | streamEnd
  | blockSequence
  | blockMapping
  | blockEnd
  | flowSequence
  | flowSequenceEnd
  | flowMapping
  | flowMappingEnd
  | blockEntry
  | flowEntry
  | key
  | value
  | alias (name : String)
  | anchor (name : String)
  | tag (handle : Option String) (suffix : String)
  | scalar (text : String) (plain : Bool)
deriving DecidableEq, Repr

/-- How a token is named. -/
def Token.label : Token → String
  | .directive _ => "<directive>"
  | .documentStart => "<document start>"
  | .documentEnd => "<document end>"
  | .streamEnd => "<stream end>"
  | .blockSequence => "<block sequence start>"
  | .blockMapping => "<block mapping start>"
  | .blockEnd => "<block end>"
  | .flowSequence => "["
  | .flowSequenceEnd => "]"
  | .flowMapping => "\x7b"
  | .flowMappingEnd => "\x7d"
  | .blockEntry => "-"
  | .flowEntry => ","
  | .key => "?"
  | .value => ":"
  | .alias _ => "<alias>"
  | .anchor _ => "<anchor>"
  | .tag _ _ => "<tag>"
  | .scalar _ _ => "<scalar>"

end StakeLedger.Yaml
