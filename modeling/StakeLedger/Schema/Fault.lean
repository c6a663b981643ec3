/-!
# Faults of documents

A document that does not fit its schema has faults: each is a kind together
with the path to the place where it was found.  Readers go on after a fault, so
that one answer names all of them.

Main definitions:

- {lit}`Schema.Fault`: a kind and a path.
- {lit}`Schema.headline`: the first line that is said of the faults of a document.
- {lit}`Schema.Checked`: what was read, or all faults found.
- {lit}`Schema.Checked.ap`: apply what was read to what is read next, keeping the
  faults of both.
-/

namespace StakeLedger.Schema

/-- What is wrong at a place of a document. -/
inductive FaultKind where
  | missing
  | extraForbidden
  | modelType
  | stringType
  | stringUnicode
  | intType
  | intParsing
  | intParsingSize
  | intFromFloat
  | finiteNumber
  | floatType
  | floatParsing
  | boolType
  | boolParsing
  | listType
  | notListed
  | tooSmall
  | tooLarge
  | jsonInvalid
deriving DecidableEq, Repr

/-- The code of a kind in answers. -/
def FaultKind.code : FaultKind → String
  | .missing => "missing"
  | .extraForbidden => "extra_forbidden"
  | .modelType => "model_type"
  | .stringType => "string_type"
  | .stringUnicode => "string_unicode"
  | .intType => "int_type"
  | .intParsing => "int_parsing"
  | .intParsingSize => "int_parsing_size"
  | .intFromFloat => "int_from_float"
  | .finiteNumber => "finite_number"
  | .floatType => "float_type"
  | .floatParsing => "float_parsing"
  | .boolType => "bool_type"
  | .boolParsing => "bool_parsing"
  | .listType => "list_type"
  | .notListed => "enum"
  | .tooSmall => "greater_than_equal"
  | .tooLarge => "less_than_equal"
  | .jsonInvalid => "json_invalid"

/-- A kind and the keys and positions that lead to its place. -/
structure Fault where
  path : List String
  kind : FaultKind
deriving DecidableEq, Repr

/-- The path with points between its steps. -/
def Fault.location (fault : Fault) : String :=
  ".".intercalate fault.path

/-- The first line that is said of the faults of a document. -/
def headline (schema : String) (faults : List Fault) : String :=
  let noun := if faults.length = 1 then "validation error" else "validation errors"
  s!"{faults.length} {noun} for {schema}"

/-- What was read, or all faults found. -/
abbrev Checked (α : Type) := Except (List Fault) α

namespace Checked

/-- A fault at the place where the reader stands. -/
def fail {α : Type} (kind : FaultKind) : Checked α :=
  .error [⟨[], kind⟩]

/-- The faults as they are seen from one step further out. -/
def within {α : Type} (step : String) : Checked α → Checked α
  | .ok a => .ok a
  | .error faults => .error (faults.map fun f => { f with path := step :: f.path })

/-- Apply what was read to what is read next, keeping the faults of both. -/
def ap {α β : Type} (f : Checked (α → β)) (a : Checked α) : Checked β :=
  match f, a with
  | .ok f, .ok a => .ok (f a)
  | .ok _, .error faults => .error faults
  | .error faults, .ok _ => .error faults
  | .error faults, .error more => .error (faults ++ more)

/-- Read the members of a list, each one step further in by its position. -/
def each {α β : Type} (read : α → Checked β) : Nat → List α → Checked (List β)
  | _, [] => .ok []
  | i, a :: rest => ap (ap (.ok List.cons) (within (toString i) (read a))) (each read (i + 1) rest)

end Checked

end StakeLedger.Schema
