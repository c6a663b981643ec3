/-!
# The journal

What the program says about its work, line by line, each line with a level.

Main definitions:

- {lit}`Journal.Level`: the five levels, with their names and numbers.
- {lit}`Journal.Entry`: a line and its level.
-/

namespace StakeLedger.Journal

/-- The levels of journal lines. -/
inductive Level where
  | debug
  | info
  | warning
  | error
  | critical
deriving DecidableEq, Repr

namespace Level

/-- The name of a level. -/
def name : Level → String
  | .debug => "DEBUG"
  | .info => "INFO"
  | .warning => "WARNING"
  | .error => "ERROR"
  | .critical => "CRITICAL"

/-- The name of a level in settings. -/
def lowerName : Level → String
  | .debug => "debug"
  | .info => "info"
  | .warning => "warning"
  | .error => "error"
  | .critical => "critical"

/-- The number of a level; lines below the number of a journal are left out. -/
def number : Level → Nat
  | .debug => 10
  | .info => 20
  | .warning => 30
  | .error => 40
  | .critical => 50

/-- All levels. -/
def all : List Level :=
  [.debug, .info, .warning, .error, .critical]

end Level

/-- A line and its level. -/
structure Entry where
  level : Level
  text : String
deriving DecidableEq, Repr

/-- The line with the name of the request that it belongs to. -/
def Entry.ofRequest (request : String) (e : Entry) : Entry :=
  { e with text := s!"[{request}] {e.text}" }

end StakeLedger.Journal
