import StakeLedger.Host
import StakeLedger.Journal
import StakeLedger.Network
import StakeLedger.Decimal.Binary64
import StakeLedger.Text.Case
import StakeLedger.Text.Printable

/-!
# Settings of the server

Ten settings say where the server listens, how long it waits, whom it admits, how
much it says and what it serves.  They are checked one after the other, and the
first bad one is reported.  In order to listen the server needs an address, a time for which idle
connections are kept in whole seconds, and a level for its own journal.

Main definitions:

- {lit}`Settings`: the ten settings with their defaults.
- {lit}`Settings.serverFault?`, {lit}`Settings.levelFault?`: the first bad setting.
- {lit}`Settings.fault?`: the first bad setting of all.
- {lit}`Settings.level?`, {lit}`Settings.network?`: what two of the settings name.
- {lit}`Listener`: what the server listens with, with {lit}`Settings.listener`.

Main results:

- Theorem {lit}`Settings.level?_isSome_iff`: a level that passes its check is one.
-/

namespace StakeLedger

open Journal

/-- The ten settings with their defaults.  Times are in seconds, and without a
level the journal says what is informative. -/
structure Settings where
  host : String := "127.0.0.1"
  port : Int := 8090
  writeTimeout : Binary64 := .ofInt 60
  readTimeout : Binary64 := .ofInt 60
  idleTimeout : Binary64 := .ofInt 60
  origins : List String := ["*"]
  logLevel : String := ""
  networkName : String := "signet"
  databasePath : String := "./.stakingapi/staking.db"
  pageSize : Int := 100
deriving DecidableEq

namespace Settings

/-- What is wrong with a setting. -/
inductive Fault where
  | host (text : String)
  | port
  | writeTimeout
  | readTimeout
  | idleTimeout
  | network (name : String)
  | pageSize
  | logLevel (text : String)
deriving DecidableEq, Repr

/-- What is said of a fault. -/
def Fault.message : Fault → String
  | .host text => s!"invalid host: {text}"
  | .port => "invalid port"
  | .writeTimeout => "write timeout cannot be negative"
  | .readTimeout => "read timeout cannot be negative"
  | .idleTimeout => "idle timeout cannot be negative"
  | .network name => Network.unsupported name
  | .pageSize => "max page size must be positive"
  | .logLevel text =>
      s!"invalid log level: {text}, only levels from debug to critical are supported"

/-- The network that the settings name. -/
def network? (s : Settings) : Option Network :=
  Network.ofName? s.networkName

/-- The level that a text names in any case. -/
def levelOf? (text : String) : Option Level :=
  Level.all.find? fun level => level.lowerName == Case.lower text

/-- The level of the journal. -/
def level? (s : Settings) : Option Level :=
  if s.logLevel = "" then some .info else levelOf? s.logLevel

/-- What is said of a level that is none where one is needed. -/
def unknownLevel (s : Settings) : String :=
  Printable.quoted (Case.lower s.logLevel)

/-- The first bad setting apart from the level. -/
def serverFault? (s : Settings) : Option Fault :=
  if !Host.isAddress s.host then some (.host s.host)
  else if s.port < 0 ∨ 65535 < s.port then some .port
  else if s.writeTimeout.isNegative then some .writeTimeout
  else if s.readTimeout.isNegative then some .readTimeout
  else if s.idleTimeout.isNegative then some .idleTimeout
  else if s.network?.isNone then some (.network s.networkName)
  else if s.pageSize ≤ 0 then some .pageSize
  else none

/-- A bad level. -/
def levelFault? (s : Settings) : Option Fault :=
  if s.level?.isNone then some (.logLevel s.logLevel) else none

/-- The first bad setting. -/
def fault? (s : Settings) : Option Fault :=
  s.serverFault?.or s.levelFault?

/-- A level that passes its check is one. -/
theorem level?_isSome_iff (s : Settings) : s.level?.isSome ↔ s.levelFault? = none := by
  cases h : s.level? <;> simp [levelFault?, h]

end Settings

/-! ## Listening -/

/-- What the server listens with. -/
structure Listener where
  host : String
  port : Int
  /-- For how many seconds an idle connection is kept. -/
  keepAlive : Int
  level : Journal.Level
deriving DecidableEq, Repr

/-- Why settings have no listener: no number of seconds is left of an idle time. -/
inductive Listener.Fault where
  | endlessTime
  | noTime
deriving DecidableEq, Repr

/-- What is said of settings without listener. -/
def Listener.Fault.message : Listener.Fault → String
  | .endlessTime => "cannot convert float infinity to integer"
  | .noTime => "cannot convert float NaN to integer"

namespace Settings

/-- The number of whole seconds in a time. -/
def wholeSeconds : Binary64 → Except Listener.Fault Int
  | .nan => .error .noTime
  | .infinite _ => .error .endlessTime
  | x => .ok (x.truncate?.getD 0)

/-- The listener of settings at a level. -/
def listener (s : Settings) (level : Journal.Level) : Except Listener.Fault Listener :=
  (wholeSeconds s.idleTimeout).map fun seconds => ⟨s.host, s.port, seconds, level⟩

end Settings

end StakeLedger
