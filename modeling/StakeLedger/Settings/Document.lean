import StakeLedger.Settings.Basic
import StakeLedger.Schema.Scalar
import StakeLedger.Yaml.Section

/-!
# Settings as documents

A document of settings has a section for the server.  Names of settings are
written with hyphens and also read with underscores; where both are given, the
one with hyphens counts.

Main definitions:

- {lit}`Settings.ofValue`: the settings of a document, or all its faults.
- {lit}`Settings.toSection`: the section of a document for settings.
-/

namespace StakeLedger.Settings

open Schema

/-- The member of one of two names, the first one if both are there. -/
def member {α : Type} (fs : Fields) (key other : String) (default : α)
    (read : Value → Checked α) : Checked α :=
  if (Fields.get? fs key).isSome then withDefault fs key default read
  else withDefault fs other default read

/-- The settings of the section for the server, or all its faults. -/
def ofServer : Value → Checked Settings :=
  Schema.fields fun fs =>
    let d : Settings := {}
    Checked.ap (Checked.ap (Checked.ap (Checked.ap (Checked.ap
      (Checked.ap (Checked.ap (Checked.ap (Checked.ap (Checked.ap
      (.ok Settings.mk)
      (withDefault fs "host" d.host text))
      (withDefault fs "port" d.port int))
      (member fs "write-timeout" "write_timeout" d.writeTimeout real))
      (member fs "read-timeout" "read_timeout" d.readTimeout real))
      (member fs "idle-timeout" "idle_timeout" d.idleTimeout real))
      (member fs "allowed-origins" "allowed_origins" d.origins (list text)))
      (member fs "log-level" "log_level" d.logLevel text))
      (member fs "btc-net" "btc_net" d.networkName text))
      (member fs "db-path" "db_path" d.databasePath text))
      (member fs "max-page-size" "max_page_size" d.pageSize int)

/-- The settings of a document, or all its faults. -/
def ofValue : Value → Checked Settings :=
  Schema.fields fun fs => withDefault fs "server" {} ofServer

/-- The section for the server. -/
def toSection (s : Settings) : Yaml.Section where
  name := "server"
  members := [("host", .text s.host),
    ("port", .int s.port),
    ("write-timeout", .real s.writeTimeout),
    ("read-timeout", .real s.readTimeout),
    ("idle-timeout", .real s.idleTimeout),
    ("allowed-origins", .texts s.origins),
    ("log-level", .text s.logLevel),
    ("btc-net", .text s.networkName),
    ("db-path", .text s.databasePath),
    ("max-page-size", .int s.pageSize)]

/-- The name of the schema in messages. -/
def schemaName : String := "Config"

end StakeLedger.Settings
