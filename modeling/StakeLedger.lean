import StakeLedger.Main
import StakeLedger.Proofs.Json.Scan
import StakeLedger.Proofs.Json.Document
import StakeLedger.Proofs.Delegation.Body
import StakeLedger.Proofs.Delegation.Lenient
import StakeLedger.Proofs.Text.Base64
import StakeLedger.Proofs.Cursor
import StakeLedger.Proofs.Ledger.Listing
import StakeLedger.Proofs.Ledger.Page
import StakeLedger.Proofs.Desk.Walk
import StakeLedger.Proofs.Desk.Visit
import StakeLedger.Proofs.Desk.Counts
import StakeLedger.Proofs.Desk.Page
import StakeLedger.Proofs.Desk.Heights
import StakeLedger.Proofs.Desk.Activity
import StakeLedger.Proofs.Http.Site
import StakeLedger.Proofs.Query.Checks
import StakeLedger.Proofs.Query.Foreseen
import StakeLedger.Proofs.Query.Whole
import StakeLedger.Proofs.Seeding.Dataset
import StakeLedger.Proofs.Http.Accounts
import StakeLedger.Proofs.Settings.File
import StakeLedger.Proofs.Settings.Checks
import StakeLedger.Proofs.Settings.Listener
import StakeLedger.Proofs.Command.Serve
import StakeLedger.Proofs.Directory.Walk
import StakeLedger.Proofs.Command.Failure
import StakeLedger.Proofs.Address.Bech32
import StakeLedger.Proofs.Address.Segwit
import StakeLedger.Proofs.Address.Distance
import StakeLedger.Proofs.Address.Taproot
import StakeLedger.Proofs.Address.Version
import StakeLedger.Proofs.Calendar
import StakeLedger.Proofs.Calendar.Instant
import StakeLedger.Proofs.Timeframe
import StakeLedger.Proofs.Key.Spelling
import StakeLedger.Proofs.Query.Spelling
import StakeLedger.Proofs.Command.Admission
