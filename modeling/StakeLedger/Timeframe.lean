import StakeLedger.Calendar
import StakeLedger.Delegation.Tally

/-!
# Timeframes

A check may be limited to delegations made today, which is to say since midnight
in UTC.

Main definitions:

- {lit}`Timeframe.ofText?`: the timeframe that a client names.
- {lit}`Timeframe.window`: the window of a timeframe at a time of the clock.
- {lit}`Timeframe.windowAt`: the window of a timeframe at a date and a time of day.
-/

namespace StakeLedger

/-- The timeframes of a check. -/
inductive Timeframe where
  | unlimited
  | today
deriving DecidableEq, Repr

namespace Timeframe

/-- The timeframe that a client names. -/
def ofText? (text : String) : Option Timeframe :=
  if text = "" then some .unlimited
  else if text = "today" then some .today
  else none

/-- What is said of any other text. -/
def unknownMessage : String := "invalid timeframe value"

/-- The window of a timeframe.  Without a limit the lower bound is zero; today
begins at midnight of the clock's day in UTC. -/
def window (t : Timeframe) (clock : Int) : Except Calendar.Fault Window :=
  match t with
  | .unlimited => .ok {}
  | .today => (Calendar.startOfDay clock).map fun start => ⟨start⟩

/-- The window of a timeframe at a date and a time of day. -/
def windowAt (t : Timeframe) (now : Calendar.LocalTime) : Except Calendar.Fault Window :=
  t.window now.unixSeconds

end Timeframe

end StakeLedger
