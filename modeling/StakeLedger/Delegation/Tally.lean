import StakeLedger.Delegation.Basic

/-!
# Tallies over delegations

Counts and checks over a list of delegations.  Unbonded delegations are never
counted, and the order of the list never matters.

Main definitions:

- {lit}`Tally.stakers`: how many stakers have a countable delegation.
- {lit}`Tally.delegations`: how many delegations are countable.
- {lit}`Window`: a lower bound on the time of creation.
- {lit}`Tally.hasActive`: whether a window holds an active delegation.

Main results:

- Theorem {lit}`Tally.delegations_append`: counting two lists one after the other.
-/

namespace StakeLedger

/-- The times from a lower bound on, in Unix seconds. -/
structure Window where
  lowerBound : Int := 0
deriving DecidableEq, Repr

/-- Whether a time is in the window. -/
def Window.contains (w : Window) (timestamp : Int) : Bool :=
  w.lowerBound ≤ timestamp

namespace Tally

/-- A list of keys with one more, unless it is there. -/
def note (seen : List String) (key : String) : List String :=
  if key ∈ seen then seen else key :: seen

/-- How many stakers have a countable delegation. -/
def stakers (ds : List Delegation) : Nat :=
  ((ds.filter Delegation.isCountable).map Delegation.staker).foldl note [] |>.length

/-- How many delegations are countable. -/
def delegations (ds : List Delegation) : Nat :=
  (ds.filter Delegation.isCountable).length

/-- Whether a window holds an active delegation. -/
def hasActive (ds : List Delegation) (w : Window) : Bool :=
  ds.any fun d => d.isActive && w.contains d.createdAt

/-- Counting two lists one after the other. -/
theorem delegations_append (xs ys : List Delegation) :
    delegations (xs ++ ys) = delegations xs + delegations ys := by
  simp [delegations]

end Tally

end StakeLedger
