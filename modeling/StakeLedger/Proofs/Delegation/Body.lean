import StakeLedger.Delegation.Document
import StakeLedger.Proofs.Json.Limit

/-!
# Kept delegations read back

The ledger keeps the text of a delegation.  Numbers of any size are written into it, and
those that are written with too many characters are not read again: the text of a delegation
reads back exactly if none of its numbers is that long.

Main definitions:

- {lit}`Delegation.IsLegible`: all numbers of a delegation are short enough to be read.

Main results:

- Theorem {lit}`Delegation.ofValue_toValue`: the document of a delegation has no faults.
- Theorem {lit}`Delegation.ofBody_body`: what is read from the kept text of a delegation.
-/

namespace StakeLedger

open Schema

/-! ## Numbers that can be read -/

/-- The whole numbers of a timelock. -/
def Timelock.numbers (t : Timelock) : List Int :=
  [t.outputIndex, t.startTimestamp, t.startHeight, t.blocks]

namespace Delegation

/-- The whole numbers of a delegation. -/
def numbers (d : Delegation) : List Int :=
  d.value :: (d.staking.numbers ++ (d.unbonding.map Timelock.numbers).getD [])

/-- All numbers of the delegation are short enough to be read. -/
def IsLegible (d : Delegation) : Prop :=
  ∀ n ∈ d.numbers, (Json.writeInt n).length ≤ Json.longestWhole

instance (d : Delegation) : Decidable d.IsLegible :=
  inferInstanceAs (Decidable (∀ n ∈ d.numbers, (Json.writeInt n).length ≤ Json.longestWhole))

end Delegation

/-! ## Timelocks -/

/-- The document of a timelock is nested once. -/
theorem Timelock.plain_toValue {depth : Nat} (t : Timelock) :
    Json.Plain none (depth + 1) t.toValue := by
  refine .dict (by simp) ?_
  intro pair hpair
  simp only [List.mem_cons, List.not_mem_nil, or_false] at hpair
  rcases hpair with rfl | rfl | rfl | rfl | rfl
  · exact .text _
  all_goals exact .int (Json.Token.allows_none _)

/-- The document of a timelock reads back. -/
theorem Timelock.ofValue_toValue (t : Timelock) : Timelock.ofValue t.toValue = .ok t := by
  simp [Timelock.ofValue, Timelock.toValue, Schema.fields, required, Fields.get?, List.lookup_cons,
    Schema.text, Schema.int, Checked.ap, Checked.within]

namespace Delegation

/-! ## Delegations -/

/-- The document of a delegation is nested twice. -/
theorem plain_toValue {depth : Nat} (d : Delegation) :
    Json.Plain none (depth + 2) d.toValue := by
  refine .dict (by simp) ?_
  intro pair hpair
  simp only [List.mem_cons, List.not_mem_nil, or_false] at hpair
  rcases hpair with rfl | rfl | rfl | rfl | rfl | rfl | rfl | rfl
  · exact .text _
  · exact .text _
  · exact .text _
  · exact .int (Json.Token.allows_none _)
  · exact .text _
  · exact d.staking.plain_toValue
  · cases d.unbonding with
    | none => exact .null
    | some t => exact t.plain_toValue
  · exact .bool _

/-- The name of a state reads back. -/
theorem State.ofValue_name (s : State) : State.ofValue (.text s.name) = .ok s := by
  rw [State.ofValue, State.ofName?_name]

/-- The unbonding transaction of a delegation reads back, and so does its
absence. -/
theorem nullable_toValue (t : Option Timelock) :
    nullable Timelock.ofValue ((t.map Timelock.toValue).getD .null) = .ok t := by
  cases t with
  | none => rfl
  | some t =>
      change (Timelock.ofValue t.toValue).map some = .ok (some t)
      rw [Timelock.ofValue_toValue]
      rfl

/-- The document of a delegation has no faults and is the delegation's. -/
theorem ofValue_toValue (d : Delegation) : ofValue d.toValue = .ok d := by
  simp [ofValue, toValue, Schema.fields, required, withDefault, Fields.get?, List.lookup_cons,
    Schema.text, Schema.int, Schema.bool, State.ofValue_name, Timelock.ofValue_toValue,
    nullable_toValue, Checked.ap, Checked.within]

/-- The document of a timelock holds its numbers. -/
theorem within_timelock_iff (t : Timelock) :
    Json.Within (some Json.longestWhole) t.toValue ↔
      ∀ n ∈ t.numbers, (Json.writeInt n).length ≤ Json.longestWhole := by
  simp [Timelock.toValue, Timelock.numbers, Json.within_dict_iff, Json.within_int_iff,
    Json.Within.text]

/-- The document of a delegation holds its numbers. -/
theorem within_toValue_iff (d : Delegation) :
    Json.Within (some Json.longestWhole) d.toValue ↔ d.IsLegible := by
  have hunbonding : Json.Within (some Json.longestWhole)
      ((d.unbonding.map Timelock.toValue).getD .null) ↔
      ∀ n ∈ (d.unbonding.map Timelock.numbers).getD [],
        (Json.writeInt n).length ≤ Json.longestWhole := by
    cases d.unbonding with
    | none => simp [Json.Within.null]
    | some t => exact within_timelock_iff t
  simp only [toValue, IsLegible, numbers, Json.within_dict_iff, List.forall_mem_cons,
    List.forall_mem_append, Json.within_int_iff, within_timelock_iff, hunbonding]
  simp [Json.Within.text, Json.Within.bool]

/-- The kept text of a delegation reads back if all its numbers can be read, and spells no
document otherwise. -/
theorem ofBody_body (d : Delegation) :
    ofBody d.body = if d.IsLegible then .ok d else .fail .jsonInvalid := by
  have hplain : Json.Plain none (Json.maxDepth - 2 + 2) d.toValue := d.plain_toValue
  have hread := @Json.readWithin?_write_cases (some Json.longestWhole) .unicode _ _ hplain
  rw [within_toValue_iff] at hread
  have haccept : Json.accept? d.body =
      Json.readWithin? (some Json.longestWhole) (Json.maxDepth - 2 + 2)
        (String.ofList (Json.write .unicode d.toValue)) := rfl
  rw [ofBody, haccept]
  by_cases hd : d.IsLegible
  · rw [hread.1 hd, if_pos hd]
    exact d.ofValue_toValue
  · rw [hread.2 hd, if_neg hd]

/-- Different delegations have different texts, whether these can be read or not. -/
theorem body_injective : Function.Injective body := by
  intro a b h
  have hread (d : Delegation) :
      (Json.parse? d.body).map ofValue = some (.ok d) := by
    have hplain : Json.Plain none (Json.maxDepth - 2 + 2) d.toValue := d.plain_toValue
    have hparse : Json.parse? d.body = Json.readWithin? none (Json.maxDepth - 2 + 2)
        (String.ofList (Json.write .unicode d.toValue)) := rfl
    rw [hparse, Json.readWithin?_write .unicode hplain, Option.map_some, ofValue_toValue]
  have hb := hread b
  rw [← h] at hb
  exact Except.ok.inj (Option.some.inj ((hread a).symm.trans hb))

end Delegation

end StakeLedger
