import StakeLedger.Proofs.Delegation.Body
import StakeLedger.Proofs.Schema.Scalar

/-!
# What delegations are read from

Documents are read leniently, so one delegation is read from many of them.  A document
describes a delegation if it gives each member in one of the ways that are taken for it;
what else the document holds does not matter.  The document that is written for a
delegation is one of them, and no number that is read is too long to be read again, so what
was read is kept by writing and reading it again.

Main definitions:

- {lit}`Timelock.Describes`, {lit}`Delegation.Describes`: the documents of a timelock and of a
  delegation.

Main results:

- Theorem {lit}`Delegation.ofValue_eq_ok_iff`: what delegations are read from.
- Theorem {lit}`Delegation.isLegible_of_ofBody`: what was read can be read again.
- Theorem {lit}`Delegation.body_exact`: which kept texts read back, and that what was read does.
-/

namespace StakeLedger

open Schema

/-! ## Documents -/

/-- The documents of a timelock. -/
structure Timelock.Describes (fs : Fields) (t : Timelock) : Prop where
  txHex : fs.Gives "tx_hex" (· = .text t.txHex)
  outputIndex : fs.Gives "output_index" (Whole · t.outputIndex)
  startTimestamp : fs.Gives "start_timestamp" (Whole · t.startTimestamp)
  startHeight : fs.Gives "start_height" (Whole · t.startHeight)
  blocks : fs.Gives "timelock" (Whole · t.blocks)

/-- The documents of a delegation.  An unbonding transaction may be missing or nothing, and
where it is not said whether there is an overflow there is none. -/
structure Delegation.Describes (fs : Fields) (d : Delegation) : Prop where
  txHash : fs.Gives "staking_tx_hash_hex" (· = .text d.txHash)
  staker : fs.Gives "staker_pk_hex" (· = .text d.staker)
  provider : fs.Gives "finality_provider_pk_hex" (· = .text d.provider)
  value : fs.Gives "staking_value" (Whole · d.value)
  state : fs.Gives "state" (· = .text d.state.name)
  staking : fs.Gives "staking_tx" fun v => ∃ ts, v = .dict ts ∧ Timelock.Describes ts d.staking
  unbonding : (Fields.get? fs "unbonding_tx" = none ∧ d.unbonding = none) ∨
    fs.Gives "unbonding_tx" fun v => (v = .null ∧ d.unbonding = none) ∨
      ∃ t, (∃ ts, v = .dict ts ∧ Timelock.Describes ts t) ∧ d.unbonding = some t
  isOverflow : (Fields.get? fs "is_overflow" = none ∧ d.isOverflow = false) ∨
    fs.Gives "is_overflow" (Truth · d.isOverflow)

/-- What timelocks are read from. -/
theorem Timelock.ofValue_eq_ok_iff (v : Value) (t : Timelock) :
    Timelock.ofValue v = .ok t ↔ ∃ ts, v = .dict ts ∧ Timelock.Describes ts t := by
  rw [Timelock.ofValue, fields_eq_ok_iff]
  refine exists_congr fun ts => and_congr_right fun _ => ?_
  simp only [Checked.ap_eq_ok_iff, required_eq_ok_iff, text_eq_ok_iff, int_eq_ok_iff,
    Except.ok.injEq]
  constructor
  · rintro ⟨_, ⟨_, ⟨_, ⟨_, ⟨_, rfl, _, htx, rfl⟩, _, hindex, rfl⟩, _, htime, rfl⟩, _, hheight, rfl⟩,
      _, hblocks, rfl⟩
    exact ⟨htx, hindex, htime, hheight, hblocks⟩
  · rintro ⟨htx, hindex, htime, hheight, hblocks⟩
    exact ⟨_, ⟨_, ⟨_, ⟨_, ⟨_, rfl, _, htx, rfl⟩, _, hindex, rfl⟩, _, htime, rfl⟩, _, hheight, rfl⟩,
      _, hblocks, rfl⟩

namespace Delegation

/-- What states are read from. -/
theorem State.ofValue_eq_ok_iff (v : Value) (s : State) :
    State.ofValue v = .ok s ↔ v = .text s.name := by
  constructor
  · intro h
    unfold State.ofValue at h
    split at h
    · next name =>
      split at h
      · next state hstate =>
        obtain rfl := Except.ok.inj h
        have hname : state.name = name := by simpa using List.find?_some hstate
        rw [hname]
      · exact nomatch h
    · exact nomatch h
  · rintro rfl
    exact State.ofValue_name s

/-- What delegations are read from. -/
theorem ofValue_eq_ok_iff (v : Value) (d : Delegation) :
    ofValue v = .ok d ↔ ∃ fs, v = .dict fs ∧ Describes fs d := by
  have hnull (t : Timelock) : Timelock.ofValue .null ≠ .ok t := fun h => nomatch h
  rw [ofValue, fields_eq_ok_iff]
  refine exists_congr fun fs => and_congr_right fun _ => ?_
  simp only [Checked.ap_eq_ok_iff, required_eq_ok_iff, withDefault_eq_ok_iff, text_eq_ok_iff,
    int_eq_ok_iff, bool_eq_ok_iff, State.ofValue_eq_ok_iff, nullable_eq_ok_iff hnull,
    Timelock.ofValue_eq_ok_iff, Except.ok.injEq]
  constructor
  · rintro ⟨_, ⟨_, ⟨_, ⟨_, ⟨_, ⟨_, ⟨_, ⟨_, rfl, _, hhash, rfl⟩, _, hstaker, rfl⟩, _, hprovider,
      rfl⟩, _, hvalue, rfl⟩, _, hstate, rfl⟩, _, hstaking, rfl⟩, _, hunbonding, rfl⟩, _,
      hoverflow, rfl⟩
    exact ⟨hhash, hstaker, hprovider, hvalue, hstate, hstaking, hunbonding, hoverflow⟩
  · rintro ⟨hhash, hstaker, hprovider, hvalue, hstate, hstaking, hunbonding, hoverflow⟩
    exact ⟨_, ⟨_, ⟨_, ⟨_, ⟨_, ⟨_, ⟨_, ⟨_, rfl, _, hhash, rfl⟩, _, hstaker, rfl⟩, _, hprovider, rfl⟩,
      _, hvalue, rfl⟩, _, hstate, rfl⟩, _, hstaking, rfl⟩, _, hunbonding, rfl⟩, _, hoverflow, rfl⟩

/-- A text is read as what the document that it spells describes. -/
theorem ofBody_eq_ok_iff (text : String) (d : Delegation) :
    ofBody text = .ok d ↔ ∃ fs, Json.accept? text = some (.dict fs) ∧ Describes fs d := by
  rw [ofBody]
  cases hparse : Json.accept? text with
  | none => simp
  | some v =>
      simp only [ofValue_eq_ok_iff, Option.some.injEq]

/-! ## What was read is kept -/

/-- A number that was read from a document within the limit is written within it: a double
and a truth value that are taken for a number stand for small ones. -/
theorem length_le_of_whole {v : Value} {n : Int} (h : Whole v n)
    (hv : Json.Within (some Json.longestWhole) v) :
    (Json.writeInt n).length ≤ Json.longestWhole := by
  have hsmall {m : Int} (hm : m.natAbs < 10 ^ 19) :
      (Json.writeInt m).length ≤ Json.longestWhole := by
    refine (Json.length_writeInt_le (by norm_num) hm).trans ?_
    rw [Json.longestWhole]
    split <;> norm_num
  cases h with
  | int => exact Json.within_int_iff.mp hv
  | bool b =>
      refine hsmall ?_
      cases b <;> norm_num
  | real _ hsize => exact hsmall (hsize.trans (by norm_num))
  | text _ hlength => exact hlength

/-- The numbers of a timelock that was read from a document within the limit. -/
theorem length_le_of_timelock {ts : Fields} {t : Timelock} (ht : t.Describes ts)
    (hts : Json.Within (some Json.longestWhole) (.dict ts)) :
    ∀ n ∈ t.numbers, (Json.writeInt n).length ≤ Json.longestWhole := by
  have hmember {key : String} {n : Int} (hgives : ts.Gives key (Whole · n)) :
      (Json.writeInt n).length ≤ Json.longestWhole := by
    obtain ⟨v, hget, hv⟩ := hgives
    exact length_le_of_whole hv (hts.get? hget)
  simp only [Timelock.numbers, List.forall_mem_cons]
  exact ⟨hmember ht.outputIndex, hmember ht.startTimestamp, hmember ht.startHeight,
    hmember ht.blocks, List.forall_mem_nil _⟩

/-- What was read can be read again. -/
theorem isLegible_of_ofBody {text : String} {d : Delegation} (h : ofBody text = .ok d) :
    d.IsLegible := by
  obtain ⟨fs, haccept, hd⟩ := (ofBody_eq_ok_iff text d).mp h
  have hfs := Json.within_of_readWithin? haccept
  have hvalue : (Json.writeInt d.value).length ≤ Json.longestWhole := by
    obtain ⟨v, hget, hv⟩ := hd.value
    exact length_le_of_whole hv (hfs.get? hget)
  have hstaking : ∀ n ∈ d.staking.numbers, (Json.writeInt n).length ≤ Json.longestWhole := by
    obtain ⟨_, hget, ts, rfl, ht⟩ := hd.staking
    exact length_le_of_timelock ht (hfs.get? hget)
  have hunbonding : ∀ n ∈ (d.unbonding.map Timelock.numbers).getD [],
      (Json.writeInt n).length ≤ Json.longestWhole := by
    rcases hd.unbonding with ⟨_, hnone⟩ | ⟨_, hget, ⟨_, hnone⟩ | ⟨t, ⟨ts, rfl, ht⟩, hsome⟩⟩
    · simp [hnone]
    · simp [hnone]
    · rw [hsome]
      exact length_le_of_timelock ht (hfs.get? hget)
  exact List.forall_mem_cons.mpr ⟨hvalue, List.forall_mem_append.mpr ⟨hstaking, hunbonding⟩⟩

/-- The text that is kept for a delegation reads back exactly if none of its numbers is too
long to be read, whatever its other members are; otherwise it spells no document.  A document
is read as the delegations that it describes and no others, whatever else it holds.  What was
read from a document is written as a document that is read as the same, and what was read from
a text is written as a text that is read as the same. -/
theorem body_exact :
    (∀ d : Delegation,
      (ofBody d.body = .ok d ↔ d.IsLegible) ∧ (¬d.IsLegible → ofBody d.body = .fail .jsonInvalid)) ∧
    (∀ v d, ofValue v = .ok d ↔ ∃ fs, v = .dict fs ∧ Describes fs d) ∧
    (∀ text d, ofBody text = .ok d ↔
      ∃ fs, Json.accept? text = some (.dict fs) ∧ Describes fs d) ∧
    (∀ fs d, Describes fs d → ofValue (.dict fs) = .ok d ∧ ofValue d.toValue = .ok d) ∧
    ∀ text d, ofBody text = .ok d → d.IsLegible ∧ ofBody d.body = .ok d := by
  have hlegible {d : Delegation} (hd : d.IsLegible) : ofBody d.body = .ok d := by
    rw [ofBody_body, if_pos hd]
  refine ⟨fun d => ⟨⟨isLegible_of_ofBody, hlegible⟩, fun hd => ?_⟩, ofValue_eq_ok_iff,
    ofBody_eq_ok_iff, fun fs d h => ⟨?_, d.ofValue_toValue⟩, fun text d h => ?_⟩
  · rw [ofBody_body, if_neg hd]
  · exact (ofValue_eq_ok_iff _ d).mpr ⟨fs, rfl, h⟩
  · exact ⟨isLegible_of_ofBody h, hlegible (isLegible_of_ofBody h)⟩

/-- A delegation of an amount that is written with one digit too many. -/
def vast : Delegation where
  txHash := "aaaaaaaaaaaaaaaaaaaaaaaaaaaaaaaaaaaaaaaaaaaaaaaaaaaaaaaaaaaaaaaa"
  staker := "111111111111111111111111111111111111111111111111111111111111111111"
  provider := "222222222222222222222222222222222222222222222222222222222222222222"
  value := 10 ^ Json.longestWhole
  state := .active
  staking := { txHex := "00", outputIndex := 0, startTimestamp := 5, startHeight := 3, blocks := 1 }

/-- The text of such a delegation is kept and is not read. -/
theorem not_read_vast : ofBody vast.body = .fail .jsonInvalid ∧ ofBody vast.body ≠ .ok vast := by
  have hvast : ¬vast.IsLegible := by
    intro h
    exact Json.not_length_writeInt_pow (by decide) (h _ List.mem_cons_self)
  rw [ofBody_body, if_neg hvast]
  exact ⟨rfl, Checked.fail_ne_ok _ _⟩

end Delegation

end StakeLedger
