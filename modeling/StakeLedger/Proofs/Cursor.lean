import StakeLedger.Cursor
import StakeLedger.Proofs.Json.Limit
import StakeLedger.Proofs.Text.Base64
import StakeLedger.Proofs.Text.Utf8

/-!
# Pagination keys read back

A pagination key is the base64 text of a written cursor.  A cursor with both
parts reads back, whatever its hash is, and its key is not the empty one, which
is the start's.

Main results:

- Theorem {lit}`Cursor.ofKey?_key`: the key of a cursor with both parts reads back.
- Theorem {lit}`Cursor.padded_key`: keys are padded URL-safe text.
- Theorem {lit}`Cursor.key_round_trip`: what the keys of all kinds of cursors are read as.
- Theorem {lit}`Cursor.key_eq_empty_iff`: only the start has the empty key.
- Theorem {lit}`Cursor.after_eq`, {lit}`Cursor.after_of_neg`: the cursor of a delegation whose
  height is within bounds, and that there is none at a negative height.
-/

namespace StakeLedger.Cursor

open Schema

/-! ## Cursors as documents -/

/-- A height has nineteen digits at most. -/
theorem length_writeInt_height (h : Height) : (Json.writeInt (h.val : Int)).length ≤ 19 := by
  have hbound := h.isLt
  refine (Json.length_writeInt_le_iff (by omega) (by omega)).mpr ?_
  rw [Int.natAbs_natCast]
  omega

/-- The document of a cursor is nested once, and its height is short enough to be read. -/
theorem plain_toValue {depth : Nat} (c : Cursor) :
    Json.Plain (some Json.longestWhole) (depth + 1) c.toValue := by
  refine .dict (by simp) ?_
  intro pair hpair
  simp only [List.mem_cons, List.not_mem_nil, or_false] at hpair
  rcases hpair with rfl | rfl
  · unfold hashValue
    split
    · exact .text _
    · exact .null
  · unfold heightValue
    split
    · next h _ =>
      exact .int (Json.Token.allows_some_iff.mpr ((length_writeInt_height h).trans (by decide)))
    · exact .null

/-- A whole number within the bounds is a height. -/
theorem heightOfValue_int (h : Height) : heightOfValue (.int h.val) = .ok h := by
  have hlow : ¬(h.val : Int) < 0 := by omega
  have hhigh : ¬(0x7fffffffffffffff : Int) < h.val := by
    have := h.isLt
    omega
  simp only [heightOfValue, intWithin, Schema.int, if_neg hlow, if_neg hhigh]
  change Except.ok (Fin.ofNat 0x8000000000000000 h.val) = Except.ok h
  rw [Fin.ofNat_val_eq_self]

/-- A written height reads back. -/
theorem nullable_heightValue (c : Cursor) :
    nullable heightOfValue c.heightValue = .ok c.height := by
  unfold heightValue
  cases hc : c.height with
  | none => rfl
  | some h =>
      change (heightOfValue (.int h.val)).map some = .ok (some h)
      rw [heightOfValue_int]
      rfl

/-- A written hash reads back. -/
theorem nullable_hashValue (c : Cursor) : nullable Schema.text c.hashValue = .ok c.txHash := by
  unfold hashValue
  cases c.txHash <;> rfl

/-- A document with the two members of a cursor, and no others, is that
cursor's. -/
theorem ofValue_dict {fs : Fields} {c : Cursor}
    (hheight : Fields.get? fs "start_height" = some c.heightValue)
    (hhash : Fields.get? fs "staking_tx_hash_hex" = some c.hashValue)
    (honly : onlyKeys fs keys = .ok ()) : ofValue (.dict fs) = .ok c := by
  simp only [ofValue, Schema.fields, withDefault, hheight, hhash, honly, nullable_heightValue,
    nullable_hashValue, Checked.within, Checked.ap]

/-- The document of a cursor reads back. -/
theorem ofValue_toValue (c : Cursor) : ofValue c.toValue = .ok c :=
  ofValue_dict (by simp [Fields.get?, List.lookup_cons]) (by simp [Fields.get?])
    (by simp [onlyKeys, keys])

/-- A delegation has a cursor if its height is one that a cursor can hold. -/
theorem after_eq_map (d : Delegation) :
    after d = Checked.within "start_height"
      ((heightOfValue (.int d.staking.startHeight)).map fun h => ⟨some h, some d.txHash⟩) := by
  cases hread : heightOfValue (.int d.staking.startHeight) <;>
    simp [after, ofValue, Schema.fields, withDefault, Fields.get?, List.lookup_cons, hread,
      nullable, Schema.text, onlyKeys, keys, Except.map, Checked.within, Checked.ap]

/-- The cursor of a delegation whose height is within bounds. -/
theorem after_eq {d : Delegation} {h : Height} (hh : d.staking.startHeight = h.val) :
    after d = .ok ⟨some h, some d.txHash⟩ := by
  rw [after_eq_map, hh, heightOfValue_int]
  rfl

/-- A delegation whose height is negative has no cursor. -/
theorem after_of_neg {d : Delegation} (hneg : d.staking.startHeight < 0) :
    after d = .error [⟨["start_height"], .tooSmall⟩] := by
  have hheight : heightOfValue (.int d.staking.startHeight) = .error [⟨[], .tooSmall⟩] := by
    simp [heightOfValue, intWithin, Schema.int, hneg, Checked.fail, Except.map]
  rw [after_eq_map, hheight]
  rfl

/-- The cursor of a delegation, if it has one, has both parts. -/
theorem eq_of_after {d : Delegation} {c : Cursor} (h : after d = .ok c) :
    ∃ height, c = ⟨some height, some d.txHash⟩ := by
  rw [after_eq_map] at h
  cases hread : heightOfValue (.int d.staking.startHeight) with
  | error faults =>
      rw [hread] at h
      cases h
  | ok height =>
      rw [hread] at h
      cases h
      exact ⟨height, rfl⟩

/-! ## Keys -/

/-- The octets that the key of a cursor spells. -/
private theorem encode_ascii_ne_nil (c : Cursor) :
    Utf8.encode (Json.ascii c.toValue).toList ≠ [] := by
  have hfirst : (Json.ascii c.toValue).toList.head? = some '\x7b' := by
    simp [Json.ascii, toValue, Json.write]
  obtain ⟨rest, hrest⟩ := List.head?_eq_some_iff.mp hfirst
  rw [hrest, Utf8.encode, List.flatMap_cons]
  simp [Utf8.encodeChar_ne_nil]

/-- The empty key stands for the start. -/
theorem ofKey?_empty : ofKey? "" = some start := by
  rw [ofKey?, if_pos rfl]

/-- Only the start has the empty key. -/
theorem key_eq_empty_iff (c : Cursor) : c.key = "" ↔ c.isStart = true := by
  by_cases hstart : c.isStart = true
  · simp [key, hstart]
  · have hne := Base64.encode_ne_nil (encode_ascii_ne_nil c)
    simp [key, hstart, hne]

/-- The key of a cursor that is not the start is base64 text. -/
theorem toList_key {c : Cursor} (hstart : c.isStart = false) :
    c.key.toList = Base64.encode (Utf8.encode (Json.ascii c.toValue).toList) := by
  simp [key, hstart]

/-- The key of a cursor that is not the start is read as the cursor, which counts
only with both parts. -/
theorem ofKey?_key_of_not_isStart {c : Cursor} (hstart : c.isStart = false) :
    ofKey? c.key = if c.height.isSome && c.txHash.isSome then some c else none := by
  have hne : c.key ≠ "" := by
    rw [Ne, key_eq_empty_iff, hstart]
    exact Bool.false_ne_true
  have hascii : (c.key.toList.any fun ch => 127 < ch.toNat) = false := by
    rw [toList_key hstart, List.any_eq_false]
    intro ch hch
    have := Base64.toNat_le_of_mem_encode hch
    simp only [decide_eq_true_eq]
    omega
  have hplain : Json.Plain (some Json.longestWhole) (Json.maxDepth - 1 + 1) c.toValue :=
    plain_toValue c
  have hparse : Json.accept? (Json.ascii c.toValue) = some c.toValue :=
    Json.readWithin?_write .ascii hplain
  rw [ofKey?, if_neg hne, hascii, toList_key hstart, Base64.decode?_encode]
  simp [Utf8.decode?_encode, hparse, ofValue_toValue]

/-- The key of a cursor with both parts reads back. -/
theorem ofKey?_key (h : Height) (x : String) :
    ofKey? (key ⟨some h, some x⟩) = some ⟨some h, some x⟩ := by
  rw [ofKey?_key_of_not_isStart rfl]
  rfl

/-- A key is empty or base64 text, so it is padded text in any case. -/
theorem padded_key (c : Cursor) : Base64.Padded c.key.toList := by
  cases hstart : c.isStart with
  | true =>
      rw [(key_eq_empty_iff c).mpr hstart]
      exact Base64.padded_encode []
  | false =>
      rw [toList_key hstart]
      exact Base64.padded_encode _

/-- Only a cursor with both parts has its key: the start has the empty one, and the
key of a cursor with one part is not read. -/
theorem key_eq_key_iff (c : Cursor) (h : Height) (x : String) :
    c.key = key ⟨some h, some x⟩ ↔ c = ⟨some h, some x⟩ := by
  constructor
  · intro hkey
    have hread : ofKey? c.key = some ⟨some h, some x⟩ := by rw [hkey, ofKey?_key]
    cases hstart : c.isStart with
    | true =>
        have hempty := (key_eq_empty_iff c).mpr hstart
        rw [hkey, key_eq_empty_iff] at hempty
        exact absurd hempty (by simp [isStart])
    | false =>
        rw [ofKey?_key_of_not_isStart hstart, Option.ite_none_right_eq_some] at hread
        exact Option.some.inj hread.2
  · rintro rfl
    rfl

/-- Keys of all four kinds of cursors: the start has the empty key, and this is read
as the start; a cursor with both parts has padded URL-safe text of its own, which is
read as the cursor; and the key of a cursor with one part is not read. -/
theorem key_round_trip :
    (key ⟨none, none⟩ = "" ∧ ofKey? "" = some ⟨none, none⟩) ∧
    (∀ (h : Height) (x : String),
      key ⟨some h, some x⟩ ≠ "" ∧ Base64.Padded (key ⟨some h, some x⟩).toList ∧
        ofKey? (key ⟨some h, some x⟩) = some ⟨some h, some x⟩ ∧
        ∀ c : Cursor, c.key = key ⟨some h, some x⟩ ↔ c = ⟨some h, some x⟩) ∧
    (∀ h : Height, ofKey? (key ⟨some h, none⟩) = none) ∧
    (∀ x : String, ofKey? (key ⟨none, some x⟩) = none) := by
  refine ⟨⟨rfl, by simp [ofKey?, start]⟩, fun h x => ⟨?_, padded_key _, ofKey?_key h x, ?_⟩,
    fun h => ?_, fun x => ?_⟩
  · rw [Ne, key_eq_empty_iff]
    simp [isStart]
  · exact fun c => key_eq_key_iff c h x
  · rw [ofKey?_key_of_not_isStart rfl]
    rfl
  · rw [ofKey?_key_of_not_isStart rfl]
    rfl

end StakeLedger.Cursor
