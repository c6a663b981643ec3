import StakeLedger.Delegation.Document
import StakeLedger.Text.Base64
import StakeLedger.Text.Utf8

/-!
# Cursors and pagination keys

A cursor marks the last delegation of a page by its place in the order of the
listing: its start height and its transaction hash.  Clients see it as a
pagination key, the URL-safe base64 text of a small document; the empty key is
the start.

Main definitions:

- {lit}`Cursor`: a place in the listing; the start has neither part.
- {lit}`Cursor.after`: the cursor of the last delegation of a page.
- {lit}`Cursor.key`, {lit}`Cursor.ofKey?`: pagination keys.
-/

namespace StakeLedger

open Schema

/-- The heights that a cursor can hold: those of a signed column of sixty-four
bits that are not negative. -/
abbrev Height := Fin 0x8000000000000000

/-- A place in the listing. -/
structure Cursor where
  height : Option Height := none
  txHash : Option String := none
deriving DecidableEq

namespace Cursor

/-- The cursor before the first delegation. -/
def start : Cursor := {}

/-- Whether a cursor has neither part. -/
def isStart (c : Cursor) : Bool :=
  c.height.isNone && c.txHash.isNone

/-- A whole number within the bounds of a height. -/
def heightOfValue (v : Value) : Checked Height :=
  (intWithin 0 0x7fffffffffffffff v).map fun n => Fin.ofNat 0x8000000000000000 n.toNat

/-- The keys of the document of a cursor. -/
def keys : List String :=
  ["start_height", "staking_tx_hash_hex"]

/-- The cursor of a document, or all its faults; other keys are faults. -/
def ofValue : Value → Checked Cursor :=
  Schema.fields fun fs =>
    Checked.ap (Checked.ap (Checked.ap (.ok fun height txHash _ => ⟨height, txHash⟩)
      (withDefault fs "start_height" none (nullable heightOfValue)))
      (withDefault fs "staking_tx_hash_hex" none (nullable Schema.text)))
      (onlyKeys fs keys)

/-- The height of a cursor as a document shows it. -/
def heightValue (c : Cursor) : Value :=
  match c.height with
  | some h => .int h.val
  | none => .null

/-- The hash of a cursor as a document shows it. -/
def hashValue (c : Cursor) : Value :=
  match c.txHash with
  | some x => .text x
  | none => .null

/-- The document of a cursor, with its keys in order. -/
def toValue (c : Cursor) : Value :=
  .dict [("staking_tx_hash_hex", c.hashValue), ("start_height", c.heightValue)]

/-- The cursor of a delegation, unless its height is out of bounds. -/
def after (d : Delegation) : Checked Cursor :=
  ofValue (.dict [
    ("start_height", .int d.staking.startHeight), ("staking_tx_hash_hex", .text d.txHash)])

/-- The pagination key of a cursor. -/
def key (c : Cursor) : String :=
  if c.isStart then ""
  else String.ofList (Base64.encode (Utf8.encode (Json.ascii c.toValue).toList))

/-- The cursor of a pagination key: the start for the empty one, and otherwise a
place with both parts. -/
def ofKey? (key : String) : Option Cursor :=
  if key = "" then some start
  else if key.toList.any fun c => 127 < c.toNat then none
  else do
    let text ← Utf8.decode? (← Base64.decode? key.toList)
    let v ← Json.accept? (String.ofList text)
    match ofValue v with
    | .ok c => if c.height.isSome && c.txHash.isSome then some c else none
    | .error _ => none

/-- The name of the schema in messages. -/
def schemaName : String := "PaginationToken"

end Cursor

end StakeLedger
