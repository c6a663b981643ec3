import StakeLedger.Ledger.Lookup
import StakeLedger.Cursor

/-!
# Pages of a listing

A listing is read page by page.  A page holds the first delegations behind a
cursor, up to a limit, and the pagination key of the last of them if there are
more; one row more than the limit is read to know.

Main definitions:

- {lit}`Cursor.admits`: the rows behind a cursor.
- {lit}`Page`: delegations and the key of the next page.
- {lit}`Ledger.page`: a page of the delegations of a staker.
-/

namespace StakeLedger

/-- Whether a row lies behind a cursor.  No row lies behind a cursor that has a
hash alone; with a height alone all rows below it do. -/
def Cursor.admits (c : Cursor) (row : Ledger.Row) : Bool :=
  match c.height, c.txHash with
  | none, none => true
  | none, some _ => false
  | some h, none => decide (row.height < h.val)
  | some h, some x =>
      decide (row.height < h.val) || (row.height == h.val && decide (row.txHash < x))

/-- Delegations, and the key of the next page, empty at the end. -/
structure Page where
  items : List Delegation
  nextKey : String := ""
deriving DecidableEq, Repr

/-- Whether a page follows. -/
def Page.hasMore (p : Page) : Bool :=
  p.nextKey ≠ ""

namespace Ledger

/-- The first members of a list; a negative number leaves out that many at the
end. -/
def takeInt {α : Type} (n : Int) (xs : List α) : List α :=
  if 0 ≤ n then xs.take n.toNat else xs.take (xs.length - (-n).toNat)

/-- As many members of a list as a query with a limit reads; a negative limit is
none. -/
def limited {α : Type} (n : Int) (xs : List α) : List α :=
  if n < 0 then xs else xs.take n.toNat

/-- A page of at most {lit}`limit` of the delegations that were read with one more. -/
def pageOf (limit : Int) (read : List Delegation) : Except Fault Page :=
  if (read.length : Int) ≤ limit then .ok { items := read }
  else
    let items := takeInt limit read
    match items.getLast? with
    | none => .error .noLastItem
    | some last =>
        match Cursor.after last with
        | .error faults => .error (.storage (.damaged Cursor.schemaName faults))
        | .ok cursor => .ok { items, nextKey := cursor.key }

/-- The page behind a cursor of the delegations of a staker. -/
def page (l : Ledger) (staker : String) (cursor : Cursor) (limit : Int) : Except Fault Page :=
  match l.rows with
  | .error fault => .error fault
  | .ok rows =>
      if fits (limit + 1) then
        let behind := rows.filter fun row => row.staker == staker && cursor.admits row
        match readAll (limited (limit + 1) (newestFirst behind)) with
        | .error fault => .error fault
        | .ok read => pageOf limit read
      else .error .outOfRange

end Ledger

end StakeLedger
