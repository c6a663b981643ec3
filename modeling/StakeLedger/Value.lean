import StakeLedger.Decimal.Binary64

/-!
# Dynamic values

The values that documents hold, whatever format they are written in.  A
dictionary keeps the order in which its keys were first given.

Main definitions:

- {lit}`Value`: a dynamic value.
- {lit}`Fields.set`: a dictionary with one more pair, the last value of a key winning.
- {lit}`Fields.get?`: the value of a key.

Main results:

- Theorem {lit}`Fields.get?_set`: looking up a key after a pair was added.
-/

namespace StakeLedger

/-- A value of a document. -/
inductive Value where
  | null
  | bool (b : Bool)
  | int (n : Int)
  | real (x : Binary64)
  | text (s : String)
  | list (items : List Value)
  | dict (fields : List (String × Value))
  /-- Octets that spell no text. -/
  | octets
  /-- A value of a kind that no reader here asks for, such as a date. -/
  | other
deriving Inhabited

/-- The pairs of a dictionary. -/
abbrev Fields := List (String × Value)

namespace Fields

/-- The value of a key. -/
def get? (fields : Fields) (key : String) : Option Value :=
  fields.lookup key

/-- A dictionary with one more pair: a known key keeps its place and takes the
new value. -/
def set : Fields → String → Value → Fields
  | [], key, v => [(key, v)]
  | (k, w) :: rest, key, v => if k = key then (k, v) :: rest else (k, w) :: set rest key v

/-- Looking up a key after a pair was added. -/
theorem get?_set (fields : Fields) (key other : String) (v : Value) :
    get? (set fields key v) other = if other = key then some v else get? fields other := by
  induction fields with
  | nil =>
      by_cases h : other = key
      · simp [set, get?, h]
      · have : (other == key) = false := by simpa using h
        simp [set, get?, List.lookup_cons, h, this]
  | cons pair rest ih =>
      obtain ⟨k, w⟩ := pair
      simp only [get?] at ih
      by_cases hk : k = key
      · subst hk
        by_cases h : other = k
        · simp [set, get?, h]
        · have : (other == k) = false := by simpa using h
          simp [set, get?, List.lookup_cons, h, this]
      · by_cases h : other = k
        · subst h
          simp [set, get?, hk]
        · have : (other == k) = false := by simpa using h
          simp [set, get?, List.lookup_cons, hk, this, ih]

end Fields

/-- The dictionary of some pairs, the last value of a key winning. -/
def Value.ofFields (pairs : List (String × Value)) : Value :=
  .dict (pairs.foldl (fun fields (key, v) => Fields.set fields key v) [])

end StakeLedger
