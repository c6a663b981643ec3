import StakeLedger.Calendar
import StakeLedger.Decimal.Numeral

/-!
# Dates and times in YAML

A date has a year, a month and a day; a time of day may follow, with a fraction of
its seconds and an offset from UTC.

Main definitions:

- {lit}`Yaml.Moment`: a date, and whether a time of day follows it.
- {lit}`Yaml.Moment.parse?`: the moment that a text spells.
- {lit}`Yaml.isTime`: whether a plain scalar has the form of a moment.
-/

namespace StakeLedger.Yaml

open Calendar

/-- A date with a time of day, or a date alone, which is its midnight. -/
structure Moment where
  time : LocalTime
  hasTime : Bool

namespace Moment

/-- Digits, at least one number and at most another of them, and what follows. -/
def digits? (least most : Nat) (text : List Char) : Option (Nat × List Char) :=
  let ds := (text.take most).takeWhile Char.isDigit
  if least ≤ ds.length then some (Numeral.value ds, text.drop ds.length) else none

/-- The text behind a character. -/
def behind? (c : Char) : List Char → Option (List Char)
  | d :: rest => if d = c then some rest else none
  | [] => none

/-- Microseconds from the digits of a fraction; more than six are cut off. -/
def microseconds (digits : List Char) : Nat :=
  Numeral.value ((digits ++ List.replicate 6 '0').take 6)

/-- The fraction of a second, if there is one. -/
def fraction (text : List Char) : Nat × List Char :=
  match text with
  | '.' :: rest =>
      let ds := rest.takeWhile Char.isDigit
      (microseconds ds, rest.drop ds.length)
  | _ => (0, text)

/-- The minutes of an offset, if they are given. -/
def offsetMinutes? (text : List Char) : Option Nat :=
  if text.isEmpty then some 0
  else do
    let (minutes, rest) ← digits? 2 2 (← behind? ':' text)
    if rest.isEmpty then some minutes else none

/-- The seconds by which a clock is ahead of UTC, up to the end of the text. -/
def offset? (text : List Char) : Option Int :=
  match text.dropWhile fun c => c == ' ' || c == '\t' with
  | [] => if text.isEmpty then some 0 else none
  | ['Z'] => some 0
  | c :: rest =>
      if c = '+' ∨ c = '-' then do
        let (hours, rest) ← digits? 1 2 rest
        let minutes ← offsetMinutes? rest
        let seconds : Int := hours * 3600 + minutes * 60
        some (if c = '-' then -seconds else seconds)
      else none

/-- What stands between a date and a time of day. -/
def separator? (text : List Char) : Option (List Char) :=
  match text with
  | 'T' :: rest => some rest
  | 't' :: rest => some rest
  | _ =>
      let rest := text.dropWhile fun c => c == ' ' || c == '\t'
      if rest.length < text.length then some rest else none

/-- The moment that a text spells. -/
def parse? (text : List Char) : Option Moment := do
  let (year, rest) ← digits? 4 4 text
  let (month, rest) ← digits? 1 2 (← behind? '-' rest)
  let (day, rest) ← digits? 1 2 (← behind? '-' rest)
  if rest.isEmpty then some ⟨⟨year, month, day, 0, 0, 0, 0, 0⟩, false⟩
  else do
    let (hour, rest) ← digits? 1 2 (← separator? rest)
    let (minute, rest) ← digits? 2 2 (← behind? ':' rest)
    let (second, rest) ← digits? 2 2 (← behind? ':' rest)
    let (micro, rest) := fraction rest
    let offset ← offset? rest
    some ⟨⟨year, month, day, hour, minute, second, micro, offset * microsecondsPerSecond⟩, true⟩

end Moment

/-- Whether a plain scalar has the form of a moment.  A date alone needs two
digits for its month and its day. -/
def isTime (text : List Char) : Bool :=
  match Moment.parse? text with
  | none => false
  | some m => m.hasTime || text.length == 10

end StakeLedger.Yaml
