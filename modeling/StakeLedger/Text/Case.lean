import StakeLedger.Text.CaseTable

/-!
# Lower case

The lower-case form of a text.  Two capitals do not follow the simple forms: a
dotted capital i becomes two characters, and a sigma at the end of a word has a
form of its own.

Main definitions:

- {lit}`Case.lower`: the lower-case form of a text.

Main results:

- Theorem {lit}`Case.lowerChar_of_ascii`, {lit}`Case.lower_of_ascii`: letters of ASCII have their
  usual forms, and so have texts of them.
-/

namespace StakeLedger.Case

/-- The lower-case form of a character on its own. -/
def lowerChar (c : Char) : List Char :=
  if c.toNat < 0x80 then [c.toLower]
  else if c.toNat = 0x130 then ['i', '\u0307']
  else
    match runs.findSome? fun r => r.lower? c.toNat with
    | some n => [Char.ofNat n]
    | none => [c]

/-- Whether the first character that is not passed over has a case. -/
def meetsCased (text : List Char) : Bool :=
  match text.dropWhile ignorable.mem with
  | [] => false
  | c :: _ => cased.mem c

/-- The lower-case form of what follows some characters, given backwards. -/
def lowerAfter : List Char → List Char → List Char
  | _, [] => []
  | before, c :: rest =>
      let form :=
        if c.toNat = 0x3A3 then
          [if meetsCased before && !meetsCased rest then '\u03C2' else '\u03C3']
        else lowerChar c
      form ++ lowerAfter (c :: before) rest

/-- The lower-case form of a text. -/
def lower (text : String) : String :=
  String.ofList (lowerAfter [] text.toList)

/-- Letters of ASCII have their usual forms. -/
theorem lowerChar_of_ascii (c : Char) (h : c.toNat < 0x80) : lowerChar c = [c.toLower] := by
  simp [lowerChar, h]

/-- A text of ASCII in lower case. -/
theorem lower_of_ascii {text : List Char} (h : ∀ c ∈ text, c.toNat < 0x80) :
    lower (String.ofList text) = String.ofList (text.map Char.toLower) := by
  have hafter (before : List Char) : lowerAfter before text = text.map Char.toLower := by
    induction text generalizing before with
    | nil => rfl
    | cons c rest ih =>
        rw [List.forall_mem_cons] at h
        have hsigma : c.toNat ≠ 0x3A3 := by
          have := h.1
          omega
        rw [lowerAfter, if_neg hsigma, lowerChar_of_ascii c h.1, ih h.2, List.map_cons,
          List.singleton_append]
  rw [lower, String.toList_ofList, hafter]

end StakeLedger.Case
