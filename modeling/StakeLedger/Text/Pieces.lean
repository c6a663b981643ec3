/-!
# Pieces of a text

A text falls into pieces at a separator; there is always one piece more than
there are separators.

Main definitions:

- {lit}`pieces`: the pieces of a text.

Main results:

- Theorem {lit}`length_pieces`: how many pieces there are.
- Theorem {lit}`pieces_append`: the pieces of both sides of a separator.
-/

namespace StakeLedger

/-- The pieces of a text between separators. -/
def pieces (separator : Char) : List Char → List (List Char)
  | [] => [[]]
  | c :: rest =>
      if c = separator then [] :: pieces separator rest
      else
        match pieces separator rest with
        | [] => [[c]]
        | first :: others => (c :: first) :: others

/-- There is one piece more than there are separators. -/
theorem length_pieces (separator : Char) (text : List Char) :
    (pieces separator text).length = text.count separator + 1 := by
  induction text with
  | nil => rfl
  | cons c rest ih =>
      by_cases h : c = separator
      · simp [pieces, h, ih]
      · simp only [pieces, h, if_false]
        split
        · rename_i heq
          simp [heq] at ih
        · rename_i heq
          simp only [heq, List.length_cons] at ih ⊢
          simp [h, ih]

/-- A text with a separator in it has the pieces of both sides. -/
theorem pieces_append (separator : Char) (xs ys : List Char) :
    pieces separator (xs ++ separator :: ys) = pieces separator xs ++ pieces separator ys := by
  induction xs with
  | nil => simp [pieces]
  | cons c rest ih =>
      by_cases h : c = separator
      · simp [pieces, h, ih]
      · have hne : pieces separator rest ≠ [] := by
          rw [← List.length_pos_iff, length_pieces]
          omega
        obtain ⟨first, others, hpieces⟩ := List.exists_cons_of_ne_nil hne
        simp [pieces, h, ih, hpieces]

/-- A text without separators is one piece. -/
theorem pieces_of_notMem {separator : Char} {text : List Char} (h : separator ∉ text) :
    pieces separator text = [text] := by
  induction text with
  | nil => rfl
  | cons c rest ih =>
      rw [List.mem_cons, not_or] at h
      simp [pieces, Ne.symm h.1, ih h.2]

end StakeLedger
