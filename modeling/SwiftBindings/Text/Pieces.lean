/-!
# Pieces of a text

A text is cut at a separator into one more piece than it has separators, and joining the pieces
gives the text back.

* `pieces_ne_nil`: there is always a piece.
* `intercalate_pieces`: nothing is lost by the cut.
* `not_mem_of_mem_pieces`: no piece holds the separator.
* `pieces_append`, `pieces_append_cons`, `pieces_intercalate`: the pieces of a text put together.
-/

namespace SwiftBindings.Text

/-- The pieces of a text between the occurrences of a separator. -/
def pieces (sep : Char) : List Char → List (List Char)
  | [] => [[]]
  | c :: rest =>
    if c = sep then [] :: pieces sep rest
    else
      match pieces sep rest with
      | [] => [[c]]
      | piece :: more => (c :: piece) :: more

theorem pieces_ne_nil (sep : Char) (s : List Char) : pieces sep s ≠ [] := by
  induction s with
  | nil => simp [pieces]
  | cons c rest ih =>
    unfold pieces
    split
    · simp
    · split <;> simp

/-- Joining the pieces by the separator gives the text back. -/
theorem intercalate_pieces (sep : Char) (s : List Char) :
    [sep].intercalate (pieces sep s) = s := by
  induction s with
  | nil => simp [pieces]
  | cons c rest ih =>
    unfold pieces
    split
    · rename_i h
      cases hp : pieces sep rest with
      | nil => exact absurd hp (pieces_ne_nil sep rest)
      | cons piece more =>
        rw [hp] at ih
        subst h
        rw [← ih]
        simp [List.intercalate]
    · cases hp : pieces sep rest with
      | nil => exact absurd hp (pieces_ne_nil sep rest)
      | cons piece more =>
        rw [hp] at ih
        rw [← ih]
        cases more <;> simp [List.intercalate]

/-- No piece holds the separator. -/
theorem not_mem_of_mem_pieces {sep : Char} {s p : List Char} (h : p ∈ pieces sep s) :
    sep ∉ p := by
  induction s generalizing p with
  | nil => simp_all [pieces]
  | cons c rest ih =>
    unfold pieces at h
    split at h
    · rcases List.mem_cons.1 h with rfl | h
      · simp
      · exact ih h
    · rename_i hc
      cases hp : pieces sep rest with
      | nil => exact absurd hp (pieces_ne_nil sep rest)
      | cons piece more =>
        simp only [hp, List.mem_cons] at h
        rcases h with rfl | h
        · simp only [List.mem_cons, not_or]
          exact ⟨fun e => hc e.symm, ih (by simp [hp])⟩
        · exact ih (by simp [hp, h])

theorem pieces_of_not_mem {sep : Char} {s : List Char} (h : sep ∉ s) : pieces sep s = [s] := by
  induction s with
  | nil => rfl
  | cons c rest ih =>
    simp only [List.mem_cons, not_or] at h
    rw [pieces, if_neg fun e => h.1 e.symm, ih h.2]

/-- A text without the separator goes to the last piece. -/
theorem pieces_append {sep : Char} (s : List Char) {x : List Char} (h : sep ∉ x) :
    pieces sep (s ++ x) =
      (pieces sep s).dropLast ++ [(pieces sep s).getLast (pieces_ne_nil sep s) ++ x] := by
  induction s with
  | nil => simp [pieces, pieces_of_not_mem h]
  | cons c rest ih =>
    have hne := pieces_ne_nil sep rest
    simp only [List.cons_append]
    by_cases hc : c = sep
    · simp only [pieces, if_pos hc, ih]
      rw [List.dropLast_cons_of_ne_nil hne, List.getLast_cons hne]
      rfl
    · cases hp : pieces sep rest with
      | nil => exact absurd hp hne
      | cons piece more => cases more <;> simp [pieces, hc, ih, hp]

/-- A text is cut where a separator stands. -/
theorem pieces_append_cons (sep : Char) (s t : List Char) :
    pieces sep (s ++ sep :: t) = pieces sep s ++ pieces sep t := by
  induction s with
  | nil => simp [pieces]
  | cons c rest ih =>
    by_cases hc : c = sep
    · rw [List.cons_append, pieces, if_pos hc, ih, pieces, if_pos hc]
      rfl
    · obtain ⟨piece, more, hp⟩ := List.exists_cons_of_ne_nil (pieces_ne_nil sep rest)
      rw [List.cons_append, pieces, if_neg hc, ih, pieces, if_neg hc, hp]
      rfl

/-- Pieces joined by the separator are the pieces of what they give. -/
theorem pieces_intercalate {sep : Char} {ps : List (List Char)} (hne : ps ≠ [])
    (h : ∀ p ∈ ps, sep ∉ p) : pieces sep ([sep].intercalate ps) = ps := by
  induction ps with
  | nil => exact absurd rfl hne
  | cons p rest ih =>
    have hp := pieces_of_not_mem (h p (by simp))
    cases rest with
    | nil => simpa using hp
    | cons q more =>
      have hj : [sep].intercalate (p :: q :: more) = p ++ sep :: [sep].intercalate (q :: more) := by
        simp [List.intercalate]
      rw [hj, pieces_append_cons, hp, ih (by simp) fun r hr => h r (by simp [hr])]
      rfl

/-- The blocks of a text: what stands between its blank lines, read from the left, so that of
three line feeds in a row the third belongs to the next block. -/
def blocksOf : List Char → List (List Char)
  | [] => [[]]
  | [c] => [[c]]
  | c :: d :: rest =>
    if c = '\n' ∧ d = '\n' then [] :: blocksOf rest
    else
      match blocksOf (d :: rest) with
      | [] => [[c]]
      | block :: more => (c :: block) :: more

/-- The blocks of a string. -/
def blocks (s : String) : List String :=
  (blocksOf s.toList).map String.ofList

end SwiftBindings.Text
