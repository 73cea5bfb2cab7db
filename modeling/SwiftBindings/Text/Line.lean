import SwiftBindings.Text.Pieces

/-!
# Lines

Side files list one entry per line. A carriage return before a line feed belongs to the line end,
and empty lines count for nothing.

* `mem_nonEmptyLines`: a listed line is not empty and holds no line feed.
-/

namespace SwiftBindings.Text

/-- A line without one carriage return at its end. -/
def stripReturn (line : List Char) : List Char :=
  if line.getLast? = some '\r' then line.dropLast else line

/-- The lines of a text that are not empty once their line end is gone. -/
def nonEmptyLinesOf (s : List Char) : List (List Char) :=
  ((pieces '\n' s).map stripReturn).filter fun line => !line.isEmpty

/-- The non-empty lines of a string, in order. -/
def nonEmptyLines (s : String) : List String :=
  (nonEmptyLinesOf s.toList).map String.ofList

theorem stripReturn_subset {line : List Char} {c : Char} (h : c ∈ stripReturn line) :
    c ∈ line := by
  unfold stripReturn at h
  split at h
  · exact List.dropLast_subset _ h
  · exact h

/-- A listed line is not empty and holds no line feed. -/
theorem mem_nonEmptyLines {s : List Char} {line : List Char} (h : line ∈ nonEmptyLinesOf s) :
    line ≠ [] ∧ '\n' ∉ line := by
  simp only [nonEmptyLinesOf, List.mem_filter, List.mem_map] at h
  obtain ⟨⟨p, hp, rfl⟩, hne⟩ := h
  exact ⟨by simpa using hne, fun hc => not_mem_of_mem_pieces hp (stripReturn_subset hc)⟩

end SwiftBindings.Text
