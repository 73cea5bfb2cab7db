import Mathlib.Data.List.DropRight
import SwiftBindings.Proofs.Swift.Lines

/-!
# Balanced indentation

A block is left at the level that it was entered from, whatever stands in it, so a program can be
followed by any other one. Its lines stand four spaces further in for every block around them, and
all that is dropped from its text are empty lines at the end, which only stand outside of all blocks.

* `linesOf_append`, `linesOf_flatMap`, `lines_each`: the lines of programs one after the other.
* `toList_indented`: a line at its level.
* `Builder.level_entered`: the level at the end of a block.
* `Builder.step_each`: programs for the items of a list are one program.
* `trimLineFeeds_ended`: **dropping line feeds at the end drops empty lines there.**
* `indentation_balanced`: **the text, the levels and the order of programs.**
-/

namespace SwiftBindings.Swift

/-! ## Lines -/

theorem linesOf_append (level : Nat) (p q : List Step) :
    linesOf level (p ++ q) = linesOf level p ++ linesOf level q := by
  induction p with
  | nil => rfl
  | cons s rest ih =>
    show s.lines level ++ linesOf level (rest ++ q) = s.lines level ++ linesOf level rest ++ _
    rw [ih, List.append_assoc]

/-- The lines of a program for each item are those of the programs, one after the other. -/
theorem linesOf_flatMap {α : Type} (level : Nat) (items : List α) (body : α → List Step) :
    linesOf level (items.flatMap body) = items.flatMap fun item => linesOf level (body item) := by
  induction items with
  | nil => rfl
  | cons item rest ih => rw [List.flatMap_cons, List.flatMap_cons, linesOf_append, ih]

/-- A step for each item writes the lines of the programs for the items. -/
theorem lines_each {α : Type} (level : Nat) (items : List α) (body : α → List Step) :
    (Step.each (items.map body)).lines level =
      items.flatMap fun item => linesOf level (body item) := by
  unfold Step.lines
  induction items with
  | nil => rfl
  | cons item rest ih => rw [List.map_cons, linesOfAll, ih, List.flatMap_cons]

/-- A line stands four spaces further in for every level. -/
theorem toList_indented (level : Nat) (text : String) :
    (indented level text).toList = List.replicate (4 * level) ' ' ++ text.toList := by
  unfold indented
  rw [String.toList_append, String.toList_join]
  congr 1
  induction level with
  | zero => rfl
  | succ level ih =>
    have hindent : Builder.indent.toList = List.replicate 4 ' ' := by decide
    have hcount : 4 * (level + 1) = 4 + 4 * level := by omega
    rw [List.replicate_succ, List.flatMap_cons, ih, hindent, hcount, List.replicate_add]

/-- A line is empty only outside of all blocks. -/
theorem indented_eq_empty_iff {level : Nat} {text : String} :
    indented level text = "" ↔ level = 0 ∧ text = "" := by
  rw [← String.toList_eq_nil_iff, toList_indented, List.append_eq_nil_iff, List.replicate_eq_nil_iff,
    String.toList_eq_nil_iff]
  constructor
  · rintro ⟨hlevel, htext⟩
    exact ⟨by omega, htext⟩
  · rintro ⟨hlevel, htext⟩
    exact ⟨by omega, htext⟩

/-! ## Levels -/

namespace Builder

/-- **A block is left from one level above that at which it was entered,** so leaving it takes away
exactly the level that entering it has added. -/
theorem level_entered (b : Builder) (header : String) (body : List Step) :
    ((b.line header).enter.run body).level = b.level + 1 := by
  rw [level_run]
  rfl

/-- **The programs for the items of a list,** run one after the other, are one program. -/
theorem step_each {α : Type} (b : Builder) (items : List α) (body : α → List Step) :
    b.step (.each (items.map body)) = b.run (items.flatMap body) := by
  unfold step
  rw [runAll_eq, List.flatMap_def]

/-- Each of them starts from what those before it have written. -/
theorem foldl_run {α : Type} (b : Builder) (items : List α) (body : α → List Step) :
    items.foldl (fun b item => b.run (body item)) b = b.run (items.flatMap body) := by
  induction items generalizing b with
  | nil => rfl
  | cons item rest ih => rw [List.foldl_cons, ih, List.flatMap_cons, run_append]

end Builder

/-! ## The end of a text -/

/-- The last line is ended like those before it. -/
theorem ended_concat (lines : List String) (line : String) :
    ended (lines ++ [line]) = ended lines ++ line ++ "\n" := by
  have hlast : ended [line] = line ++ "\n" := by
    rw [ended_cons]
    exact String.append_empty
  rw [ended_append, hlast, String.append_assoc]

/-- **Dropping the line feeds at the end** drops the empty lines there, and nothing else. -/
theorem trimLineFeeds_ended {lines : List String} (h : ∀ line ∈ lines, Text.OneLine line) :
    Builder.trimLineFeeds (ended lines) = "\n".intercalate (lines.rdropWhile (· = "")) := by
  -- from the end, where lines are dropped until one is not empty
  induction lines using List.reverseRecOn with
  | nil => rfl
  | append_singleton rest line ih =>
    have hrest : ∀ l ∈ rest, Text.OneLine l := fun l hl => h l (List.mem_append_left _ hl)
    have hline : Text.OneLine line := h line (List.mem_append_right _ List.mem_cons_self)
    rw [ended_concat, Builder.trimLineFeeds_append]
    by_cases hempty : line = ""
    · rw [List.rdropWhile_concat_pos _ _ _ (by simpa using hempty), ← ih hrest, hempty,
        String.append_empty]
    · have hjoin : ended rest ++ line = "\n".intercalate (rest ++ [line]) := by
        have hended := ended_eq_intercalate (List.append_ne_nil_of_right_ne_nil rest
          (List.cons_ne_nil line []))
        rw [ended_concat] at hended
        exact String.append_left_inj _ |>.1 hended
      have hlast : (ended rest ++ line).toList.getLast? ≠ some '\n' := by
        have hne : line.toList ≠ [] := mt String.toList_eq_nil_iff.1 hempty
        rw [String.toList_append, List.getLast?_append_of_ne_nil _ hne]
        intro hfeed
        exact hline (List.mem_of_getLast? hfeed)
      rw [List.rdropWhile_concat_neg _ _ _ (by simpa using hempty), ← hjoin]
      exact Builder.trimLineFeeds_eq_self hlast

/-- The text of a program of texts of one line is its lines without the empty ones at the end. -/
theorem render_eq_kept {p : List Step} (h : Every Text.OneLine p) :
    render p = "\n".intercalate ((linesOf 0 p).rdropWhile (· = "")) := by
  rw [render_eq_trimLineFeeds, trimLineFeeds_ended (h.linesOf oneLine_indented 0)]

/-- These lines are read back from the text, if there are any. -/
theorem pieces_render_kept {p : List Step} (h : Every Text.OneLine p)
    (hne : (linesOf 0 p).rdropWhile (· = "") ≠ []) :
    Text.pieces '\n' (render p).toList =
      ((linesOf 0 p).rdropWhile (· = "")).map String.toList := by
  rw [render_eq_kept h]
  apply pieces_joined hne
  intro line hkept
  have hline := (List.rdropWhile_prefix _ _).subset hkept
  exact h.linesOf oneLine_indented 0 line hline

/-- **Indentation is balanced.** The text of every program is its lines in order, joined by line
feeds, without the line feeds at the end. If no text of the program holds a line feed, these are the
lines without the empty ones at the end, and they are read back from the text. A line starts with
four spaces for every block around it, and so is empty only outside of all blocks. Every program
leaves the level at which it is run; a block is left from one level above that at which it was
entered, so that leaving it never meets the lowest level. Two programs one after the other are one
program, with the lines of the one before those of the other; and so are the programs for the items
of a list, whatever programs these are: each is run from what those before it have written. -/
theorem indentation_balanced (b : Builder) (p q : List Step) :
    render p = Builder.trimLineFeeds ("\n".intercalate (linesOf 0 p)) ∧
    (Every Text.OneLine p →
      let kept := (linesOf 0 p).rdropWhile (· = "")
      render p = "\n".intercalate kept ∧
        (kept ≠ [] → Text.pieces '\n' (render p).toList = kept.map String.toList)) ∧
    (∀ level text,
      (indented level text).toList = List.replicate (4 * level) ' ' ++ text.toList ∧
        (indented level text = "" ↔ level = 0 ∧ text = "")) ∧
    ((b.run p).text = b.text ++ ended (linesOf b.level p) ∧ (b.run p).level = b.level) ∧
    (∀ header, ((b.line header).enter.run p).level = b.level + 1 ∧
      ((b.line header).enter.run p).leave.level = b.level) ∧
    (b.run (p ++ q) = (b.run p).run q ∧
      ∀ level, linesOf level (p ++ q) = linesOf level p ++ linesOf level q) ∧
    ∀ (α : Type) (items : List α) (body : α → List Step),
      b.step (.each (items.map body)) = b.run (items.flatMap body) ∧
      items.foldl (fun b item => b.run (body item)) b = b.run (items.flatMap body) ∧
        ∀ level, (Step.each (items.map body)).lines level =
            (items.flatMap fun item => linesOf level (body item)) ∧
          linesOf level (items.flatMap body) =
            items.flatMap fun item => linesOf level (body item) := by
  refine ⟨render_eq p, fun h => ⟨render_eq_kept h, pieces_render_kept h⟩, ?_, ?_, ?_, ?_, ?_⟩
  · intro level text
    exact ⟨toList_indented level text, indented_eq_empty_iff⟩
  · exact ⟨b.text_run p, b.level_run p⟩
  · intro header
    have hentered := b.level_entered header p
    refine ⟨hentered, ?_⟩
    show ((b.line header).enter.run p).level - 1 = b.level
    omega
  · exact ⟨b.run_append p q, fun level => linesOf_append level p q⟩
  · intro α items body
    refine ⟨b.step_each items body, b.foldl_run items body, fun level => ?_⟩
    exact ⟨lines_each level items body, linesOf_flatMap level items body⟩

/-- A block with an empty line at its end, before two empty lines. -/
def inkProgram : List Step :=
  [.block "do" "end" [.when true [.doc "ink"], .when false [.line "dry"],
      .each [[.line "nib"], [.each [[], [.line ""]]]]],
    .line "", .line ""]

/-- The empty line in the block is kept, and those behind it are dropped. -/
theorem indentation_balanced_ink :
    Every Text.OneLine inkProgram ∧
      Text.pieces '\n' (render inkProgram).toList =
        ["do", "    /// ink", "    nib", "    ", "end"].map String.toList := by
  have hlines : Every Text.OneLine inkProgram := by
    simp only [inkProgram, Every, Step.Every, EveryAll]
    decide
  have hkept : (linesOf 0 inkProgram).rdropWhile (· = "") =
      ["do", "    /// ink", "    nib", "    ", "end"] := by decide +kernel
  obtain ⟨-, hread, -⟩ := indentation_balanced .empty inkProgram []
  have hpieces := (hread hlines).2 (by rw [hkept]; exact List.cons_ne_nil _ _)
  rw [hkept] at hpieces
  exact ⟨hlines, hpieces⟩

end SwiftBindings.Swift
