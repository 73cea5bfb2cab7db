import Mathlib.Data.List.TakeWhile
import SwiftBindings.Proofs.Text.Blocks
import SwiftBindings.Proofs.Text.OneLine
import SwiftBindings.Swift.Source

/-!
# The lines that a program writes

A program of steps writes a list of lines, each at the level of the blocks around it. Its text is
these lines with line feeds between them, less the line feeds at its end.

* `linesOf`: the lines of a program.
* `Every.linesOf`: what holds of all texts of a program holds of its lines.
* `Builder.text_run`: running a program adds its lines, at the level that it is run at.
* `pieces_joined`, `pieces_ended_append`: lines of a text can be read back from it.
* `render_eq`: **the text of a program, from its lines.**
* `render_ne_empty`: a program that writes any character but line feeds has a text.
* `pieces_render`: if no line is empty or has a line feed of its own, the lines can be read back.
-/

namespace SwiftBindings.Swift

/-- A text at a level of indentation. -/
def indented (level : Nat) (text : String) : String :=
  String.join (List.replicate level Builder.indent) ++ text

mutual

/-- The lines that a step writes at a level. -/
def Step.lines (level : Nat) : Step → List String
  | .line text => [indented level text]
  | .doc text => [indented level ("/// " ++ text)]
  | .block header close body =>
    indented level header :: (linesOf (level + 1) body ++ [indented level close])
  | .when condition body => if condition then linesOf level body else []
  | .each bodies => linesOfAll level bodies

/-- The lines that a program writes at a level, in order. -/
def linesOf (level : Nat) : List Step → List String
  | [] => []
  | s :: rest => s.lines level ++ linesOf level rest

/-- The lines that programs write at a level, one after the other. -/
def linesOfAll (level : Nat) : List (List Step) → List String
  | [] => []
  | body :: rest => linesOf level body ++ linesOfAll level rest

end

mutual

/-- Whether every text that a step writes has a property. -/
@[simp]
def Step.Every (P : String → Prop) : Step → Prop
  | .line text => P text
  | .doc text => P ("/// " ++ text)
  | .block header close body => P header ∧ Every P body ∧ P close
  | .when condition body => condition = true → Every P body
  | .each bodies => EveryAll P bodies

/-- Whether every text that a program writes has a property. -/
@[simp]
def Every (P : String → Prop) : List Step → Prop
  | [] => True
  | s :: rest => s.Every P ∧ Every P rest

/-- Whether every text that some programs write has a property. -/
@[simp]
def EveryAll (P : String → Prop) : List (List Step) → Prop
  | [] => True
  | body :: rest => Every P body ∧ EveryAll P rest

end

/-- The texts of one line for each item are the items. -/
@[simp] theorem Step.every_eachLine {P : String → Prop} {items : List String} :
    (Step.eachLine items).Every P ↔ ∀ item ∈ items, P item := by
  unfold Step.eachLine Step.Every
  induction items with
  | nil => simp
  | cons item rest ih => simp [ih]

/-- The lines of one line for each item are the items at the level. -/
@[simp] theorem Step.lines_eachLine (level : Nat) (items : List String) :
    (Step.eachLine items).lines level = items.map (indented level) := by
  unfold Step.eachLine Step.lines
  induction items with
  | nil => rfl
  | cons item rest ih =>
    rw [List.map_cons, List.map_cons, linesOfAll, ih]
    rfl

mutual

theorem Step.Every.lines {P : String → Prop} (hP : ∀ level text, P text → P (indented level text))
    {s : Step} (h : s.Every P) (level : Nat) : ∀ line ∈ s.lines level, P line := by
  cases s with
  | line text => exact List.forall_mem_singleton.2 (hP level text h)
  | doc text => exact List.forall_mem_singleton.2 (hP level _ h)
  | block header close body =>
    obtain ⟨hheader, hbody, hclose⟩ := h
    exact List.forall_mem_cons.2 ⟨hP level header hheader, List.forall_mem_append.2
      ⟨hbody.linesOf hP (level + 1), List.forall_mem_singleton.2 (hP level close hclose)⟩⟩
  | when condition body =>
    unfold Step.lines
    split
    · rename_i hcondition
      exact (h hcondition).linesOf hP level
    · simp
  | each bodies => exact EveryAll.linesOfAll hP h level

/-- **The lines of a program** have a property that its texts have, if indented texts keep it. -/
theorem Every.linesOf {P : String → Prop} (hP : ∀ level text, P text → P (indented level text))
    {p : List Step} (h : Every P p) (level : Nat) : ∀ line ∈ linesOf level p, P line := by
  cases p with
  | nil => simp [Swift.linesOf]
  | cons s rest => exact List.forall_mem_append.2 ⟨h.1.lines hP level, h.2.linesOf hP level⟩

theorem EveryAll.linesOfAll {P : String → Prop}
    (hP : ∀ level text, P text → P (indented level text)) {bodies : List (List Step)}
    (h : EveryAll P bodies) (level : Nat) : ∀ line ∈ linesOfAll level bodies, P line := by
  cases bodies with
  | nil => simp [Swift.linesOfAll]
  | cons body rest =>
    exact List.forall_mem_append.2 ⟨h.1.linesOf hP level, h.2.linesOfAll hP level⟩

end

theorem oneLine_indented (level : Nat) (text : String) (h : Text.OneLine text) :
    Text.OneLine (indented level text) := by
  refine Text.oneLine_append.2 ⟨Text.oneLine_join fun s hs => ?_, h⟩
  rw [(List.mem_replicate.1 hs).2]
  decide

/-- Lines, each ended by a line feed. -/
def ended (lines : List String) : String := String.join (lines.map (· ++ "\n"))

theorem ended_append (l m : List String) : ended (l ++ m) = ended l ++ ended m := by
  simp [ended]

theorem ended_cons (line : String) (rest : List String) :
    ended (line :: rest) = line ++ "\n" ++ ended rest := by
  simp [ended, String.join_cons]

/-- Lines that are ended are lines with line feeds between them, and one more at the end. -/
theorem ended_eq_intercalate {lines : List String} (h : lines ≠ []) :
    ended lines = "\n".intercalate lines ++ "\n" := by
  induction lines with
  | nil => exact absurd rfl h
  | cons line rest ih =>
    cases rest with
    | nil => simp [ended]
    | cons next more =>
      rw [ended_cons, ih (List.cons_ne_nil _ _), String.intercalate_cons_cons]
      simp only [String.append_assoc]

/-- Lines with line feeds between them are read back. -/
theorem pieces_joined {lines : List String} (hne : lines ≠ [])
    (h : ∀ line ∈ lines, Text.OneLine line) :
    Text.pieces '\n' ("\n".intercalate lines).toList = lines.map String.toList := by
  rw [String.toList_intercalate]
  apply Text.pieces_intercalate
  · rwa [ne_eq, List.map_eq_nil_iff]
  · intro piece hpiece
    obtain ⟨line, hline, rfl⟩ := List.mem_map.1 hpiece
    exact h line hline

/-- **Ended lines are read back,** and whatever is behind them starts a line of its own. -/
theorem pieces_ended_append {lines : List String} (h : ∀ line ∈ lines, Text.OneLine line)
    (rest : String) :
    Text.pieces '\n' (ended lines ++ rest).toList =
      lines.map String.toList ++ Text.pieces '\n' rest.toList := by
  induction lines with
  | nil => simp [ended]
  | cons line more ih =>
    have hline : '\n' ∉ line.toList := h line List.mem_cons_self
    have hmore := ih fun l hl => h l (List.mem_cons_of_mem _ hl)
    have hcut : (ended (line :: more) ++ rest).toList =
        line.toList ++ '\n' :: (ended more ++ rest).toList := by
      rw [ended_cons, String.append_assoc, String.append_assoc, String.toList_append,
        String.toList_append]
      rfl
    rw [hcut, Text.pieces_append_cons, Text.pieces_of_not_mem hline, hmore, List.map_cons]
    rfl

namespace Builder

variable (b : Builder)

theorem text_line (text : String) :
    (b.line text).text = b.text ++ ended [indented b.level text] := by
  simp [line, ended, indented, String.append_assoc]

mutual

theorem text_step (b : Builder) (s : Step) :
    (b.step s).text = b.text ++ ended (s.lines b.level) := by
  cases s with
  | line text => exact text_line b text
  | doc text => exact text_line b ("/// " ++ text)
  | block header close body =>
    -- the level of the close is that of the header, since the body keeps its own
    have hlevel : ((b.line header).enter.run body).leave.level = b.level := by
      show ((b.line header).enter.run body).level - 1 = b.level
      rw [level_run]
      rfl
    unfold step Step.lines
    rw [text_line, hlevel]
    show ((b.line header).enter.run body).text ++ _ = _
    rw [text_run, show (b.line header).enter.text = (b.line header).text from rfl, text_line,
      String.append_assoc, String.append_assoc, ← ended_append, ← ended_append]
    rfl
  | when condition body =>
    unfold step Step.lines
    split
    · exact text_run b body
    · simp [ended]
  | each bodies =>
    unfold step Step.lines
    exact text_runAll b bodies

/-- **Running a program adds its lines,** at the level that it is run at. -/
theorem text_run (b : Builder) (p : List Step) :
    (b.run p).text = b.text ++ ended (linesOf b.level p) := by
  cases p with
  | nil => simp [run, linesOf, ended]
  | cons s rest =>
    unfold run linesOf
    rw [text_run, text_step, level_step, String.append_assoc, ← ended_append]

theorem text_runAll (b : Builder) (bodies : List (List Step)) :
    (b.runAll bodies).text = b.text ++ ended (linesOfAll b.level bodies) := by
  cases bodies with
  | nil => simp [runAll, linesOfAll, ended]
  | cons body rest =>
    unfold runAll linesOfAll
    rw [text_runAll, text_run, level_run, String.append_assoc, ← ended_append]

end

end Builder

/-! ## The end of a text -/

namespace Builder

variable {text : String}

theorem toList_trimLineFeeds :
    (trimLineFeeds text).toList = (text.toList.reverse.dropWhile (· = '\n')).reverse :=
  String.toList_ofList

/-- A line feed at the end is dropped. -/
theorem trimLineFeeds_append (text : String) :
    trimLineFeeds (text ++ "\n") = trimLineFeeds text := by
  unfold trimLineFeeds
  rw [String.toList_append, List.reverse_append]
  rfl

/-- A text that does not end in a line feed is kept. -/
theorem trimLineFeeds_eq_self (h : text.toList.getLast? ≠ some '\n') :
    trimLineFeeds text = text := by
  refine String.toList_inj.1 ?_
  rw [toList_trimLineFeeds]
  rw [List.getLast?_eq_head?_reverse] at h
  cases hr : text.toList.reverse with
  | nil => rw [List.dropWhile_nil, ← hr, List.reverse_reverse]
  | cons c rest =>
    rw [hr, List.head?_cons, ne_eq, Option.some.injEq] at h
    rw [List.dropWhile_cons_of_neg (by simpa using h), ← hr, List.reverse_reverse]

/-- A text that is no more than line feeds is not left. -/
theorem trimLineFeeds_ne_empty {c : Char} (hc : c ∈ text.toList) (h : c ≠ '\n') :
    trimLineFeeds text ≠ "" := by
  intro he
  have hnil := congrArg String.toList he
  rw [toList_trimLineFeeds, String.toList_empty, List.reverse_eq_nil_iff,
    List.dropWhile_eq_nil_iff] at hnil
  exact h (by simpa using hnil c (List.mem_reverse.2 hc))

end Builder

theorem render_eq_trimLineFeeds (p : List Step) :
    render p = Builder.trimLineFeeds (ended (linesOf 0 p)) := by
  unfold render Builder.build
  rw [Builder.text_run]
  show Builder.trimLineFeeds ("" ++ ended (linesOf 0 p)) = _
  rw [String.empty_append]

/-- **The text of a program** is its lines with line feeds between them, less the line feeds at the
end. -/
theorem render_eq (p : List Step) :
    render p = Builder.trimLineFeeds ("\n".intercalate (linesOf 0 p)) := by
  rw [render_eq_trimLineFeeds]
  by_cases h : linesOf 0 p = []
  · rw [h]
    rfl
  · rw [ended_eq_intercalate h, Builder.trimLineFeeds_append]

/-- A program has a text if any of its lines has. -/
theorem render_ne_empty {p : List Step} {line : String} (hline : line ∈ linesOf 0 p)
    (h : Text.Visible line) : render p ≠ "" := by
  obtain ⟨c, hc, hne⟩ := h
  rw [render_eq_trimLineFeeds]
  refine Builder.trimLineFeeds_ne_empty (c := c) ?_ hne
  rw [ended, String.toList_join, List.mem_flatMap]
  refine ⟨line ++ "\n", List.mem_map_of_mem hline, ?_⟩
  rw [String.toList_append]
  exact List.mem_append_left _ hc

/-- **The lines of a program are read back** from its text if they are of one line each and none is
empty. -/
theorem pieces_render {p : List Step} (hne : linesOf 0 p ≠ [])
    (h : ∀ line ∈ linesOf 0 p, line ≠ "" ∧ Text.OneLine line) :
    Text.pieces '\n' (render p).toList = (linesOf 0 p).map String.toList := by
  have hpieces : Text.pieces '\n' ("\n".intercalate (linesOf 0 p)).toList =
      (linesOf 0 p).map String.toList :=
    pieces_joined hne fun line hline => (h line hline).2
  have hend : [] ∉ Text.pieces '\n' ("\n".intercalate (linesOf 0 p)).toList := by
    rw [hpieces, List.mem_map]
    rintro ⟨line, hm, he⟩
    exact (h line hm).1 (String.toList_eq_nil_iff.1 he)
  rw [render_eq, Builder.trimLineFeeds_eq_self (Text.getLast?_ne_of_notMem_pieces hend), hpieces]

end SwiftBindings.Swift
