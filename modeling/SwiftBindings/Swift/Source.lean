/-!
# Swift source text

Source text is built line by line at a level of indentation. A program of steps says what to write;
running it leaves the level as it was.

* `Builder.level_run`: a program keeps the level.
* `Builder.run_append`: two programs run one after the other are one program.
* `Builder.runAll_eq`: so are the programs for the items of a list.
-/

namespace SwiftBindings.Swift

/-- What to write. -/
inductive Step where
  /-- One line. -/
  | line (text : String)
  /-- One line of documentation. -/
  | doc (text : String)
  /-- Steps one level deeper, between two lines. -/
  | block (header close : String) (body : List Step)
  /-- Steps on a condition. -/
  | when (condition : Bool) (body : List Step)
  /-- Steps for each item, one item after the other. -/
  | each (bodies : List (List Step))
  deriving Inhabited

/-- One line for each item. -/
def Step.eachLine (items : List String) : Step := .each (items.map fun item => [.line item])

/-- Text written so far and the level of the next line. -/
structure Builder where
  level : Nat
  text : String
  deriving Inhabited

namespace Builder

/-- Nothing written yet. -/
def empty : Builder := ⟨0, ""⟩

/-- One level of indentation. -/
def indent : String := "    "

/-- One more line. -/
def line (b : Builder) (text : String) : Builder :=
  { b with text := b.text ++ String.join (List.replicate b.level indent) ++ text ++ "\n" }

/-- One more line of documentation. -/
def doc (b : Builder) (text : String) : Builder := b.line ("/// " ++ text)

/-- One level deeper. -/
def enter (b : Builder) : Builder := { b with level := b.level + 1 }

/-- One level less deep. -/
def leave (b : Builder) : Builder := { b with level := b.level - 1 }

mutual

/-- The builder after a step. -/
def step (b : Builder) : Step → Builder
  | .line text => b.line text
  | .doc text => b.doc text
  | .block header close body => ((b.line header).enter.run body).leave.line close
  | .when condition body => if condition then b.run body else b
  | .each bodies => b.runAll bodies

/-- The builder after a program. -/
def run (b : Builder) : List Step → Builder
  | [] => b
  | s :: rest => (b.step s).run rest

/-- The builder after programs, one after the other. -/
def runAll (b : Builder) : List (List Step) → Builder
  | [] => b
  | body :: rest => (b.run body).runAll rest

end

/-- Text without the line feeds at its end. -/
def trimLineFeeds (text : String) : String :=
  String.ofList (text.toList.reverse.dropWhile (· = '\n')).reverse

/-- The text written, without the line feeds at its end. -/
def build (b : Builder) : String := trimLineFeeds b.text

theorem run_append (b : Builder) (p q : List Step) : b.run (p ++ q) = (b.run p).run q := by
  induction p generalizing b with
  | nil => simp [run]
  | cons s rest ih => simp [run, ih]

/-- Programs one after the other are one program. -/
theorem runAll_eq (b : Builder) (bodies : List (List Step)) :
    b.runAll bodies = b.run bodies.flatten := by
  induction bodies generalizing b with
  | nil => simp [runAll, run]
  | cons body rest ih => rw [runAll, ih, List.flatten_cons, run_append]

mutual

theorem level_step (b : Builder) (s : Step) : (b.step s).level = b.level := by
  cases s with
  | line text => simp [step, line]
  | doc text => simp [step, doc, line]
  | block header close body =>
    simp only [step, line, leave]
    rw [level_run]
    simp [enter]
  | when condition body =>
    unfold step
    split
    · exact level_run b body
    · rfl
  | each bodies =>
    unfold step
    exact level_runAll b bodies

/-- A program keeps the level. -/
theorem level_run (b : Builder) (p : List Step) : (b.run p).level = b.level := by
  cases p with
  | nil => simp [run]
  | cons s rest =>
    simp only [run]
    rw [level_run, level_step]

theorem level_runAll (b : Builder) (bodies : List (List Step)) :
    (b.runAll bodies).level = b.level := by
  cases bodies with
  | nil => simp [runAll]
  | cons body rest =>
    simp only [runAll]
    rw [level_runAll, level_run]

end

end Builder

/-- The text of a program. -/
def render (program : List Step) : String := (Builder.empty.run program).build

end SwiftBindings.Swift
