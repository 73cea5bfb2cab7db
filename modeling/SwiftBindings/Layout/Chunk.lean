import SwiftBindings.Layout.Policy
import SwiftBindings.Module.Category

/-!
# Chunks

The code of a category is cut into chunks, one for each file that it goes to. Declarations keep
their order, and a file takes a run of neighbours only, so that equal letters further on open a
file of their own.

* `joinSimple`: the code of a category with one file.
* `partition`: the chunks of a category.
* `flatten_runs`: cutting into runs loses and moves nothing.
-/

namespace SwiftBindings

/-- The code of one declaration. -/
structure Snippet where
  displayName : String
  text : String
  deriving DecidableEq, Inhabited

/-- A snippet as it stands in a file of types: followed by a blank line, unless it is empty. -/
def Snippet.block (s : Snippet) : String := if s.text = "" then "" else s.text ++ "\n\n"

/-- Where a chunk goes: to a file of its own, which it replaces, or to the end of a bucket. -/
inductive Target where
  | file (path : Path)
  | bucket (b : Bucket)
  deriving DecidableEq, Inhabited

/-- Code and where it goes. -/
structure Chunk where
  target : Target
  content : String
  deriving DecidableEq, Inhabited

/-- The code of a category with one file: the snippets that are not empty, with a blank line
between them. -/
def joinSimple (items : List Snippet) : String :=
  "\n\n".intercalate ((items.map (·.text)).filter (· ≠ ""))

/-- A list cut between neighbours of different keys. -/
def runs {α β : Type} [DecidableEq β] (key : α → β) : List α → List (List α)
  | [] => []
  | a :: rest =>
    match runs key rest with
    | (b :: run) :: more =>
      if key a = key b then (a :: b :: run) :: more else [a] :: (b :: run) :: more
    | _ => [[a]]

/-- The blocks of snippets, one after the other. -/
def blockText (items : List Snippet) : String := String.join (items.map Snippet.block)

/-- The first character of a snippet's name. -/
def Snippet.initial? (s : Snippet) : Option Char := s.displayName.toList.head?

/-- The bucket of a snippet. -/
def Snippet.bucket (s : Snippet) : Bucket := Bucket.ofName s.displayName

/-- The chunk of a run of snippets: it goes where its first member does. -/
def Chunk.ofRun (target : Snippet → Target) : List Snippet → Option Chunk
  | [] => none
  | s :: rest => some ⟨target s, blockText (s :: rest)⟩

/-- The chunks of a category. -/
def partition (c : Category) (items : List Snippet) (split : TypeSplit) (names : FileNames) :
    List Chunk :=
  match c.fileSuffix? with
  | some suffix => [⟨.file (names.partFile suffix), joinSimple items⟩]
  | none =>
    let ownFile := fun s : Snippet => Target.file (names.partFile s.displayName)
    match split with
    | .filePerType => items.map fun s => ⟨ownFile s, s.block⟩
    | .groupedRuns => (runs Snippet.initial? items).filterMap (Chunk.ofRun ownFile)
    | .alphaBuckets =>
      -- buckets are there already, so an empty chunk has nothing to add to one
      ((runs Snippet.bucket items).filterMap (Chunk.ofRun fun s => .bucket s.bucket)).filter
        fun chunk => chunk.content ≠ ""

/-- No run is empty. -/
theorem runs_ne_nil {α β : Type} [DecidableEq β] (key : α → β) (l : List α) :
    ∀ run ∈ runs key l, run ≠ [] := by
  induction l with
  | nil => simp [runs]
  | cons a rest ih =>
    unfold runs
    split
    · rename_i b run more h
      rw [h] at ih
      split
      · intro r hr
        rcases List.mem_cons.1 hr with rfl | hr
        · simp
        · exact ih r (by simp [hr])
      · intro r hr
        rcases List.mem_cons.1 hr with rfl | hr
        · simp
        · exact ih r hr
    · simp

/-- Cutting into runs loses and moves nothing. -/
theorem flatten_runs {α β : Type} [DecidableEq β] (key : α → β) (l : List α) :
    (runs key l).flatten = l := by
  induction l with
  | nil => rfl
  | cons a rest ih =>
    have hne := runs_ne_nil key rest
    unfold runs
    split
    · rename_i b run more h
      rw [h] at ih
      split <;> simp_all
    · rename_i h
      cases hr : runs key rest with
      | nil =>
        rw [hr] at ih
        simp_all
      | cons run more =>
        cases run with
        | nil => exact absurd rfl (hne [] (by simp [hr]))
        | cons b run => exact absurd hr (h b run more)

end SwiftBindings
