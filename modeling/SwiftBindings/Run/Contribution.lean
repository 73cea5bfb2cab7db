import SwiftBindings.Context
import SwiftBindings.Filters.Selection
import SwiftBindings.Layout.Chunk

/-!
# Contributions of the categories

Each category is worked on by itself. What it contributes to a run is its code, in one text or in
chunks, and its counts. A category whose code cannot be made contributes an error and nothing else.

* `Contribution.make`: the contribution of a category.
* `Contribution.arrange`: contributions in processing order, whatever order they come in.
-/

namespace SwiftBindings

/-- Makes the code of a declaration. Without an answer it breaks off. -/
abbrev Synthesizer := Context → Declaration → Option String

/-- What a category contributes to a run. -/
structure Contribution where
  category : Category
  /-- The number of declarations with code. -/
  generated : Nat
  blacklisted : Nat
  elided : List String
  /-- The code in one text, if it is not written to files. -/
  unified : String
  /-- The code for files. -/
  chunks : List Chunk
  diagnostics : List Diagnostic
  deriving Inhabited

namespace Contribution

/-- The contribution of a category whose code cannot be made. -/
def failed (c : Category) : Contribution :=
  ⟨c, 0, 0, [], "", [], [.error .generate (c.name ++ ": synthesis failed")]⟩

/-- The snippets of declarations, if all can be made. -/
def snippets? (synthesize : Synthesizer) (ctx : Context) (ds : List Declaration) :
    Option (List Snippet) :=
  ds.mapM fun d => (synthesize ctx d).map fun text => ⟨d.displayName, text⟩

/-- The contribution of a category. `layout?` says how files are named and types spread over them;
without it the code is one text. -/
def make (synthesize : Synthesizer) (ctx : Context) (m : Module) (generateAll : Bool)
    (layout? : Option (FileNames × TypeSplit)) (c : Category) : Contribution :=
  let selection := Selection.select m c ctx.filters generateAll
  match snippets? synthesize ctx selection.declarations with
  | none => failed c
  | some items =>
    { category := c
      generated := (items.filter (·.text ≠ "")).length
      blacklisted := selection.blacklisted
      elided := selection.elided
      unified := match layout? with
        | none => joinSimple items
        | some _ => ""
      chunks := match layout? with
        | none => []
        | some (names, split) => partition c items split names
      diagnostics := [] }

/-- Contributions in processing order. -/
def arrange (cs : List Contribution) : List Contribution :=
  Category.all.flatMap fun c => cs.filter (·.category = c)

end Contribution

end SwiftBindings
