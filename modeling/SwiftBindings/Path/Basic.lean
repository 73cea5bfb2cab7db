import SwiftBindings.Text.Pieces

/-!
# Paths

A path is kept as it was written and compared by its components. Repeated slashes, dots inside it
and slashes at its end stand for no component; a leading dot does.

* `components`: what two paths are compared by.
* `join`, `parent?`, `fileName?`, `stripPrefix?`: the operations on paths, none of which looks at
  a file system.
* `not_isAbsolute_iff_join`: a relative path is joined behind the base.
-/

namespace SwiftBindings

/-- One step of a path. -/
inductive Component where
  | root
  | current
  | parent
  | name (text : String)
  deriving DecidableEq, Inhabited

/-- A path as written. -/
structure Path where
  text : String
  deriving DecidableEq, Inhabited

namespace Path

/-- What stands between two slashes of a path, with the component that it is, if it is one. -/
structure Piece where
  text : List Char
  component? : Option Component

/-- The component that a piece after a slash stands for. -/
def innerComponent? (text : List Char) : Option Component :=
  if text = [] ∨ text = ['.'] then none
  else if text = ['.', '.'] then some .parent
  else some (.name (String.ofList text))

/-- The component that the first piece of a path stands for: before a slash, an empty piece is
the root. -/
def leadingComponent? (text : List Char) (beforeSlash : Bool) : Option Component :=
  if text = [] then (if beforeSlash then some .root else none)
  else if text = ['.'] then some .current
  else innerComponent? text

/-- The pieces of a path. -/
def pieces (p : Path) : List Piece :=
  match Text.pieces '/' p.text.toList with
  | [] => []
  | first :: rest =>
    ⟨first, leadingComponent? first !rest.isEmpty⟩ ::
      rest.map fun text => ⟨text, innerComponent? text⟩

/-- The components of a path. -/
def components (p : Path) : List Component := p.pieces.filterMap (·.component?)

/-- Whether two paths have the same components. -/
def same (p q : Path) : Bool := p.components = q.components

/-- Whether a path starts at the root. -/
def isAbsolute (p : Path) : Bool := p.text.toList.head? = some '/'

/-- The path that pieces spell. The root alone is a slash. -/
def ofPieces (ps : List Piece) : Path :=
  match ps with
  | [⟨_, some .root⟩] => ⟨"/"⟩
  | _ => ⟨String.ofList (['/'].intercalate (ps.map (·.text)))⟩

/-- Pieces without those at the end that are no component. -/
def trimEnd (ps : List Piece) : List Piece :=
  (ps.reverse.dropWhile (·.component?.isNone)).reverse

/-- A path followed by another. An absolute path replaces the one before it. -/
def join (base part : Path) : Path :=
  if part.isAbsolute then part
  else if base.text = "" ∨ base.text.toList.getLast? = some '/' then ⟨base.text ++ part.text⟩
  else ⟨base.text ++ "/" ++ part.text⟩

/-- The paths that lead to pieces given last piece first: the whole, then each with one component
less. A relative path ends with the empty one. -/
def ancestorsOf : List Piece → List Path
  | [] => [⟨""⟩]
  | piece :: rest =>
    match piece.component? with
    | none => ancestorsOf rest
    | some .root => [⟨"/"⟩]
    | some _ => ofPieces (piece :: rest).reverse :: ancestorsOf rest

/-- A path without what follows its last component, and the paths above it, nearest first. -/
def ancestors (p : Path) : List Path := ancestorsOf p.pieces.reverse

/-- The path above, if there is one: neither the root nor the empty path has one. -/
def parent? (p : Path) : Option Path := p.ancestors.tail.head?

/-- The last component, if it is a name. -/
def fileName? (p : Path) : Option String :=
  match p.components.getLast? with
  | some (.name text) => some text
  | _ => none

/-- Pieces after the given components, if they start with these. -/
def dropComponents? : List Component → List Piece → Option (List Piece)
  | [], ps => some ps
  | _ :: _, [] => none
  | c :: cs, piece :: rest =>
    match piece.component? with
    | none => dropComponents? (c :: cs) rest
    | some d => if c = d then dropComponents? cs rest else none

/-- The rest of a path that starts with the components of a base. -/
def stripPrefix? (p base : Path) : Option Path :=
  (dropComponents? base.components p.pieces).map fun rest =>
    ofPieces (trimEnd (rest.dropWhile (·.component?.isNone)))

/-- A text without an ending, or as it is. -/
def withoutEnding (ending text : List Char) : List Char :=
  if ending.isSuffixOf text then text.take (text.length - ending.length) else text

/-- The name of the module that an interface description holds: its file name without the endings
`.json` and `.gir`. -/
def moduleName (p : Path) : String :=
  let name := (p.fileName?.getD "").toList
  String.ofList (withoutEnding ".gir".toList (withoutEnding ".json".toList name))

/-- A relative path is joined behind the base. -/
theorem not_isAbsolute_iff_join {base part : Path} (h : part.isAbsolute = false) :
    ∃ gap, (gap = "" ∨ gap = "/") ∧ (base.join part).text = base.text ++ gap ++ part.text := by
  unfold join
  rw [if_neg (by simp [h])]
  split
  · exact ⟨"", Or.inl rfl, by simp⟩
  · exact ⟨"/", Or.inr rfl, rfl⟩

end Path

end SwiftBindings
