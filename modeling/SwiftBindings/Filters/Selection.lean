import SwiftBindings.Filters.Basic

/-!
# Selection

Which declarations of a category Swift code is made for. A blacklisted name is left out in every
category. A record that is an implementation detail of a class is elided unless all are wanted.

* `isPrivateRecord`: when a record is such a detail.
* `Selection.select`: the split of a category.
-/

namespace SwiftBindings

/-- The ending of the names of records that are details of a class. -/
def privateSuffix : String := "Private"

/-- The name of the class that a record would be a detail of. -/
def ownerName? (recordName : String) : Option String :=
  let name := recordName.toList
  let ending := privateSuffix.toList
  if ending.isSuffixOf name then some (String.ofList (name.take (name.length - ending.length)))
  else none

/-- Whether a record is a detail of a class: no public field of the class, if there is such a
class, has the record as its type. -/
def isPrivateRecord (d : Declaration) (m : Module) : Bool :=
  match ownerName? d.name with
  | none => false
  | some owner =>
    match m.class? owner with
    | none => true
    | some c => c.fields.all fun field => field.typeName ≠ d.name || field.isPrivate

/-- What becomes of a declaration. -/
inductive Verdict where
  | selected
  | blacklisted
  | elided
  deriving DecidableEq, Inhabited

/-- What becomes of a declaration of a module. -/
def Verdict.of (m : Module) (f : Filters) (generateAll : Bool) (d : Declaration) : Verdict :=
  if f.isBlacklisted d.name then .blacklisted
  else if d.category = .record ∧ generateAll = false ∧ isPrivateRecord d m = true then .elided
  else .selected

/-- The declarations of a category that code is made for, how many were blacklisted and the names
of those that were elided. -/
structure Selection where
  declarations : List Declaration
  blacklisted : Nat
  elided : List String
  deriving Inhabited

/-- The split of a category, in order. -/
def Selection.select (m : Module) (c : Category) (f : Filters) (generateAll : Bool) : Selection :=
  let having := fun v => (m.of c).filter fun d => Verdict.of m f generateAll d = v
  { declarations := having .selected
    blacklisted := (having .blacklisted).length
    elided := (having .elided).map (·.name) }

end SwiftBindings
