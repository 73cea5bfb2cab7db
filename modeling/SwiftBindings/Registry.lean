import SwiftBindings.Module.Basic
import SwiftBindings.Table

/-!
# Known names

The registry holds the names whose Swift bindings exist or are about to, so that code can refer to
them across modules. Records and classes are both a data type and a record, functions stand apart,
and everything else is a data type.

* `find?_register`: what a registration changes.
* `isKnown_evict`: an evicted name is known no more, and other names are as before.
-/

namespace SwiftBindings

/-- What is known of a name. -/
structure KnownType where
  name : String
  category : Category
  cType? : Option String
  deriving DecidableEq, Inhabited

/-- What a declaration makes known. -/
def KnownType.ofDeclaration (d : Declaration) : KnownType := ⟨d.name, d.category, d.cType?⟩

/-- The known data types, records and functions. -/
structure Registry where
  dataTypes : Table String KnownType
  records : Table String KnownType
  functions : Table String KnownType
  deriving Inhabited

namespace Registry

/-- The registry that knows nothing. -/
def empty : Registry := ⟨.empty, .empty, .empty⟩

/-- What is known of a name as a data type. -/
def dataType? (r : Registry) (name : String) : Option KnownType := r.dataTypes.find? name

/-- What is known of a name as a record or class. -/
def record? (r : Registry) (name : String) : Option KnownType := r.records.find? name

/-- What is known of a name as a function. -/
def function? (r : Registry) (name : String) : Option KnownType := r.functions.find? name

/-- Whether anything is known of a name. -/
def isKnown (r : Registry) (name : String) : Bool :=
  r.dataTypes.contains name || r.records.contains name || r.functions.contains name

/-- The number of entries in all tables. -/
def size (r : Registry) : Nat := r.dataTypes.size + r.records.size + r.functions.size

/-- The registry with a declaration. -/
def register (r : Registry) (d : Declaration) : Registry :=
  let known := KnownType.ofDeclaration d
  match d.category with
  | .function => { r with functions := r.functions.insert d.name known }
  | .record | .class_ =>
    { r with
      records := r.records.insert d.name known
      dataTypes := r.dataTypes.insert d.name known }
  | _ => { r with dataTypes := r.dataTypes.insert d.name known }

/-- The registry with every declaration of a module. -/
def preload (r : Registry) (m : Module) : Registry := m.declarations.foldl register r

/-- The registry without a name. -/
def evict (r : Registry) (name : String) : Registry :=
  ⟨r.dataTypes.erase name, r.records.erase name, r.functions.erase name⟩

/-- Whether some table has a name, and the registry without it. -/
def remove (r : Registry) (name : String) : Bool × Registry :=
  let (dataType?, dataTypes) := r.dataTypes.remove name
  let (record?, records) := r.records.remove name
  let (function?, functions) := r.functions.remove name
  (dataType?.isSome || record?.isSome || function?.isSome, ⟨dataTypes, records, functions⟩)

/-- The registry without the names of a list, and how many of them were known when their turn
came. -/
def evictAll (r : Registry) : List String → Nat × Registry
  | [] => (0, r)
  | name :: rest =>
    let (count, r') := (r.evict name).evictAll rest
    (if r.isKnown name then count + 1 else count, r')

/-- To remove a name is to evict it and to say whether it was known. -/
theorem remove_eq (r : Registry) (name : String) : r.remove name = (r.isKnown name, r.evict name) :=
  rfl

/-- The names of a list are removed one after the other, and those that were known are counted. -/
theorem evictAll_cons (r : Registry) (name : String) (rest : List String) :
    r.evictAll (name :: rest) =
      (((r.remove name).2.evictAll rest).1 + (r.remove name).1.toNat,
        ((r.remove name).2.evictAll rest).2) := by
  rw [remove_eq]
  cases h : r.isKnown name <;> simp [evictAll, h]

/-- A function goes to the functions, a record or class to records and data types, and everything
else to the data types. -/
theorem find?_register (r : Registry) (d : Declaration) (name : String) :
    ((r.register d).dataType? name =
      if d.category ≠ .function ∧ d.name = name then some (.ofDeclaration d)
      else r.dataType? name) ∧
    ((r.register d).record? name =
      if (d.category = .record ∨ d.category = .class_) ∧ d.name = name then
        some (.ofDeclaration d)
      else r.record? name) ∧
    ((r.register d).function? name =
      if d.category = .function ∧ d.name = name then some (.ofDeclaration d)
      else r.function? name) := by
  unfold register dataType? record? function?
  cases h : d.category <;> simp

/-- An evicted name is known no more, and other names are as before. -/
theorem isKnown_evict (r : Registry) (name other : String) :
    (r.evict name).isKnown other = if name = other then false else r.isKnown other := by
  by_cases h : name = other <;> simp [isKnown, evict, Table.contains, h]

end Registry

end SwiftBindings
