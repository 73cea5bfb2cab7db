/-!
# Categories

The ten categories of declarations, in the order in which their Swift code is put together.
Interfaces, records and classes are types and are spread over files; each other category has one
file, named by its suffix.

* `fileSuffix?_eq_none_iff`: exactly the types have no suffix.
* `ofName?_name`: a category is found by its name.
-/

namespace SwiftBindings

/-- What a declaration declares. -/
inductive Category where
  | alias
  | callback
  | constant
  | enumeration
  | bitfield
  | union
  | interface
  | record
  | class_
  | function
  deriving DecidableEq, Inhabited

namespace Category

/-- All categories in processing order. -/
def all : List Category :=
  [.alias, .callback, .constant, .enumeration, .bitfield, .union, .interface, .record, .class_,
    .function]

/-- The name of a category. -/
def name : Category → String
  | .alias => "alias"
  | .callback => "callback"
  | .constant => "constant"
  | .enumeration => "enumeration"
  | .bitfield => "bitfield"
  | .union => "union"
  | .interface => "interface"
  | .record => "record"
  | .class_ => "class"
  | .function => "function"

/-- The position of a category in processing order. -/
def position : Category → Nat
  | .alias => 0
  | .callback => 1
  | .constant => 2
  | .enumeration => 3
  | .bitfield => 4
  | .union => 5
  | .interface => 6
  | .record => 7
  | .class_ => 8
  | .function => 9

/-- Whether a category is one of types. -/
def isType : Category → Bool
  | .interface | .record | .class_ => true
  | _ => false

/-- The part of the file name that stands for a category with a file of its own. -/
def fileSuffix? : Category → Option String
  | .alias => some "aliases"
  | .callback => some "callbacks"
  | .constant => some "constants"
  | .enumeration => some "enumerations"
  | .bitfield => some "bitfields"
  | .union => some "unions"
  | .function => some "functions"
  | .interface | .record | .class_ => none

/-- The category of a name. -/
def ofName? (text : String) : Option Category := all.find? (·.name = text)

/-- The category at a position. -/
def ofPosition? (n : Nat) : Option Category := all[n]?

theorem mem_all (c : Category) : c ∈ all := by cases c <;> decide

theorem fileSuffix?_eq_none_iff {c : Category} : c.fileSuffix? = none ↔ c.isType = true := by
  cases c <;> simp [fileSuffix?, isType]

theorem name_injective {c d : Category} (h : c.name = d.name) : c = d := by
  cases c <;> cases d <;> first | rfl | exact absurd h (by decide)

/-- A category is found by its name. -/
theorem ofName?_name (c : Category) : ofName? c.name = some c := by cases c <;> decide

/-- A category is found at its position. -/
theorem ofPosition?_position (c : Category) : ofPosition? c.position = some c := by cases c <;> rfl

end Category

end SwiftBindings
