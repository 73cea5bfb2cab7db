import SwiftBindings.Module.Category

/-!
# Modules

A module is the interface of one C library: its declarations in the order in which the library's
description lists them. The order is kept throughout, because files are cut along it.

* `Declaration.displayName`: the name that groups declarations and names files.
* `Module.of`, `Module.class?`: declarations by category and classes by name.
-/

namespace SwiftBindings

/-- A field of a record, class or union. -/
structure Field where
  name : String
  typeName : String
  isPrivate : Bool
  deriving DecidableEq, Inhabited

/-- A member of an enumeration or of a bit field. -/
structure Member where
  name : String
  value : Int
  deriving DecidableEq, Inhabited

/-- A parameter of a function or callback. -/
structure Param where
  name : String
  typeName : String
  deriving DecidableEq, Inhabited

/-- The parameters of a function or callback and the type that it returns, if any. -/
structure Signature where
  params : List Param
  returns? : Option String
  deriving DecidableEq, Inhabited

/-- What a declaration says, by category. -/
inductive Kind where
  | alias (target : String)
  | callback (signature : Signature)
  | constant (typeName value : String)
  | enumeration (members : List Member)
  | bitfield (members : List Member)
  | union (fields : List Field)
  | interface (prerequisites : List String)
  | record (fields : List Field)
  | class_ (parent? : Option String) (fields : List Field)
  | function (signature : Signature)
  deriving DecidableEq, Inhabited

/-- The category of a kind. -/
def Kind.category : Kind → Category
  | .alias _ => .alias
  | .callback _ => .callback
  | .constant _ _ => .constant
  | .enumeration _ => .enumeration
  | .bitfield _ => .bitfield
  | .union _ => .union
  | .interface _ => .interface
  | .record _ => .record
  | .class_ _ _ => .class_
  | .function _ => .function

/-- The fields of a record, class or union; other kinds have none. -/
def Kind.fields : Kind → List Field
  | .record fields | .class_ _ fields | .union fields => fields
  | _ => []

/-- One declaration. Filters go by its name. -/
structure Declaration where
  name : String
  displayName? : Option String
  cType? : Option String
  kind : Kind
  deriving DecidableEq, Inhabited

namespace Declaration

/-- The name that groups declarations and names files. -/
def displayName (d : Declaration) : String := d.displayName?.getD d.name

/-- The category of a declaration. -/
def category (d : Declaration) : Category := d.kind.category

/-- The fields of a declaration. -/
def fields (d : Declaration) : List Field := d.kind.fields

end Declaration

/-- The interface of one library. -/
structure Module where
  name : String
  boilerplate : String
  declarations : List Declaration
  deriving DecidableEq, Inhabited

namespace Module

/-- The declarations of one category, in order. -/
def of (m : Module) (c : Category) : List Declaration :=
  m.declarations.filter (·.category = c)

/-- The first class of a name. -/
def class? (m : Module) (name : String) : Option Declaration :=
  (m.of .class_).find? (·.name = name)

end Module

end SwiftBindings
