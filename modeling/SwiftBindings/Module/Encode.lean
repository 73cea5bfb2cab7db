import SwiftBindings.Json.Printer
import SwiftBindings.Module.Basic

/-!
# Modules as JSON

The description of a module is a JSON object. What is optional and absent is left out, and lists
and privacy are always written.

* `Module.toJson`: the object of a module.
* `Module.print`: its text.
-/

namespace SwiftBindings

open Json (Value)

/-- A string as a JSON value. -/
def Json.Value.text (s : String) : Value := .string (some s)

/-- An object with named members. -/
def Json.Value.record (members : List (String × Value)) : Value :=
  .object (members.map fun (name, v) => (some name, v))

/-- The member of an optional string. -/
def Json.optionalMember (name : String) : Option String → List (String × Value)
  | none => []
  | some s => [(name, .text s)]

/-- The object of a field. -/
def Field.toJson (f : Field) : Value :=
  .record [("name", .text f.name), ("type", .text f.typeName), ("private", .bool f.isPrivate)]

/-- The object of a member. -/
def Member.toJson (m : Member) : Value :=
  .record [("name", .text m.name), ("value", .number (.ofInt m.value))]

/-- The object of a parameter. -/
def Param.toJson (p : Param) : Value :=
  .record [("name", .text p.name), ("type", .text p.typeName)]

/-- The object of a signature. -/
def Signature.toJson (s : Signature) : Value :=
  .record (("params", .array (s.params.map Param.toJson)) ::
    Json.optionalMember "returns" s.returns?)

/-- The members that a kind adds to its declaration. -/
def Kind.toJsonMembers : Kind → List (String × Value)
  | .alias target => [("target", .text target)]
  | .callback signature => [("signature", signature.toJson)]
  | .constant typeName value => [("type", .text typeName), ("value", .text value)]
  | .enumeration members => [("members", .array (members.map Member.toJson))]
  | .bitfield members => [("members", .array (members.map Member.toJson))]
  | .union fields => [("fields", .array (fields.map Field.toJson))]
  | .interface prerequisites => [("prerequisites", .array (prerequisites.map .text))]
  | .record fields => [("fields", .array (fields.map Field.toJson))]
  | .class_ parent? fields =>
    Json.optionalMember "parent" parent? ++ [("fields", .array (fields.map Field.toJson))]
  | .function signature => [("signature", signature.toJson)]

/-- The object of a declaration. -/
def Declaration.toJson (d : Declaration) : Value :=
  .record ([("name", .text d.name)] ++ Json.optionalMember "display_name" d.displayName? ++
    Json.optionalMember "c_type" d.cType? ++ [("kind", .text d.category.name)] ++
    d.kind.toJsonMembers)

/-- The object of a module. -/
def Module.toJson (m : Module) : Value :=
  .record [("namespace", .text m.name), ("boilerplate", .text m.boilerplate),
    ("declarations", .array (m.declarations.map Declaration.toJson))]

/-- The text of a module. -/
def Module.print (m : Module) : String := m.toJson.print

end SwiftBindings
