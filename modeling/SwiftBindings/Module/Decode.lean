import SwiftBindings.Json.Reader
import SwiftBindings.Module.Basic

/-!
# Reading modules

A module is read from JSON by the names of its members: their order does not matter, unknown
members are passed over, and a known one must not be repeated. A part with a fixed list of members
may also be written as an array of them in order, the last ones left out if they have a default.

* `Member.ofJson?`, `Field.ofJson?`, `Param.ofJson?`, `Signature.ofJson?`: the parts.
* `Declaration.ofJson?`: always an object, its members depending on its kind.
* `Module.ofJson?`, `Module.parse?`: a module from a value and from a text.
-/

namespace SwiftBindings

open Json (Value Literal)

namespace Json

/-- The value of a member that may be left out but not repeated. The outer `none` is a repeated
member. -/
def member? (name : String) (members : List (Literal × Value)) : Option (Option Value) :=
  match members.filter (·.1 = some name) with
  | [] => some none
  | [(_, v)] => some (some v)
  | _ => none

/-- A string. -/
def text? : Value → Option String
  | .string s => s
  | _ => none

/-- A string or nothing. -/
def optionalText? : Value → Option (Option String)
  | .null => some none
  | .string s => s.map some
  | _ => none

/-- A truth value. -/
def bool? : Value → Option Bool
  | .bool b => some b
  | _ => none

/-- The least integer of 64 bits. -/
def minInteger : Int := -Int.ofNat (Nat.pow 2 63)

/-- The greatest integer of 64 bits. -/
def maxInteger : Int := Int.ofNat (Nat.pow 2 63) - 1

/-- An integer of 64 bits. -/
def integer? : Value → Option Int
  | .number n =>
    match n.toInt? with
    | some i => if minInteger ≤ i ∧ i ≤ maxInteger then some i else none
    | none => none
  | _ => none

/-- An array whose items are all of one sort. -/
def list? {α : Type} (item? : Value → Option α) : Value → Option (List α)
  | .array items => items.mapM item?
  | _ => none

/-- A required member. -/
def required? {α : Type} (read? : Value → Option α) : Option Value → Option α
  | some v => read? v
  | none => none

/-- A member with a default. -/
def defaulted? {α : Type} (read? : Value → Option α) (default : α) : Option Value → Option α
  | some v => read? v
  | none => some default

/-- The members of a part that is written as an object, by name, or as an array, by position. -/
def slots? (names : List String) : Value → Option (List (Option Value))
  | .object members => names.mapM fun name => member? name members
  | .array items =>
    if names.length < items.length then none
    else some (items.map some ++ List.replicate (names.length - items.length) none)
  | _ => none

end Json

open Json

/-- A field. -/
def Field.ofJson? (v : Value) : Option Field :=
  match slots? ["name", "type", "private"] v with
  | some [name, typeName, isPrivate] => do
    return ⟨← required? text? name, ← required? text? typeName, ← defaulted? bool? false isPrivate⟩
  | _ => none

/-- A member of an enumeration or bit field. -/
def Member.ofJson? (v : Value) : Option Member :=
  match slots? ["name", "value"] v with
  | some [name, value] => do return ⟨← required? text? name, ← required? integer? value⟩
  | _ => none

/-- A parameter. -/
def Param.ofJson? (v : Value) : Option Param :=
  match slots? ["name", "type"] v with
  | some [name, typeName] => do return ⟨← required? text? name, ← required? text? typeName⟩
  | _ => none

/-- A signature. -/
def Signature.ofJson? (v : Value) : Option Signature :=
  match slots? ["params", "returns"] v with
  | some [params, returns] => do
    return ⟨← defaulted? (list? Param.ofJson?) [] params, ← defaulted? optionalText? none returns⟩
  | _ => none

/-- The category that a kind is written as: by its name or by its position. -/
def Category.ofJson? : Value → Option Category
  | .string s => s.bind Category.ofName?
  | .number n =>
    match n.toInt? with
    | some (.ofNat i) => if n.negative then none else Category.ofPosition? i
    | _ => none
  | _ => none

/-- The kind of a declaration of a category, from the members of the declaration. -/
def Kind.ofJson? (c : Category) (members : List (Literal × Value)) : Option Kind :=
  match c with
  | .alias => do return .alias (← required? text? (← member? "target" members))
  | .callback => do
    return .callback (← defaulted? Signature.ofJson? ⟨[], none⟩ (← member? "signature" members))
  | .constant => do
    return .constant (← required? text? (← member? "type" members))
      (← required? text? (← member? "value" members))
  | .enumeration => do
    return .enumeration (← defaulted? (list? Member.ofJson?) [] (← member? "members" members))
  | .bitfield => do
    return .bitfield (← defaulted? (list? Member.ofJson?) [] (← member? "members" members))
  | .union => do
    return .union (← defaulted? (list? Field.ofJson?) [] (← member? "fields" members))
  | .interface => do
    return .interface (← defaulted? (list? text?) [] (← member? "prerequisites" members))
  | .record => do
    return .record (← defaulted? (list? Field.ofJson?) [] (← member? "fields" members))
  | .class_ => do
    return .class_ (← defaulted? optionalText? none (← member? "parent" members))
      (← defaulted? (list? Field.ofJson?) [] (← member? "fields" members))
  | .function => do
    return .function (← defaulted? Signature.ofJson? ⟨[], none⟩ (← member? "signature" members))

/-- How deep the values inside a declaration may be nested. The whole text may be nested 127 deep,
and a declaration stands in the list of a module. -/
def Declaration.depthLimit : Nat := 125

/-- A declaration. -/
def Declaration.ofJson? (v : Value) : Option Declaration :=
  if v.isReadable depthLimit then
    match v with
    | .object members => do
      let category ← required? Category.ofJson? (← member? "kind" members)
      return ⟨← required? text? (← member? "name" members),
        ← defaulted? optionalText? none (← member? "display_name" members),
        ← defaulted? optionalText? none (← member? "c_type" members),
        ← Kind.ofJson? category members⟩
    | _ => none
  else none

/-- A member name that is no text makes a module unreadable. -/
def Module.namesReadable : Value → Bool
  | .object members => members.all (·.1.isSome)
  | _ => true

/-- A module. Only its declarations are held to limits of nesting and number, since what it does
not know is passed over unread. -/
def Module.ofJson? (v : Value) : Option Module :=
  if Module.namesReadable v then
    match slots? ["namespace", "boilerplate", "declarations"] v with
    | some [name, boilerplate, declarations] => do
      return ⟨← defaulted? text? "" name, ← defaulted? text? "" boilerplate,
        ← defaulted? (list? Declaration.ofJson?) [] declarations⟩
    | _ => none
  else none

/-- The module that a text describes. -/
def Module.parse? (text : String) : Option Module := (Json.parse text).bind Module.ofJson?

end SwiftBindings
