import SwiftBindings.Swift.Source
import SwiftBindings.Swift.Types
import SwiftBindings.Text.Identifier

/-!
# Skeletons

The Swift skeleton of a declaration: its outline, with bodies that are not bound to the library.

* `skeletonSteps`: what is written for a declaration.
* `skeleton`: its text.
-/

namespace SwiftBindings.Swift

/-- The type that a signature returns. -/
def returnType (ctx : Context) (s : Signature) : String :=
  match s.returns? with
  | some name => typeName ctx name
  | none => "Void"

/-- The line of a constant. Strings are quoted, unless the value is to be written as it is. -/
def constantLine (ctx : Context) (name type value : String) : String :=
  if ctx.filters.isVerbatim name then "public let " ++ name ++ " = " ++ value
  else
    let swift := typeName ctx type
    if swift = "String" then "public let " ++ name ++ ": String = " ++ stringLiteral value
    else "public let " ++ name ++ ": " ++ swift ++ " = " ++ value

/-- The lines of the fields that are not private. -/
def propertyLines (ctx : Context) (fields : List Field) : List String :=
  (fields.filter fun field => !field.isPrivate).map fun field =>
    "public var " ++ Text.camel field.name ++ ": " ++ typeName ctx field.typeName

/-- A parameter of a function. A callback outlives the call. -/
def parameter (ctx : Context) (p : Param) : String :=
  Text.camel p.name ++ ": " ++
    (if ctx.filters.isCallbackName p.typeName then "@escaping " else "") ++ typeName ctx p.typeName

/-- The opening line of a function. -/
def functionHeader (ctx : Context) (d : Declaration) (s : Signature) : String :=
  let modifiers := if ctx.filters.isOverridden d.name then "public override" else "public"
  let params := ", ".intercalate (s.params.map (parameter ctx))
  let opening := modifiers ++ " func " ++ Text.camel d.displayName ++ "(" ++ params ++ ")"
  if s.returns? = none ∨ s.returns? = some "none" then opening ++ " \x7b"
  else opening ++ " -> " ++ returnType ctx s ++ " \x7b"

/-- What is written for the kind of a declaration. -/
def kindSteps (ctx : Context) (d : Declaration) : List Step :=
  let name := d.displayName
  match d.kind with
  | .alias target => [.line ("public typealias " ++ name ++ " = " ++ typeName ctx target)]
  | .callback s =>
    let params := ", ".intercalate (s.params.map fun p => typeName ctx p.typeName)
    [.line ("public typealias " ++ name ++ " = (" ++ params ++ ") -> " ++ returnType ctx s)]
  | .constant type value => [.line (constantLine ctx d.name type value)]
  | .enumeration members =>
    [.block ("public enum " ++ name ++ ": Int \x7b") "\x7d"
      [.eachLine (members.map fun m => "case " ++ Text.camel m.name ++ " = " ++ toString m.value)]]
  | .bitfield members =>
    [.block ("public struct " ++ name ++ ": OptionSet \x7b") "\x7d"
      [.line "public let rawValue: Int",
        .line "public init(rawValue: Int) \x7b self.rawValue = rawValue \x7d",
        .eachLine (members.map fun m =>
          "public static let " ++ Text.camel m.name ++ " = " ++ name ++ "(rawValue: " ++
            toString m.value ++ ")")]]
  | .union fields | .record fields =>
    [.block ("public struct " ++ name ++ " \x7b") "\x7d" [.eachLine (propertyLines ctx fields)]]
  | .interface [] => [.line ("public protocol " ++ name ++ " \x7b\x7d")]
  | .interface prerequisites =>
    [.line ("public protocol " ++ name ++ ": " ++
      ", ".intercalate (prerequisites.map (qualifiedName ctx)) ++ " \x7b\x7d")]
  | .class_ none fields =>
    [.block ("open class " ++ name ++ " \x7b") "\x7d" [.eachLine (propertyLines ctx fields)]]
  | .class_ (some parent) fields =>
    [.block ("open class " ++ name ++ ": " ++ qualifiedName ctx parent ++ " \x7b") "\x7d"
      [.eachLine (propertyLines ctx fields)]]
  | .function s =>
    [.block (functionHeader ctx d s) "\x7d" [.line "fatalError(\"not bound\")"]]

/-- What is written for a declaration: the C type that it wraps, if any, and its outline. -/
def skeletonSteps (ctx : Context) (d : Declaration) : List Step :=
  .when d.cType?.isSome [.doc ("Wraps `" ++ d.cType?.getD "" ++ "`.")] :: kindSteps ctx d

/-- The Swift skeleton of a declaration. -/
def skeleton (ctx : Context) (d : Declaration) : String := render (skeletonSteps ctx d)

end SwiftBindings.Swift
