import SwiftBindings.Context

/-!
# Swift types

How the type names of an interface description read in Swift.

* `fundamental?`: the types that Swift has.
* `qualifiedName`: a name whose namespace is renamed.
* `typeName`: any type name; known records are referred to by their `Ref` wrapper.
* `stringLiteral`: a string constant in quotes.
-/

namespace SwiftBindings.Swift

/-- The Swift type of a fundamental type. -/
def fundamental? (name : String) : Option String :=
  match name with
  | "none" => some "Void"
  | "gboolean" => some "Bool"
  | "gchar" | "gint8" => some "Int8"
  | "guchar" | "guint8" => some "UInt8"
  | "gshort" | "gint16" => some "Int16"
  | "gushort" | "guint16" => some "UInt16"
  | "gint" | "gint32" => some "Int32"
  | "guint" | "guint32" | "gunichar" => some "UInt32"
  | "gint64" => some "Int64"
  | "guint64" => some "UInt64"
  | "glong" => some "CLong"
  | "gulong" => some "CUnsignedLong"
  | "gssize" | "gsize" | "goffset" => some "Int"
  | "gfloat" => some "Float"
  | "gdouble" => some "Double"
  | "utf8" | "filename" => some "String"
  | "gpointer" => some "UnsafeMutableRawPointer?"
  | "gconstpointer" => some "UnsafeRawPointer?"
  | _ => none

/-- The namespace of a qualified name and the rest of it, split at the first dot. -/
def splitNamespace? (name : String) : Option (String × String) :=
  let cs := name.toList
  if cs.contains '.' then
    some (String.ofList (cs.takeWhile (· ≠ '.')),
      String.ofList ((cs.dropWhile (· ≠ '.')).drop 1))
  else none

/-- A name with its namespace renamed. A namespace renamed to nothing is dropped. -/
def qualifiedName (ctx : Context) (name : String) : String :=
  match splitNamespace? name with
  | none => name
  | some (namespaceName, rest) =>
    let renamed := ctx.filters.renameNamespace namespaceName
    if renamed = "" then rest else renamed ++ "." ++ rest

/-- A name without its namespaces: what follows its last dot. -/
def bareName (name : String) : String :=
  String.ofList (name.toList.reverse.takeWhile (· ≠ '.')).reverse

/-- The Swift type of a type name. -/
def typeName (ctx : Context) (name : String) : String :=
  match fundamental? name with
  | some swift => swift
  | none =>
    if (ctx.registry.record? (bareName name)).isSome then qualifiedName ctx name ++ "Ref"
    else qualifiedName ctx name

/-- A character inside a string literal. -/
def literalChar (c : Char) : List Char :=
  if c = '"' then ['\\', '"']
  else if c = '\\' then ['\\', '\\']
  else if c = '\n' then ['\\', 'n']
  else if c = '\t' then ['\\', 't']
  else [c]

/-- A string literal. -/
def stringLiteral (value : String) : String :=
  String.ofList ('"' :: value.toList.flatMap literalChar ++ ['"'])

end SwiftBindings.Swift
