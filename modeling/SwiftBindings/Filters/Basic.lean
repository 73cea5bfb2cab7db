import SwiftBindings.Module.Basic
import SwiftBindings.Table
import SwiftBindings.Text.Blank
import SwiftBindings.Text.Line

/-!
# Filters

The rules for one module: which names are left out, which are forgotten before the run, how
namespaces are renamed, and how single declarations are written.

* `parseNames`: a list of names is a set in order of first mention.
* `parseNamespaces`: the table of renamed namespaces.
-/

namespace SwiftBindings

/-- The rules for one module. The name lists are sets in order of first mention. -/
structure Filters where
  /-- Names left out in every category. -/
  blacklist : List String
  /-- Names forgotten before the run. -/
  whitelist : List String
  /-- Endings of the names of callback types. -/
  callbackSuffixes : List String
  /-- New names of namespaces. -/
  namespaces : Table String String
  /-- Constants whose value is written as it is. -/
  verbatim : List String
  /-- Functions that override. -/
  overrides : List String
  /-- Text before every new file. -/
  preamble : String
  deriving Inhabited

namespace Filters

/-- The callback endings of a module that gives none. -/
def defaultCallbackSuffixes : List String := ["Notify", "Func", "Marshaller", "Callback"]

/-- The rules of a module without side files. -/
def default : Filters := ⟨[], [], defaultCallbackSuffixes, .empty, [], [], ""⟩

/-- Whether a name is left out. -/
def isBlacklisted (f : Filters) (name : String) : Bool := f.blacklist.contains name

/-- Whether a type name is that of a callback. -/
def isCallbackName (f : Filters) (name : String) : Bool :=
  f.callbackSuffixes.any fun suffix => suffix.toList.isSuffixOf name.toList

/-- The name of a namespace in Swift. -/
def renameNamespace (f : Filters) (name : String) : String := (f.namespaces.find? name).getD name

/-- Whether the value of a constant is written as it is. -/
def isVerbatim (f : Filters) (name : String) : Bool := f.verbatim.contains name

/-- Whether a function overrides. -/
def isOverridden (f : Filters) (name : String) : Bool := f.overrides.contains name

/-- The set of the names that a text lists. -/
def parseNames (text : String) : List String := (Text.nonEmptyLines text).eraseDups

/-- The fields of a line of the namespace table: between tabs if that gives two, else between
white space. -/
def namespaceFields (line : List Char) : List (List Char) :=
  let tabbed := (Text.pieces '\t' line).filter fun field => !field.isEmpty
  if 2 ≤ tabbed.length then tabbed else Text.words line

/-- The entry of a line of the namespace table: its first two fields. -/
def namespacePair? (line : List Char) : Option (String × String) :=
  match namespaceFields line with
  | key :: value :: _ => some (String.ofList key, String.ofList value)
  | _ => none

/-- The table of a text with one entry per line. A line with fewer than two fields is no entry, and
of two entries for one name the later wins. -/
def parseNamespaces (text : String) : Table String String :=
  .ofList ((Text.nonEmptyLinesOf text.toList).filterMap namespacePair?)

end Filters

end SwiftBindings
