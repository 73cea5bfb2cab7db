import SwiftBindings.FileStore.Output
import SwiftBindings.Filters.Basic

/-!
# Side files

The rules for a module come from files beside the manifest, named after the module. A file that is
not there leaves its default. So does one that cannot be read, and that is reported.

* `SideFile.read`: a side file that is there, that is not, or that cannot be read.
* `Filters.load`: the rules and what could not be read, in reading order.
-/

namespace SwiftBindings

/-- The files that hold the rules for a module. -/
inductive SideFile where
  | blacklist
  | whitelist
  | callbackSuffixes
  | namespaces
  | verbatim
  | overrides
  | preamble
  deriving DecidableEq, Inhabited

namespace SideFile

/-- All side files in reading order. -/
def all : List SideFile :=
  [.blacklist, .whitelist, .callbackSuffixes, .namespaces, .verbatim, .overrides, .preamble]

/-- The ending of a side file's name. -/
def ending : SideFile → String
  | .blacklist => "blacklist"
  | .whitelist => "whitelist"
  | .callbackSuffixes => "callbackSuffixes"
  | .namespaces => "namespaceReplacements"
  | .verbatim => "verbatim"
  | .overrides => "override"
  | .preamble => "preamble"

/-- The path of a module's side file. -/
def path (f : SideFile) (dir : Path) (moduleName : String) : Path :=
  dir.join ⟨moduleName ++ "." ++ f.ending⟩

/-- The text of a side file, if it is there. -/
def read (f : SideFile) (store : FileStore) (dir : Path) (moduleName : String) :
    Except FileError (Option String) :=
  match store.readText (f.path dir moduleName) with
  | .ok text => .ok (some text)
  | .error .missing => .ok none
  | .error e => .error ⟨.read, f.path dir moduleName, e⟩

/-- The text of a side file that is there and can be read. -/
def text? (f : SideFile) (store : FileStore) (dir : Path) (moduleName : String) : Option String :=
  match f.read store dir moduleName with
  | .ok text? => text?
  | .error _ => none

/-- What is wrong with a side file that is there and cannot be read. -/
def error? (f : SideFile) (store : FileStore) (dir : Path) (moduleName : String) :
    Option FileError :=
  match f.read store dir moduleName with
  | .ok _ => none
  | .error e => some e

end SideFile

namespace Filters

/-- A rule read from a text, or its default. -/
def rule {α : Type} (parse : String → α) (default : α) : Option String → α
  | some text => parse text
  | none => default

/-- The rules for a module, and the files that could not be read. -/
def load (store : FileStore) (dir : Path) (moduleName : String) : Filters × List FileError :=
  let text? := fun f : SideFile => f.text? store dir moduleName
  ({ blacklist := rule parseNames default.blacklist (text? .blacklist)
     whitelist := rule parseNames default.whitelist (text? .whitelist)
     callbackSuffixes := rule Text.nonEmptyLines default.callbackSuffixes (text? .callbackSuffixes)
     namespaces := rule parseNamespaces default.namespaces (text? .namespaces)
     verbatim := rule parseNames default.verbatim (text? .verbatim)
     overrides := rule parseNames default.overrides (text? .overrides)
     preamble := rule id default.preamble (text? .preamble) },
    SideFile.all.filterMap fun f => f.error? store dir moduleName)

end Filters

end SwiftBindings
