import SwiftBindings.Path.Basic
import SwiftBindings.Toml.Reader

/-!
# Manifests

The manifest `girgen.toml` says which module to generate and how. Its table `module` may also be an
array of the settings in order.

* `ModuleConfig.ofToml?`: the settings of a value.
* `Manifest.fault?`: what a manifest must not say.
* `Manifest.parse`: a manifest read and validated.
-/

namespace SwiftBindings

/-- The settings of the module to generate. -/
structure ModuleConfig where
  /-- The description of the module. -/
  ir? : Option Path
  pkgConfig? : Option String
  outputDir? : Option Path
  alphaNames : Bool
  /-- Descriptions whose names are known but not generated. -/
  prerequisites : List Path
  deriving DecidableEq, Inhabited

/-- The settings of a manifest that says nothing. -/
def ModuleConfig.default : ModuleConfig := ⟨none, none, none, false, []⟩

/-- What a manifest says. -/
structure Manifest where
  module : ModuleConfig
  deriving DecidableEq, Inhabited

/-- The name of the manifest's file. -/
def manifestFile : Path := ⟨"girgen.toml"⟩

/-- A part of a text: where it starts and how long it is, in bytes. -/
structure Span where
  offset : Nat
  length : Nat
  deriving DecidableEq, Inhabited

/-- What is wrong with a manifest. -/
inductive ManifestError where
  /-- It cannot be read. -/
  | unreadable (path : Path)
  /-- It is no manifest. -/
  | malformed
  /-- It says what it must not. -/
  | invalid (reason : String) (span? : Option Span)
  deriving DecidableEq, Inhabited

namespace ManifestError

/-- What is told of a faulty manifest. -/
def message : ManifestError → String
  | .unreadable path => "failed to read '" ++ path.text ++ "'"
  | .malformed => "failed to parse girgen.toml"
  | .invalid reason _ => reason

/-- The code of an error. -/
def code : ManifestError → String
  | .unreadable _ => "girgen::io"
  | .malformed => "girgen::parse_error"
  | .invalid _ _ => "girgen::validation_error"

end ManifestError

/-- The number of bytes before the first occurrence of a word in a text. -/
def findBytes? (word : List Char) : List Char → Option Nat
  | [] => if word = [] then some 0 else none
  | c :: rest =>
    if word.isPrefixOf (c :: rest) then some 0
    else (findBytes? word rest).map (c.utf8Size + ·)

/-- The first occurrence of a word in a text. -/
def Span.find? (text word : String) : Option Span :=
  (findBytes? word.toList text.toList).map fun offset => ⟨offset, word.utf8ByteSize⟩

/-- The error that a manifest's text is invalid, pointing at the first occurrence of a word. -/
def ManifestError.invalidAt (text word reason : String) : ManifestError :=
  .invalid reason (Span.find? text word)

namespace ModuleConfig

open Toml (Value Entries)

/-- A string setting. -/
def text? : Value → Option String
  | .string s => some s
  | _ => none

/-- A path setting. -/
def path? : Value → Option Path
  | .string s => some ⟨s⟩
  | _ => none

/-- A truth setting. -/
def bool? : Value → Option Bool
  | .boolean b => some b
  | _ => none

/-- A list of paths. -/
def paths? : Value → Option (List Path)
  | .array _ items => items.mapM path?
  | _ => none

/-- The names of the settings in order. -/
def keys : List String := ["ir", "pkg-config", "output-dir", "alpha-names", "prerequisites"]

/-- A setting that may be left out. -/
def optional? {α : Type} (read? : Value → Option α) : Option Value → Option (Option α)
  | none => some none
  | some v => (read? v).map some

/-- A setting with a default. -/
def defaulted? {α : Type} (read? : Value → Option α) (default : α) : Option Value → Option α
  | none => some default
  | some v => read? v

/-- The settings of a table. It must not hold other keys. -/
def ofEntries? (entries : Entries) : Option ModuleConfig :=
  if entries.all fun e => keys.contains e.1 then do
    return ⟨← optional? path? (entries.find? "ir"), ← optional? text? (entries.find? "pkg-config"),
      ← optional? path? (entries.find? "output-dir"),
      ← defaulted? bool? false (entries.find? "alpha-names"),
      ← defaulted? paths? [] (entries.find? "prerequisites")⟩
  else none

/-- The settings of an array. The first three must be there, and what follows the fifth is not
looked at. -/
def ofItems? : List Value → Option ModuleConfig
  | ir :: pkgConfig :: outputDir :: rest => do
    return ⟨some (← path? ir), some (← text? pkgConfig), some (← path? outputDir),
      ← defaulted? bool? false rest[0]?, ← defaulted? paths? [] rest[1]?⟩
  | _ => none

/-- The settings of a value. -/
def ofToml? : Value → Option ModuleConfig
  | .table _ entries => ofEntries? entries
  | .array _ items => ofItems? items
  | _ => none

end ModuleConfig

namespace Manifest

/-- The manifest of a document. Other keys than `module` are passed over, but their numbers must be
ones that can be told. -/
def ofEntries? (entries : Toml.Entries) : Option Manifest :=
  if entries.all fun e => e.1 = "module" || e.2.isDefinite then
    match entries.find? "module" with
    | none => some ⟨.default⟩
    | some v => (ModuleConfig.ofToml? v).map Manifest.mk
  else none

/-- What is wrong with a manifest, `text` being what it was read from. -/
def fault? (text : String) (m : Manifest) : Option ManifestError :=
  if m.module.pkgConfig? = some "" then
    some (.invalidAt text "pkg-config" "pkg-config name must not be empty")
  else if m.module.outputDir?.map (·.text) = some "" then
    some (.invalidAt text "output-dir" "output directory must not be empty")
  else
    match m.module.ir? with
    | none => none
    | some ir =>
      if m.module.prerequisites.any (·.same ir) then
        some (.invalidAt text "prerequisites"
          ("'" ++ ir.text ++ "' cannot be its own prerequisite"))
      else none

/-- A manifest read from its text. -/
def parse (text : String) : Except ManifestError Manifest :=
  match (Toml.parse text).bind ofEntries? with
  | none => .error .malformed
  | some m =>
    match fault? text m with
    | some e => .error e
    | none => .ok m

end Manifest

end SwiftBindings
