import SwiftBindings.Manifest.File
import SwiftBindings.Module.Decode
import SwiftBindings.Registry
import SwiftBindings.Run.Options

/-!
# Inputs

What a command works on: the command line and the manifest put together. The command line wins;
lists of files are put one after the other.

* `Inputs.resolve`: the inputs of a command.
* `Inputs.runOptions`: the options of a run over one of the modules.
* `loadModule`, `loadRegistry`: modules read from their files.
-/

namespace SwiftBindings

/-- What the command line gives. -/
structure InputArgs where
  configDir : Path
  ir : List Path
  prerequisites : List Path
  outputDir? : Option Path
  pkgConfigName? : Option String
  alphaNames : Bool
  deriving Inhabited

/-- What a command works on. -/
structure Inputs where
  /-- The directory of the manifest and the side files. -/
  configDir : Path
  /-- The descriptions of the modules to generate. -/
  irFiles : List Path
  /-- The descriptions whose names are known. -/
  prerequisites : List Path
  outputDir? : Option Path
  pkgConfigName? : Option String
  alphaNames : Bool
  deriving Inhabited

/-- Paths with more paths added, each unless an equal one is there. -/
def extendUnique (paths more : List Path) : List Path :=
  more.foldl (fun paths p => if paths.any p.same then paths else paths ++ [p]) paths

namespace Inputs

/-- The command line and the manifest put together. Paths of the manifest are relative to the
configuration directory. -/
def resolve (args : InputArgs) (manifest? : Option Manifest) : Inputs :=
  let config := (manifest?.map (·.module)).getD .default
  { configDir := args.configDir
    irFiles := extendUnique (config.ir?.map args.configDir.join).toList args.ir
    prerequisites :=
      extendUnique (config.prerequisites.map args.configDir.join) args.prerequisites
    outputDir? := args.outputDir?.or (config.outputDir?.map args.configDir.join)
    pkgConfigName? := args.pkgConfigName?.or config.pkgConfig?
    alphaNames := args.alphaNames || config.alphaNames }

/-- The options of a run over one module. -/
def runOptions (i : Inputs) (ir : Path) : RunOptions :=
  { RunOptions.ofModule ir.moduleName with
    configDir := i.configDir
    outputDir? := i.outputDir?
    pkgConfigName? := i.pkgConfigName?
    alphaNames := i.alphaNames }

end Inputs

/-- Why the description of a module cannot be loaded. -/
inductive LoadError where
  | unreadable (path : Path)
  | invalid (path : Path)
  deriving DecidableEq, Inhabited

/-- What is told of a description that cannot be loaded. -/
def LoadError.message : LoadError → String
  | .unreadable path => "Failed to read " ++ path.text
  | .invalid path => "Invalid IR in " ++ path.text

/-- The module of a description. -/
def loadModule (store : FileStore) (path : Path) : Except LoadError Module :=
  match store.readText path with
  | .error _ => .error (.unreadable path)
  | .ok text =>
    match Module.parse? text with
    | none => .error (.invalid path)
    | some m => .ok m

/-- A registry with the modules of descriptions. -/
def loadRegistryInto (store : FileStore) (r : Registry) : List Path → Except LoadError Registry
  | [] => .ok r
  | path :: rest =>
    match loadModule store path with
    | .error e => .error e
    | .ok m => loadRegistryInto store (r.preload m) rest

/-- The registry of the modules of descriptions. -/
def loadRegistry (store : FileStore) (paths : List Path) : Except LoadError Registry :=
  loadRegistryInto store .empty paths

end SwiftBindings
