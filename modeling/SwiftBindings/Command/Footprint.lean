import SwiftBindings.Command.Program

/-!
# Footprints

Which files a command line may look at. What it looks for beyond the manifest depends on the
manifest, so the footprint is found in two steps.

* `Invocation.manifest?`: the manifest that is looked for first.
* `Invocation.files`, `Invocation.directories`: what is looked for once the manifest is known.
-/

namespace SwiftBindings

/-- The files that inputs are read from. -/
def Inputs.files (i : Inputs) : List Path :=
  i.irFiles ++ i.prerequisites ++
    i.irFiles.flatMap fun ir => SideFile.all.map fun f => f.path i.configDir ir.moduleName

namespace Invocation

/-- What the command line gives to a command that has inputs. -/
def inputArgs? : Invocation → Option InputArgs
  | .generate args _ _ _ _ => some args
  | .check args _ => some args
  | .completions _ _ | .help | .version => none

/-- The manifest that is looked for. -/
def manifest? (i : Invocation) : Option Path :=
  i.inputArgs?.map fun args => args.configDir.join manifestFile

/-- The inputs of an invocation, if it has any and the manifest has no fault. -/
def inputs? (store : FileStore) (i : Invocation) : Option Inputs :=
  match i.inputArgs? with
  | none => none
  | some args =>
    match ManifestFile.find store args.configDir with
    | .error _ => none
    | .ok file? => some (Inputs.resolve args (file?.map (·.manifest)))

/-- The files that an invocation names beside its inputs. -/
def ownFiles : Invocation → List Path
  | .generate _ _ _ boilerplate? _ => boilerplate?.toList
  | .completions _ output? => output?.toList
  | .check _ _ | .help | .version => []

/-- The files that are looked for, the manifest being in the store. -/
def files (store : FileStore) (i : Invocation) : List Path :=
  ((i.inputs? store).map Inputs.files).getD [] ++ i.ownFiles

/-- The directories that are written to, the manifest being in the store. -/
def directories (store : FileStore) (i : Invocation) : List Path :=
  ((i.inputs? store).bind (·.outputDir?)).toList

end Invocation

end SwiftBindings
