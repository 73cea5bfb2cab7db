import SwiftBindings.Command.Inputs
import SwiftBindings.Report.Generation
import SwiftBindings.Run.Basic
import SwiftBindings.Swift.Skeleton

/-!
# Generating

Skeletons are generated for one description after the other, each with what the prerequisites make
known. Code that goes to no file is printed.

* `generateModule`: the run over one module.
* `generate`: the runs over all inputs; those before a description that cannot be loaded stand.
-/

namespace SwiftBindings

/-- What is wanted of a generation, beside its inputs. -/
structure GenerateOptions where
  generateAll : Bool
  filePerType : Bool
  boilerplate : String
  verbose : Bool
  deriving Inhabited

/-- What a generation leaves: its report, or why it stopped, with what it printed and the files. -/
structure Generation where
  report : Except LoadError GenerationReport
  printed : String
  store : FileStore

/-- The code of a run as it is printed: with a line feed at its end, unless there is no code. -/
def printedCode (r : RunResult) : String :=
  if r.unified = "" then ""
  else if r.unified.toList.getLast? = some '\n' then r.unified
  else r.unified ++ "\n"

/-- The options of a run over one description. -/
def GenerateOptions.runOptions (o : GenerateOptions) (inputs : Inputs) (ir : Path) : RunOptions :=
  { inputs.runOptions ir with
    generateAll := o.generateAll
    filePerType := o.filePerType
    boilerplate := o.boilerplate
    verbose := o.verbose }

/-- The run over one module. -/
def generateModule (store : FileStore) (known : Registry) (m : Module) (o : RunOptions) :
    RunResult × FileStore :=
  run (fun ctx d => some (Swift.skeleton ctx d)) [] store known m o

/-- The runs over descriptions, one after the other. -/
def generateFiles (inputs : Inputs) (o : GenerateOptions) (known : Registry) (store : FileStore) :
    List Path → Generation
  | [] => ⟨.ok ⟨[]⟩, "", store⟩
  | ir :: rest =>
    match loadModule store ir with
    | .error e => ⟨.error e, "", store⟩
    | .ok m =>
      -- each module starts from what the prerequisites alone make known
      let (result, store) := generateModule store known m (o.runOptions inputs ir)
      let more := generateFiles inputs o known store rest
      { report := match more.report with
          | .error e => .error e
          | .ok report => .ok ⟨.ofResult result :: report.modules⟩
        printed := printedCode result ++ more.printed
        store := more.store }

/-- The runs over all inputs. -/
def generate (store : FileStore) (inputs : Inputs) (o : GenerateOptions) : Generation :=
  match loadRegistry store inputs.prerequisites with
  | .error e => ⟨.error e, "", store⟩
  | .ok known => generateFiles inputs o known store inputs.irFiles

end SwiftBindings
