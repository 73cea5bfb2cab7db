import SwiftBindings.Diagnostic
import SwiftBindings.Module.Category
import SwiftBindings.Path.Order
import SwiftBindings.Run.NameReport

/-!
# Results of a run

What a run has made and told. Steps after the run see the result, and a step that fails adds an
error to it.

* `RunResult.fileNames`: the written files as seen from the output directory.
* `RunResult.afterSteps`: the result once all steps have been taken.
-/

namespace SwiftBindings

/-- Counts of a run. -/
structure RunStats where
  /-- The number of declarations with code, by category. -/
  generated : List (Category × Nat)
  blacklisted : Nat
  elided : List String
  deriving Inhabited

namespace RunStats

/-- The number of declarations with code. -/
def total (s : RunStats) : Nat := (s.generated.map (·.2)).foldr (· + ·) 0

/-- The number of declarations of a category with code. -/
def generatedIn (s : RunStats) (c : Category) : Nat :=
  ((s.generated.find? (·.1 = c)).map (·.2)).getD 0

end RunStats

/-- What a run has made and told. -/
structure RunResult where
  moduleName : String
  pkgConfigName : String
  /-- The code, if it is not written to files. -/
  unified : String
  outputDir? : Option Path
  files : PathSet
  diagnostics : List Diagnostic
  stats : RunStats
  report? : Option NameReport
  deriving Inhabited

namespace RunResult

/-- Whether anything failed. -/
def hasErrors (r : RunResult) : Bool := r.diagnostics.any (·.isError)

/-- The warnings of a run. -/
def warnings (r : RunResult) : List Diagnostic := r.diagnostics.filter (·.isWarning)

/-- The errors of a run. -/
def errors (r : RunResult) : List Diagnostic := r.diagnostics.filter (·.isError)

/-- The written files, named from the output directory if they are in it. -/
def fileNames (r : RunResult) : List String :=
  r.files.map fun p => ((r.outputDir?.bind p.stripPrefix?).getD p).text

end RunResult

/-- A step after a run. If it fails, it gives the reasons, outermost first. -/
structure PostStep where
  name : String
  run : RunResult → Option (List String)

namespace RunResult

/-- The result once a step has been taken. -/
def afterStep (r : RunResult) (step : PostStep) : RunResult :=
  match step.run r with
  | none => r
  | some reasons =>
    { r with
      diagnostics := r.diagnostics ++
        [.error .postProcess (": ".intercalate (step.name :: reasons))] }

/-- The result once all steps have been taken in order. -/
def afterSteps (r : RunResult) (steps : List PostStep) : RunResult := steps.foldl afterStep r

end RunResult

end SwiftBindings
