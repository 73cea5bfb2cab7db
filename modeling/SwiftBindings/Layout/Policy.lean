import SwiftBindings.Layout.Bucket
import SwiftBindings.Path.Basic

/-!
# Output policies

Swift code is put into one text, or into the files of a directory, where types are spread over
files in one of three ways.

* `OutputPolicy.select`: the policy of a run; buckets win over one file per type.
* `FileNames`: the files of a module.
-/

namespace SwiftBindings

/-- How types are spread over files. -/
inductive TypeSplit where
  /-- One file for each run of types whose names start with the same character. -/
  | groupedRuns
  /-- One file for each type. -/
  | filePerType
  /-- One file for each bucket. -/
  | alphaBuckets
  deriving DecidableEq, Inhabited

/-- Where the Swift code of a run goes. -/
inductive OutputPolicy where
  | unified
  | files (dir : Path) (split : TypeSplit)
  deriving DecidableEq, Inhabited

namespace OutputPolicy

/-- The policy of a run. -/
def select (outputDir? : Option Path) (alphaNames filePerType : Bool) : OutputPolicy :=
  match outputDir? with
  | none => .unified
  | some dir =>
    .files dir (if alphaNames then .alphaBuckets else if filePerType then .filePerType
      else .groupedRuns)

/-- The directory of a policy that writes files. -/
def outputDir? : OutputPolicy → Option Path
  | .unified => none
  | .files dir _ => some dir

/-- Whether types are spread over buckets. -/
def usesBuckets : OutputPolicy → Bool
  | .files _ .alphaBuckets => true
  | _ => false

/-- A run has an output directory exactly if it is given one. -/
theorem outputDir?_select (outputDir? : Option Path) (alphaNames filePerType : Bool) :
    (select outputDir? alphaNames filePerType).outputDir? = outputDir? := by
  cases outputDir? <;> rfl

end OutputPolicy

/-- The names of a module's Swift files in a directory. -/
structure FileNames where
  dir : Path
  moduleName : String
  deriving DecidableEq, Inhabited

namespace FileNames

/-- The file of the module itself. -/
def moduleFile (n : FileNames) : Path := n.dir.join ⟨n.moduleName ++ ".swift"⟩

/-- The file of a part of the module. -/
def partFile (n : FileNames) (part : String) : Path :=
  n.dir.join ⟨n.moduleName ++ "-" ++ part ++ ".swift"⟩

/-- The file of a bucket. -/
def bucketFile (n : FileNames) (b : Bucket) : Path := n.partFile (String.singleton b.marker)

end FileNames

end SwiftBindings
