import SwiftBindings.Layout.Policy
import SwiftBindings.Text.Case

/-!
# Options of a run

What one run is told: the module, where its side files are, where its code goes and how much of it
is wanted.

* `RunOptions.policy`: the output policy.
* `RunOptions.resolvedPkgConfigName`: the name that the C library is linked by.
-/

namespace SwiftBindings

/-- What one run is told. -/
structure RunOptions where
  moduleName : String
  /-- The directory of the side files. -/
  configDir : Path
  /-- The directory of the Swift files; without one the code is one text. -/
  outputDir? : Option Path
  /-- Whether private records are wanted too. -/
  generateAll : Bool
  /-- Whether types are spread over buckets. -/
  alphaNames : Bool
  /-- Whether each type has a file. -/
  filePerType : Bool
  /-- Text before the module's own boilerplate. -/
  boilerplate : String
  pkgConfigName? : Option String
  /-- Whether a report of names is wanted. -/
  verbose : Bool
  deriving Inhabited

namespace RunOptions

/-- The options of a module whose side files are in the working directory. -/
def ofModule (moduleName : String) : RunOptions :=
  ⟨moduleName, ⟨"."⟩, none, false, false, false, "", none, false⟩

/-- The output policy of a run. -/
def policy (o : RunOptions) : OutputPolicy := .select o.outputDir? o.alphaNames o.filePerType

/-- The name that the C library is linked by: the given one, or the module's in small letters. -/
def resolvedPkgConfigName (o : RunOptions) : String :=
  o.pkgConfigName?.getD (Text.lowercase o.moduleName)

end RunOptions

end SwiftBindings
