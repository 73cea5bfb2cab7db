import SwiftBindings.Report.Terminal
import SwiftBindings.Run.Result

/-!
# Reports of generation

What is told of the modules that were generated: their warnings and errors, and for those written
to files how many files and declarations there are.

* `ModuleSummary.ofResult`: the summary of a run.
* `GenerationReport.notices`: the report as it is printed.
-/

namespace SwiftBindings

/-- What is told of one module. -/
structure ModuleSummary where
  moduleName : String
  pkgConfigName : String
  outputDir? : Option Path
  /-- The number of written files. -/
  files : Nat
  /-- The number of declarations with code. -/
  generated : Nat
  blacklisted : Nat
  elided : List String
  warnings : List String
  errors : List String
  names? : Option NameReport
  deriving Inhabited

namespace ModuleSummary

/-- The summary of a run. -/
def ofResult (r : RunResult) : ModuleSummary :=
  { moduleName := r.moduleName
    pkgConfigName := r.pkgConfigName
    outputDir? := r.outputDir?
    files := r.files.length
    generated := r.stats.total
    blacklisted := r.stats.blacklisted
    elided := r.stats.elided
    warnings := r.warnings.map Diagnostic.describe
    errors := r.errors.map Diagnostic.describe
    names? := r.report? }

/-- What is told of the files of a module. -/
def fileNotices (s : ModuleSummary) : List Notice :=
  match s.outputDir? with
  | none => []
  | some dir =>
    [.value s.moduleName (toString s.generated ++ " declarations in " ++ toString s.files ++
        " files under " ++ dir.text),
      .detail "pkg-config" s.pkgConfigName] ++
    (if 0 < s.blacklisted then [.detail "blacklisted" (toString s.blacklisted)] else []) ++
    (if s.elided.isEmpty then [] else [.detail "elided" (", ".intercalate s.elided)])

/-- What is told of a module. -/
def notices (s : ModuleSummary) : List Notice :=
  s.warnings.map Notice.warning ++ s.errors.map Notice.error ++ s.fileNotices ++
    (s.names?.map fun names => Notice.plain names.text).toList

end ModuleSummary

/-- What is told of all modules. -/
structure GenerationReport where
  modules : List ModuleSummary
  deriving Inhabited

namespace GenerationReport

/-- The number of errors. -/
def errorCount (r : GenerationReport) : Nat := (r.modules.map (·.errors.length)).foldr (· + ·) 0

/-- The report as it is printed. -/
def notices (r : GenerationReport) : List Notice := r.modules.flatMap ModuleSummary.notices

end GenerationReport

end SwiftBindings
