import SwiftBindings.Path.Basic

/-!
# Diagnostics

Nothing that goes wrong in a run stops it. It is told in a diagnostic: how grave it is, at which
stage it happened, what it was and at which file.

* `Diagnostic.display`: one line of a log.
* `Diagnostic.describe`: the text of a report.
-/

namespace SwiftBindings

/-- How grave a diagnostic is. -/
inductive Severity where
  | error
  | warning
  | info
  deriving DecidableEq, Inhabited

/-- The name of a severity. -/
def Severity.name : Severity → String
  | .error => "error"
  | .warning => "warning"
  | .info => "info"

/-- A stage of a run. -/
inductive Stage where
  | configure
  | generate
  | write
  | postProcess
  deriving DecidableEq, Inhabited

/-- The name of a stage. -/
def Stage.name : Stage → String
  | .configure => "configure"
  | .generate => "generate"
  | .write => "write"
  | .postProcess => "post-process"

/-- Something that a run has to tell. -/
structure Diagnostic where
  severity : Severity
  stage : Stage
  message : String
  location? : Option Path
  deriving DecidableEq, Inhabited

namespace Diagnostic

/-- An error without a file. -/
def error (stage : Stage) (message : String) : Diagnostic := ⟨.error, stage, message, none⟩

/-- A warning without a file. -/
def warning (stage : Stage) (message : String) : Diagnostic := ⟨.warning, stage, message, none⟩

/-- A diagnostic at a file. -/
def located (d : Diagnostic) (path : Path) : Diagnostic := { d with location? := some path }

/-- Whether a diagnostic is an error. -/
def isError (d : Diagnostic) : Bool := d.severity = .error

/-- Whether a diagnostic is a warning. -/
def isWarning (d : Diagnostic) : Bool := d.severity = .warning

/-- A diagnostic in one line. -/
def display (d : Diagnostic) : String :=
  let told := d.severity.name ++ " [" ++ d.stage.name ++ "]: " ++ d.message
  match d.location? with
  | some path => told ++ " (at " ++ path.text ++ ")"
  | none => told

/-- A diagnostic in a report: its message and its file, or its stage if it has none. -/
def describe (d : Diagnostic) : String :=
  match d.location? with
  | some path => d.message ++ "\n  --> " ++ path.text
  | none => d.message ++ " (" ++ d.stage.name ++ ")"

end Diagnostic

end SwiftBindings
