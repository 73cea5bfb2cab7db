/-!
# Terminal output

A report is a list of notices. Alerts go to the error stream; the rest goes to the output
stream, or to the error stream as well when the output stream carries code.

* `Printed.of`: the two streams of a report.
-/

namespace SwiftBindings

/-- A part of a report. -/
inductive Notice where
  | plain (text : String)
  | alert (text : String)
  deriving DecidableEq, Inhabited

namespace Notice

/-- One line. -/
def line (text : String) : Notice := .plain (text ++ "\n")

/-- A heading. -/
def heading (name : String) : Notice := line (name ++ ":")

/-- A value under its name. -/
def value (key text : String) : Notice := line (key ++ ": " ++ text)

/-- A value that belongs to the line above it. -/
def detail (key text : String) : Notice := line ("  " ++ key ++ ": " ++ text)

/-- An item of a list. -/
def item (text : String) : Notice := line ("  - " ++ text)

/-- A warning. -/
def warning (text : String) : Notice := .alert ("warning: " ++ text ++ "\n")

/-- An error. -/
def error (text : String) : Notice := .alert ("error: " ++ text ++ "\n")

/-- The text of a notice. -/
def text : Notice → String
  | .plain text => text
  | .alert text => text

/-- Whether a notice is an alert. -/
def isAlert : Notice → Bool
  | .plain _ => false
  | .alert _ => true

end Notice

/-- What has been printed on the two streams. -/
structure Printed where
  stdout : String
  stderr : String
  deriving DecidableEq, Inhabited

/-- The streams of a report. With `keepStdout` nothing goes to the output stream. -/
def Printed.of (keepStdout : Bool) (notices : List Notice) : Printed :=
  let onStderr := fun p : Notice => keepStdout || p.isAlert
  { stdout := String.join ((notices.filter fun p => !onStderr p).map Notice.text)
    stderr := String.join ((notices.filter onStderr).map Notice.text) }

end SwiftBindings
