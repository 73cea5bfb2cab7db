import SwiftBindings.Command.Check
import SwiftBindings.Command.Completion
import SwiftBindings.Command.Generate

/-!
# The program

A command line is carried out over a file store. The answer holds the exit code, what is printed and
the files after it.

* `CommandError.message`: what is told of a command that fails.
* `perform`: what an invocation does.
* `respond`: the answer to a command line.
-/

namespace SwiftBindings

/-- Why a command fails. -/
inductive CommandError where
  | manifest (e : ManifestError)
  | load (e : LoadError)
  | noInputs
  | boilerplate (path : Path)
  | output (path : Path)
  | errors (count : Nat)
  deriving DecidableEq, Inhabited

/-- What is told of a command that fails. -/
def CommandError.message : CommandError → String
  | .manifest e => e.message
  | .load e => e.message
  | .noInputs => "No IR files given and none configured in girgen.toml"
  | .boilerplate path => "Failed to read boilerplate " ++ path.text
  | .output path => "Failed to create " ++ path.text
  | .errors 1 => "Generation finished with 1 error"
  | .errors n => "Generation finished with " ++ toString n ++ " errors"

/-- The answer to a command line. -/
structure Response where
  /-- Zero for success, one for a failed command, two for a refused command line. -/
  exit : Nat
  stdout : String
  stderr : String
  /-- Why the command failed. -/
  error? : Option CommandError
  store : FileStore

/-- The name and version of the program. -/
def versionLine : String := "girgen 0.1.0\n"

/-- How the program is called. -/
def usage : String :=
  "Generate Swift bindings from GObject introspection IR\n\n" ++
  "Usage: girgen [OPTIONS] <COMMAND>\n\n" ++
  "Commands:\n" ++
  "  generate     Generate code for one or more IR files\n" ++
  "  check        Resolve side files and the manifest without generating code\n" ++
  "  completions  Generate shell completions\n" ++
  "  help         Print this message\n\n" ++
  "Options:\n" ++
  "  -v, --verbose  Report verbatim and blacklisted names\n" ++
  "  -h, --help     Print help\n" ++
  "  -V, --version  Print version\n"

namespace Response

/-- A command that has done its work. -/
def success (store : FileStore) (printed : Printed) : Response :=
  ⟨0, printed.stdout, printed.stderr, none, store⟩

/-- A command that has failed, after what it printed. -/
def failure (store : FileStore) (printed : Printed) (e : CommandError) : Response :=
  ⟨1, printed.stdout, printed.stderr, some e, store⟩

/-- A refused command line. -/
def refusal (store : FileStore) : Response := ⟨2, "", usage, none, store⟩

end Response

/-- The text before every module that a file gives. -/
def readBoilerplate (store : FileStore) : Option Path → Except CommandError String
  | none => .ok ""
  | some path =>
    match store.readText path with
    | .error _ => .error (.boilerplate path)
    | .ok text => .ok text

/-- A generation. -/
def performGenerate (store : FileStore) (args : InputArgs) (generateAll filePerType : Bool)
    (boilerplate? : Option Path) (verbose : Bool) : Response :=
  match ManifestFile.find store args.configDir with
  | .error e => .failure store ⟨"", ""⟩ (.manifest e)
  | .ok file? =>
    let inputs := Inputs.resolve args (file?.map (·.manifest))
    if inputs.irFiles.isEmpty then .failure store ⟨"", ""⟩ .noInputs
    else
      match readBoilerplate store boilerplate? with
      | .error e => .failure store ⟨"", ""⟩ e
      | .ok boilerplate =>
        let done := generate store inputs ⟨generateAll, filePerType, boilerplate, verbose⟩
        match done.report with
        | .error e => .failure done.store ⟨done.printed, ""⟩ (.load e)
        | .ok report =>
          let printed := Printed.of true report.notices
          let printed := { printed with stdout := done.printed ++ printed.stdout }
          if report.errorCount = 0 then .success done.store printed
          else .failure done.store printed (.errors report.errorCount)

/-- A check. -/
def performCheck (store : FileStore) (args : InputArgs) (generateAll : Bool) : Response :=
  match ManifestFile.find store args.configDir with
  | .error e => .failure store ⟨"", ""⟩ (.manifest e)
  | .ok file? =>
    let inputs := Inputs.resolve args (file?.map (·.manifest))
    match check store inputs (file?.map (·.path)) generateAll with
    | .error e => .failure store ⟨"", ""⟩ (.load e)
    | .ok report =>
      let done := Response.success store (.of false report.notices)
      if report.isValid then done else { done with exit := 1 }

/-- A completion script printed, or written to a file. -/
def performCompletions (store : FileStore) (shell : Shell) (output? : Option Path) : Response :=
  match output? with
  | none => .success store ⟨shell.script, ""⟩
  | some path =>
    match store.writeBytes path shell.script.toUTF8 with
    | .error _ => .failure store ⟨"", ""⟩ (.output path)
    | .ok store => .success store ⟨"", ""⟩

/-- What an invocation does. -/
def perform (store : FileStore) : Invocation → Response
  | .generate args generateAll filePerType boilerplate? verbose =>
    performGenerate store args generateAll filePerType boilerplate? verbose
  | .check args generateAll => performCheck store args generateAll
  | .completions shell output? => performCompletions store shell output?
  | .help => .success store ⟨usage, ""⟩
  | .version => .success store ⟨versionLine, ""⟩

/-- The answer to a command line. -/
def respond (store : FileStore) (args : List String) : Response :=
  match Invocation.parse args with
  | .error _ => .refusal store
  | .ok invocation => perform store invocation

end SwiftBindings
