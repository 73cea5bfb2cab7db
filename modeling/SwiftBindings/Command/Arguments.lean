import SwiftBindings.Command.Inputs

/-!
# Arguments

The command line: a command, options and files in any order. An option that takes a value is
followed by it or, after an equals sign or a single letter, holds it. After two dashes everything
is a file.

* `OptionSpec`: what an option looks like and whether it may be repeated.
* `scan`: the options and files of a command.
* `Invocation.parse`: what is asked for.
-/

namespace SwiftBindings

/-- Why a command line is refused. -/
inductive UsageError where
  | unknownOption (name : String)
  | unknownCommand (name : String)
  | missingCommand
  | missingValue (option : String)
  | unexpectedValue (option : String)
  | invalidValue (value : String)
  | repeated (option : String)
  | unexpectedArgument (value : String)
  | missingArgument (name : String)
  deriving DecidableEq, Inhabited

/-- The options of all commands. -/
inductive OptionName where
  | verbose
  | help
  | version
  | outputDir
  | configDir
  | prerequisite
  | generateAll
  | filePerType
  | alphaNames
  | pkgConfigName
  | boilerplate
  | output
  deriving DecidableEq, Inhabited

/-- What an option is followed by. -/
inductive OptionValue where
  | nothing
  /-- Any text. -/
  | text
  /-- A path, which must not be empty. -/
  | path
  deriving DecidableEq, Inhabited

/-- What an option looks like. -/
structure OptionSpec where
  name : OptionName
  short? : Option Char
  long : String
  value : OptionValue
  repeatable : Bool

namespace OptionSpec

/-- The option for a list of names. -/
def verbose : OptionSpec := ⟨.verbose, some 'v', "verbose", .nothing, false⟩

/-- The option for help. -/
def help : OptionSpec := ⟨.help, some 'h', "help", .nothing, false⟩

/-- The option for the version. -/
def version : OptionSpec := ⟨.version, some 'V', "version", .nothing, false⟩

/-- The option for the directory of the manifest. -/
def configDir : OptionSpec := ⟨.configDir, none, "config-dir", .path, false⟩

/-- The option for a description whose names are known. -/
def prerequisite : OptionSpec := ⟨.prerequisite, some 'p', "prerequisite", .path, true⟩

/-- The option for private records. -/
def generateAll : OptionSpec := ⟨.generateAll, some 'a', "generate-all", .nothing, false⟩

/-- The options before a command. -/
def ofProgram : List OptionSpec := [verbose, help, version]

/-- The options of the command that generates. -/
def ofGenerate : List OptionSpec :=
  [verbose, help, ⟨.outputDir, some 'o', "output-dir", .path, false⟩, configDir, prerequisite,
    generateAll, ⟨.filePerType, some 's', "single-file-per-class", .nothing, false⟩,
    ⟨.alphaNames, none, "alpha-names", .nothing, false⟩,
    ⟨.pkgConfigName, none, "pkg-config-name", .text, false⟩,
    ⟨.boilerplate, some 'm', "boilerplate", .path, false⟩]

/-- The options of the command that checks. -/
def ofCheck : List OptionSpec := [verbose, help, configDir, prerequisite, generateAll]

/-- The options of the command that writes completions. -/
def ofCompletions : List OptionSpec :=
  [verbose, help, ⟨.output, some 'o', "output", .path, false⟩]

end OptionSpec

/-- What has been read of a command's arguments: options with their values, and the rest. -/
structure Scanned where
  options : List (OptionName × String)
  rest : List String
  deriving Inhabited

namespace Scanned

/-- Nothing read yet. -/
def empty : Scanned := ⟨[], []⟩

/-- Whether an option is given. -/
def has (s : Scanned) (name : OptionName) : Bool := s.options.any (·.1 = name)

/-- The value of an option. -/
def value? (s : Scanned) (name : OptionName) : Option String :=
  (s.options.find? (·.1 = name)).map (·.2)

/-- The values of an option in order. -/
def values (s : Scanned) (name : OptionName) : List String :=
  (s.options.filter (·.1 = name)).map (·.2)

/-- One more option, if it may be given and its value is right. -/
def add (s : Scanned) (spec : OptionSpec) (value : String) : Except UsageError Scanned :=
  if s.has spec.name ∧ spec.repeatable = false then .error (.repeated spec.long)
  else if spec.value = .path ∧ value = "" then .error (.invalidValue value)
  else .ok { s with options := s.options ++ [(spec.name, value)] }

/-- One more argument that is no option. -/
def addRest (s : Scanned) (value : String) : Scanned := { s with rest := s.rest ++ [value] }

end Scanned

/-- Whether an argument is an option by its look: a dash alone is not. -/
def looksLikeOption (arg : String) : Bool :=
  match arg.toList with
  | '-' :: _ :: _ => true
  | _ => false

/-- How an option of one letter goes on. -/
inductive Letters where
  /-- All letters are read; the last option, if any, waits for its value. -/
  | done (s : Scanned) (waiting? : Option OptionSpec)
  /-- Help or the version is asked for. -/
  | stop (name : OptionName)
  | fail (e : UsageError)

/-- The options of a group of letters. An option that takes a value takes the rest of the group. -/
def scanLetters (specs : List OptionSpec) (s : Scanned) : List Char → Letters
  | [] => .done s none
  | c :: rest =>
    match specs.find? (·.short? = some c) with
    | none => .fail (.unknownOption (String.singleton c))
    | some spec =>
      if spec.name = .help ∨ spec.name = .version then .stop spec.name
      else if spec.value = .nothing then
        match s.add spec "" with
        | .error e => .fail e
        | .ok s => scanLetters specs s rest
      else
        match rest with
        | [] => .done s (some spec)
        | c :: more =>
          match s.add spec (String.ofList (if c = '=' then more else c :: more)) with
          | .error e => .fail e
          | .ok s => .done s none

/-- An option written in full, without its dashes. -/
def scanLong (specs : List OptionSpec) (s : Scanned) (text : List Char) : Letters :=
  let name := text.takeWhile (· ≠ '=')
  match specs.find? (·.long.toList = name), text.drop name.length with
  | none, _ => .fail (.unknownOption (String.ofList name))
  | some spec, [] =>
    if spec.name = .help ∨ spec.name = .version then .stop spec.name
    else if spec.value = .nothing then
      match s.add spec "" with
      | .error e => .fail e
      | .ok s => .done s none
    else .done s (some spec)
  | some spec, _ :: value =>
    if spec.value = .nothing then .fail (.unexpectedValue spec.long)
    else
      match s.add spec (String.ofList value) with
      | .error e => .fail e
      | .ok s => .done s none

/-- An argument that looks like an option. -/
def scanOption (specs : List OptionSpec) (s : Scanned) (arg : String) : Letters :=
  match arg.toList with
  | '-' :: '-' :: text => scanLong specs s text
  | _ :: text => scanLetters specs s text
  | [] => .done s none

/-- Where scanning stopped. -/
inductive ScanEnd where
  /-- All arguments are read. -/
  | done (s : Scanned)
  /-- An argument that is no option is met, where one was to be stopped at. -/
  | word (s : Scanned) (arg : String) (rest : List String)
  /-- Help or the version is asked for. -/
  | stop (name : OptionName)

/-- What to do with an argument that is no option: stop, or accept it if it is right. -/
inductive OnWord where
  | stopAt
  | accept (isRight : Nat → String → Except UsageError Unit)

/-- The arguments of a command from the left. `waiting?` is an option whose value comes next. -/
def scan (specs : List OptionSpec) (onWord : OnWord) (s : Scanned) (waiting? : Option OptionSpec) :
    List String → Except UsageError ScanEnd
  | [] =>
    match waiting? with
    | some spec => .error (.missingValue spec.long)
    | none => .ok (.done s)
  | arg :: rest =>
    match waiting? with
    | some spec =>
      -- an option is never taken for the value of another
      if looksLikeOption arg then .error (.missingValue spec.long)
      else
        match s.add spec arg with
        | .error e => .error e
        | .ok s => scan specs onWord s none rest
    | none =>
      if arg = "--" then scanWords s rest
      else if looksLikeOption arg then
        match scanOption specs s arg with
        | .fail e => .error e
        | .stop name => .ok (.stop name)
        | .done s waiting? => scan specs onWord s waiting? rest
      else
        match onWord with
        | .stopAt => .ok (.word s arg rest)
        | .accept isRight =>
          match isRight s.rest.length arg with
          | .error e => .error e
          | .ok () => scan specs onWord (s.addRest arg) none rest
where
  /-- The arguments after two dashes, none of which is an option. -/
  scanWords (s : Scanned) : List String → Except UsageError ScanEnd
    | [] => .ok (.done s)
    | arg :: rest =>
      match onWord with
      | .stopAt => .error (.unexpectedArgument arg)
      | .accept isRight =>
        match isRight s.rest.length arg with
        | .error e => .error e
        | .ok () => scanWords (s.addRest arg) rest

/-- Shells with completion. -/
inductive Shell where
  | bash
  | elvish
  | fish
  | powershell
  | zsh
  deriving DecidableEq, Inhabited

/-- The shell of a name. -/
def Shell.ofName? (name : String) : Option Shell :=
  match name with
  | "bash" => some .bash
  | "elvish" => some .elvish
  | "fish" => some .fish
  | "powershell" => some .powershell
  | "zsh" => some .zsh
  | _ => none

/-- What a command line asks for. -/
inductive Invocation where
  | generate (inputs : InputArgs) (generateAll filePerType : Bool) (boilerplate? : Option Path)
      (verbose : Bool)
  | check (inputs : InputArgs) (generateAll : Bool)
  | completions (shell : Shell) (output? : Option Path)
  | help
  | version
  deriving Inhabited

namespace Invocation

/-- Files must have a name. -/
def acceptFile (_ : Nat) (arg : String) : Except UsageError Unit :=
  if arg = "" then .error (.invalidValue arg) else .ok ()

/-- One shell is accepted. -/
def acceptShell (count : Nat) (arg : String) : Except UsageError Unit :=
  if 0 < count then .error (.unexpectedArgument arg)
  else if (Shell.ofName? arg).isNone then .error (.invalidValue arg)
  else .ok ()

/-- The inputs that the options of a command give. -/
def inputsOf (s : Scanned) : InputArgs :=
  { configDir := ⟨(s.value? .configDir).getD "."⟩
    ir := s.rest.map Path.mk
    prerequisites := (s.values .prerequisite).map Path.mk
    outputDir? := (s.value? .outputDir).map Path.mk
    pkgConfigName? := s.value? .pkgConfigName
    alphaNames := s.has .alphaNames }

/-- A command read to its end. -/
def ofEnd (build : Scanned → Except UsageError Invocation) :
    Except UsageError ScanEnd → Except UsageError Invocation
  | .error e => .error e
  | .ok (.stop .version) => .ok .version
  | .ok (.stop _) => .ok .help
  | .ok (.word _ arg _) => .error (.unexpectedArgument arg)
  | .ok (.done s) => build s

/-- A command by its name and its arguments. -/
def ofCommand (verbose : Bool) (name : String) (args : List String) :
    Except UsageError Invocation :=
  match name with
  | "generate" =>
    ofEnd (fun s => .ok (.generate (inputsOf s) (s.has .generateAll) (s.has .filePerType)
        ((s.value? .boilerplate).map Path.mk) (verbose || s.has .verbose)))
      (scan OptionSpec.ofGenerate (.accept acceptFile) .empty none args)
  | "check" =>
    ofEnd (fun s => .ok (.check (inputsOf s) (s.has .generateAll)))
      (scan OptionSpec.ofCheck (.accept acceptFile) .empty none args)
  | "completions" =>
    ofEnd (fun s =>
        match s.rest.head?.bind Shell.ofName? with
        | none => .error (.missingArgument "shell")
        | some shell => .ok (.completions shell ((s.value? .output).map Path.mk)))
      (scan OptionSpec.ofCompletions (.accept acceptShell) .empty none args)
  | "help" =>
    match args with
    | [] => .ok .help
    | [topic] =>
      if ["generate", "check", "completions", "help"].contains topic then .ok .help
      else .error (.unknownCommand topic)
    | _ :: topic :: _ => .error (.unknownCommand topic)
  | _ => .error (.unknownCommand name)

/-- What a command line asks for. -/
def parse (args : List String) : Except UsageError Invocation :=
  match scan OptionSpec.ofProgram .stopAt .empty none args with
  | .error e => .error e
  | .ok (.stop .version) => .ok .version
  | .ok (.stop _) => .ok .help
  | .ok (.done _) => .error .missingCommand
  | .ok (.word s name rest) => ofCommand (s.has .verbose) name rest

end Invocation

end SwiftBindings
