import SwiftBindings.Command.Arguments

/-!
# Completion scripts

A script that lets a shell complete the names of the commands.

* `Shell.script`: the script of a shell.
-/

namespace SwiftBindings

/-- The names of the commands. -/
def commandNames : List String := ["generate", "check", "completions", "help"]

/-- The script of a shell. -/
def Shell.script (shell : Shell) : String :=
  let names := " ".intercalate commandNames
  match shell with
  | .bash => "complete -W \"" ++ names ++ "\" girgen\n"
  | .fish => "complete -c girgen -f -a \"" ++ names ++ "\"\n"
  | .zsh => "#compdef girgen\ncompadd " ++ names ++ "\n"
  | .elvish => "set edit:completion:arg-completer[girgen] = \x7b|@args| put " ++ names ++ " \x7d\n"
  | .powershell =>
    "Register-ArgumentCompleter -Native -CommandName girgen -ScriptBlock \x7b '" ++
      "' '".intercalate commandNames ++ "' \x7d\n"

end SwiftBindings
