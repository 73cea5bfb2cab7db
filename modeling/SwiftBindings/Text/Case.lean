import SwiftBindings.Text.CaseTable

/-!
# Case mapping

Full case mapping of Unicode: a character maps to one or more characters, and a text to lower case
with the one rule that depends on context, the sigma that ends a word.

* `upper_ascii`, `lower_ascii`: on ASCII both mappings are those of core.
-/

namespace SwiftBindings.Text

/-- The code point that a table of runs maps a code point to. -/
def mapRun (runs : List CaseRun) (n : Nat) : Nat :=
  match runs.find? (·.covers n) with
  | some run => (n + run.shift).toNat
  | none => n

/-- The upper case of a character. -/
def upper (c : Char) : List Char :=
  if c.toNat < 0x80 then [c.toUpper]
  else
    match capitalSequences.lookup c.toNat with
    | some sequence => sequence.map Char.ofNat
    | none => [Char.ofNat (mapRun capitalRuns c.toNat)]

/-- The lower case of a character on its own. The capital dotted I alone has two characters. -/
def lower (c : Char) : List Char :=
  if c.toNat < 0x80 then [c.toLower]
  else if c.toNat = 0x130 then [Char.ofNat 0x69, Char.ofNat 0x307]
  else [Char.ofNat (mapRun smallRuns c.toNat)]

theorem upper_ascii {c : Char} (h : c.toNat < 0x80) : upper c = [c.toUpper] := if_pos h

theorem lower_ascii {c : Char} (h : c.toNat < 0x80) : lower c = [c.toLower] := if_pos h

/-- Whether a list of runs of code points holds a character. -/
def inRuns (runs : List (Nat × Nat)) (c : Char) : Bool :=
  runs.any fun run => run.1 ≤ c.toNat && c.toNat ≤ run.2

/-- Whether the first character that is not skipped has a case. -/
def reachesCased (s : List Char) : Bool :=
  match s.dropWhile (inRuns transparentRuns) with
  | [] => false
  | c :: _ => inRuns casedRuns c

/-- A text in lower case, `before` being what precedes it, nearest character first. A capital
sigma that follows a cased letter and precedes none is the final one. -/
def lowercaseAfter (before : List Char) : List Char → List Char
  | [] => []
  | c :: rest =>
    (if c = 'Σ' then [if reachesCased before && !reachesCased rest then 'ς' else 'σ']
      else lower c) ++ lowercaseAfter (c :: before) rest

/-- A string in lower case. -/
def lowercase (s : String) : String := String.ofList (lowercaseAfter [] s.toList)

end SwiftBindings.Text
