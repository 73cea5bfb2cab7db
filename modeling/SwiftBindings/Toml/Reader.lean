import SwiftBindings.Toml.Scalar
import SwiftBindings.Toml.Text

/-!
# Reading TOML

A document is a list of lines: headers, which open tables, and keys with values, which are set in
the table opened last.

* `readKey`, `readValue`: a dotted key and a value.
* `parse`: the table of a whole document.
-/

namespace SwiftBindings.Toml

/-- Characters after the blanks within a line. -/
def skipBlanks (cs : List Char) : List Char := cs.dropWhile fun c => c = ' ' || c = '\t'

/-- Characters after a comment, if there is one and it is well-formed. -/
def skipComment (cs : List Char) : Option (List Char) :=
  match cs with
  | '#' :: rest =>
    let line := rest.takeWhile (· ≠ '\n')
    let after := rest.drop line.length
    let body := if line.getLast? = some '\r' ∧ after ≠ [] then line.dropLast else line
    if body.all isPlain then some (rest.drop body.length) else none
  | _ => some cs

/-- Characters after blanks, comments and line ends. -/
def skipGaps : Nat → List Char → Option (List Char)
  | 0, _ => none
  | steps + 1, cs =>
    match skipComment (skipBlanks cs) with
    | none => none
    | some ('\n' :: rest) => skipGaps steps rest
    | some ('\r' :: '\n' :: rest) => skipGaps steps rest
    | some rest => some rest

/-- Characters after the end of a line, which may hold a comment. -/
def endLine (cs : List Char) : Option (List Char) :=
  match skipComment (skipBlanks cs) with
  | some [] => some []
  | some ('\n' :: rest) => some rest
  | some ('\r' :: '\n' :: rest) => some rest
  | _ => none

/-- Whether a character may stand in a key without quotes. -/
def isBare (c : Char) : Bool :=
  ('a' ≤ c && c ≤ 'z') || ('A' ≤ c && c ≤ 'Z') || Text.isDigit c || c = '-' || c = '_'

/-- One part of a key. -/
def readKeyPart (cs : List Char) : Option (String × List Char) :=
  match cs with
  | '"' :: rest => readBasic rest
  | '\'' :: rest => readLiteral rest
  | _ =>
    let name := cs.takeWhile isBare
    if name.isEmpty then none else some (String.ofList name, cs.drop name.length)

/-- The parts of a key, with dots between them and blanks around these. -/
def readKeyParts : Nat → List Char → Option (List String × List Char)
  | 0, _ => none
  | steps + 1, cs =>
    match readKeyPart (skipBlanks cs) with
    | none => none
    | some (part, rest) =>
      match skipBlanks rest with
      | '.' :: rest => (readKeyParts steps rest).map fun (parts, rest) => (part :: parts, rest)
      | rest => some ([part], rest)

/-- How deep arrays and inline tables may be nested, and how many parts a key may have. -/
def maxDepth : Nat := 80

/-- A key and what follows the blanks after it. -/
def readKey (steps : Nat) (cs : List Char) : Option (List String × List Char) :=
  match readKeyParts steps cs with
  | some (parts, rest) => if parts.length ≤ maxDepth then some (parts, rest) else none
  | none => none

/-- Whether a character may stand in a word: a number, a date or a truth value. A word goes on up to
the next blank, line end, comment or mark of the language, whatever it is made of. -/
def isWordChar (c : Char) : Bool := !" \t\r\n#=,[]\x7b\x7d".toList.contains c

/-- A word. A date and a time may have a space between them. -/
def readWord (cs : List Char) : Option (Value × List Char) :=
  let word := cs.takeWhile isWordChar
  let rest := cs.drop word.length
  match rest with
  | ' ' :: c :: more =>
    if Text.isDigit c ∧ afterDate? word = some [] then
      let time := (c :: more).takeWhile isWordChar
      (scalar? (word ++ ' ' :: time)).map fun v => (v, (c :: more).drop time.length)
    else (scalar? word).map fun v => (v, rest)
  | _ => (scalar? word).map fun v => (v, rest)

mutual

/-- A value. The first argument bounds the number of steps, the second the nesting. -/
def readValue : Nat → Nat → List Char → Option (Value × List Char)
  | 0, _, _ => none
  | steps + 1, depth, cs =>
    match cs with
    | '[' :: rest =>
      match depth with
      | 0 => none
      | depth + 1 =>
        (readItems steps depth rest).map fun (items, rest) => (.array false items, rest)
    | '\x7b' :: rest =>
      match depth with
      | 0 => none
      | depth + 1 =>
        (readInline steps depth [] rest).map fun (entries, rest) => (.table .inline entries, rest)
    | '"' :: _ => (readString cs).map fun (s, rest) => (.string s, rest)
    | '\'' :: _ => (readString cs).map fun (s, rest) => (.string s, rest)
    | _ => readWord cs

/-- The items of an array up to its closing bracket. -/
def readItems : Nat → Nat → List Char → Option (List Value × List Char)
  | 0, _, _ => none
  | steps + 1, depth, cs =>
    match skipGaps (steps + 1) cs with
    | none => none
    | some (']' :: rest) => some ([], rest)
    | some cs =>
      match readValue steps depth cs with
      | none => none
      | some (v, rest) =>
        match skipGaps (steps + 1) rest with
        | some (',' :: rest) =>
          (readItems steps depth rest).map fun (items, rest) => (v :: items, rest)
        | some (']' :: rest) => some ([v], rest)
        | _ => none

/-- The entries of an inline table up to its closing brace, after those that are given. Comments and
line ends may stand around the equals sign as around the comma. -/
def readInline : Nat → Nat → Entries → List Char → Option (Entries × List Char)
  | 0, _, _, _ => none
  | steps + 1, depth, entries, cs =>
    match skipGaps (steps + 1) cs with
    | none => none
    | some ('\x7d' :: rest) => some (entries, rest)
    | some cs =>
      match readKey (steps + 1) cs with
      | none => none
      | some (key, rest) =>
        match skipGaps (steps + 1) rest with
        | some ('=' :: rest) =>
          match (skipGaps (steps + 1) rest).bind (readValue steps depth) with
          | none => none
          | some (v, rest) =>
            match entries.assign? key v with
            | none => none
            | some entries =>
              match skipGaps (steps + 1) rest with
              | some (',' :: rest) => readInline steps depth entries rest
              | some ('\x7d' :: rest) => some (entries, rest)
              | _ => none
        | _ => none

end

/-- What a line of a document says. -/
inductive Line where
  /-- Opens a table. -/
  | table (path : List String)
  /-- Opens an item of an array of tables. -/
  | item (path : List String)
  /-- Sets a key in the table opened last. -/
  | entry (key : List String) (v : Value)
  /-- Says nothing. -/
  | blank

/-- A line of a document. -/
def readLine (steps : Nat) (cs : List Char) : Option (Line × List Char) :=
  match skipBlanks cs with
  | '[' :: '[' :: rest =>
    match readKey steps rest with
    | some (path, ']' :: ']' :: rest) => (endLine rest).map fun rest => (.item path, rest)
    | _ => none
  | '[' :: rest =>
    match readKey steps rest with
    | some (path, ']' :: rest) => (endLine rest).map fun rest => (.table path, rest)
    | _ => none
  | cs =>
    match endLine cs with
    | some rest => some (.blank, rest)
    | none =>
      match readKey steps cs with
      | some (key, '=' :: rest) =>
        match readValue steps maxDepth (skipBlanks rest) with
        | some (v, rest) => (endLine rest).map fun rest => (.entry key v, rest)
        | none => none
      | _ => none

/-- A document being read: its entries and the path of the table opened last. -/
structure Document where
  entries : Entries
  path : List String

/-- The document after one more line. -/
def Document.add? (d : Document) : Line → Option Document
  | .blank => some d
  | .entry key v =>
    (d.entries.changeAt? d.path fun es => es.assign? key v).map fun es => ⟨es, d.path⟩
  | .table path =>
    match path.getLast? with
    | none => none
    | some key =>
      (d.entries.changeAt? path.dropLast (Entries.declareTable? key)).map fun es => ⟨es, path⟩
  | .item path =>
    match path.getLast? with
    | none => none
    | some key =>
      (d.entries.changeAt? path.dropLast (Entries.declareItem? key)).map fun es => ⟨es, path⟩

/-- The document after the lines that are left. -/
def readLines : Nat → Document → List Char → Option Document
  | 0, _, _ => none
  | _ + 1, d, [] => some d
  | steps + 1, d, cs =>
    match readLine (cs.length + 1) cs with
    | none => none
    | some (line, rest) =>
      match d.add? line with
      | none => none
      | some d => readLines steps d rest

/-- The table of a document. A byte order mark before it does not count. -/
def parse (text : String) : Option Entries :=
  let cs := match text.toList with
    | c :: rest => if c = Char.ofNat 0xFEFF then rest else c :: rest
    | [] => []
  (readLines (cs.length + 1) ⟨[], []⟩ cs).map (·.entries)

end SwiftBindings.Toml
