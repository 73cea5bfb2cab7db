import SwiftBindings.Text.Decimal

/-!
# TOML strings

The four ways of writing a string: on one line or on several, with escapes or without. Each reader
starts after the opening quotes and gives back what follows the closing ones.

* `readEscape`: an escape after its backslash.
* `readBasic`, `readLiteral`: strings on one line.
* `readLongBasic`, `readLongLiteral`: strings on several lines.
-/

namespace SwiftBindings.Toml

/-- Whether a character may stand in a string or a comment as it is. -/
def isPlain (c : Char) : Bool := c = '\t' || (0x20 ≤ c.toNat && c.toNat ≠ 0x7F)

/-- The character of a code point. -/
def ofCodePoint? (n : Nat) : Option Char :=
  if n < 0xD800 ∨ (0xDFFF < n ∧ n < 0x110000) then some (Char.ofNat n) else none

/-- The character that a given number of hexadecimal digits names. -/
def readCodePoint (digits : Nat) (cs : List Char) : Option (Char × List Char) :=
  let ds := cs.take digits
  if ds.length = digits then
    ((Text.hexValue? ds).bind ofCodePoint?).map fun c => (c, cs.drop digits)
  else none

/-- The character of an escape after its backslash. -/
def readEscape (cs : List Char) : Option (Char × List Char) :=
  match cs with
  | 'b' :: rest => some (Char.ofNat 0x08, rest)
  | 't' :: rest => some ('\t', rest)
  | 'n' :: rest => some ('\n', rest)
  | 'f' :: rest => some (Char.ofNat 0x0C, rest)
  | 'r' :: rest => some ('\r', rest)
  | 'e' :: rest => some (Char.ofNat 0x1B, rest)
  | '"' :: rest => some ('"', rest)
  | '\\' :: rest => some ('\\', rest)
  | 'x' :: rest => readCodePoint 2 rest
  | 'u' :: rest => readCodePoint 4 rest
  | 'U' :: rest => readCodePoint 8 rest
  | _ => none

/-- A string on one line with escapes, `read` holding what has been read, last character first. The
first argument bounds the number of steps. -/
def readBasicAfter : Nat → List Char → List Char → Option (String × List Char)
  | 0, _, _ => none
  | steps + 1, read, cs =>
    match cs with
    | [] => none
    | '"' :: rest => some (String.ofList read.reverse, rest)
    | '\\' :: rest =>
      match readEscape rest with
      | none => none
      | some (c, rest) => readBasicAfter steps (c :: read) rest
    | c :: rest => if isPlain c then readBasicAfter steps (c :: read) rest else none

/-- A string on one line with escapes. -/
def readBasic (cs : List Char) : Option (String × List Char) := readBasicAfter (cs.length + 1) [] cs

/-- A string on one line without escapes. -/
def readLiteral (cs : List Char) : Option (String × List Char) :=
  let body := cs.takeWhile (· ≠ '\'')
  match cs.drop body.length with
  | _ :: rest => if body.all isPlain then some (String.ofList body, rest) else none
  | [] => none

/-- What follows a line end at the very start. -/
def dropLineEnd (cs : List Char) : List Char :=
  match cs with
  | '\n' :: rest => rest
  | '\r' :: '\n' :: rest => rest
  | _ => cs

/-- Whether only blanks stand before the line end. -/
def endsLine (cs : List Char) : Bool :=
  match cs.dropWhile fun c => c = ' ' || c = '\t' with
  | '\n' :: _ => true
  | '\r' :: '\n' :: _ => true
  | _ => false

/-- What follows blanks and line ends. A carriage return belongs to a line end only before a line
feed. -/
def skipLines : List Char → List Char
  | '\r' :: '\n' :: rest => skipLines rest
  | c :: rest => if c = ' ' || c = '\t' || c = '\n' then skipLines rest else c :: rest
  | [] => []

/-- The end of a long string after three quotes: up to two quotes more are its last characters. -/
def closeLong (quote : Char) (read rest : List Char) : String × List Char :=
  match rest with
  | a :: b :: more =>
    if a = quote ∧ b = quote then (String.ofList (quote :: quote :: read).reverse, more)
    else if a = quote then (String.ofList (quote :: read).reverse, b :: more)
    else (String.ofList read.reverse, rest)
  | [a] =>
    if a = quote then (String.ofList (quote :: read).reverse, [])
    else (String.ofList read.reverse, rest)
  | [] => (String.ofList read.reverse, [])

/-- A long string with escapes, `read` holding what has been read, last character first. A backslash
at the end of a line drops the line end and all blanks after it. -/
def readLongBasicAfter : Nat → List Char → List Char → Option (String × List Char)
  | 0, _, _ => none
  | steps + 1, read, cs =>
    match cs with
    | [] => none
    | '"' :: '"' :: '"' :: rest => some (closeLong '"' read rest)
    | '\\' :: rest =>
      if endsLine rest then readLongBasicAfter steps read (skipLines rest)
      else
        match readEscape rest with
        | none => none
        | some (c, rest) => readLongBasicAfter steps (c :: read) rest
    | '\r' :: '\n' :: rest => readLongBasicAfter steps ('\n' :: '\r' :: read) rest
    | c :: rest =>
      if c = '\n' || isPlain c then readLongBasicAfter steps (c :: read) rest else none

/-- A long string with escapes. A line end at its very start does not count. -/
def readLongBasic (cs : List Char) : Option (String × List Char) :=
  readLongBasicAfter (cs.length + 1) [] (dropLineEnd cs)

/-- A long string without escapes, `read` holding what has been read, last character first. -/
def readLongLiteralAfter : Nat → List Char → List Char → Option (String × List Char)
  | 0, _, _ => none
  | steps + 1, read, cs =>
    match cs with
    | [] => none
    | '\'' :: '\'' :: '\'' :: rest => some (closeLong '\'' read rest)
    | '\r' :: '\n' :: rest => readLongLiteralAfter steps ('\n' :: '\r' :: read) rest
    | c :: rest =>
      if c = '\n' || isPlain c then readLongLiteralAfter steps (c :: read) rest else none

/-- A long string without escapes. A line end at its very start does not count. -/
def readLongLiteral (cs : List Char) : Option (String × List Char) :=
  readLongLiteralAfter (cs.length + 1) [] (dropLineEnd cs)

/-- A string value, whose first quote decides how it is written. -/
def readString (cs : List Char) : Option (String × List Char) :=
  match cs with
  | '"' :: '"' :: '"' :: rest => readLongBasic rest
  | '"' :: rest => readBasic rest
  | '\'' :: '\'' :: '\'' :: rest => readLongLiteral rest
  | '\'' :: rest => readLiteral rest
  | _ => none

end SwiftBindings.Toml
