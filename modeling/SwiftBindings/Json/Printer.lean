import SwiftBindings.Json.Value

/-!
# Writing JSON

A value is written without blanks. Strings escape the quote, the backslash and the characters below
the space, and nothing else.

* `Value.print`: the text of a value.
-/

namespace SwiftBindings.Json

/-- A hexadecimal digit, small letters after nine. -/
def hexChar (n : Nat) : Char :=
  if n < 10 then Char.ofNat ('0'.toNat + n) else Char.ofNat ('a'.toNat + (n - 10))

/-- A character inside a string literal. -/
def escapeChar (c : Char) : List Char :=
  if c = '"' then ['\\', '"']
  else if c = '\\' then ['\\', '\\']
  else if c = '\n' then ['\\', 'n']
  else if c = '\r' then ['\\', 'r']
  else if c = '\t' then ['\\', 't']
  else if c = Char.ofNat 0x08 then ['\\', 'b']
  else if c = Char.ofNat 0x0C then ['\\', 'f']
  else if c.toNat < 0x20 then ['\\', 'u', '0', '0', hexChar (c.toNat / 16), hexChar (c.toNat % 16)]
  else [c]

/-- A string literal. -/
def printString (s : String) : List Char := '"' :: s.toList.flatMap escapeChar ++ ['"']

/-- A string literal of which a part may be no text; that part is left out. -/
def printLiteral (s : Literal) : List Char := printString (s.getD "")

/-- A number as it was written, but for zeros and signs of its exponent. -/
def Number.print (n : Number) : List Char :=
  (if n.negative then ['-'] else []) ++ Nat.toDigits 10 n.whole ++
    (match n.fraction? with
      | some digits => '.' :: digits
      | none => []) ++
    (match n.exponent? with
      | some e => 'e' :: (if e < 0 then ['-'] else []) ++ Nat.toDigits 10 e.natAbs
      | none => [])

namespace Value

mutual

/-- The characters of a value. -/
def printChars : Value → List Char
  | .null => "null".toList
  | .bool true => "true".toList
  | .bool false => "false".toList
  | .number n => n.print
  | .string s => printLiteral s
  | .array items => '[' :: printItems items ++ [']']
  | .object members => '\x7b' :: printMembers members ++ ['\x7d']

/-- The items of an array with commas between them. -/
def printItems : List Value → List Char
  | [] => []
  | v :: rest =>
    match rest with
    | [] => v.printChars
    | _ :: _ => v.printChars ++ ',' :: printItems rest

/-- The members of an object with commas between them. -/
def printMembers : List (Literal × Value) → List Char
  | [] => []
  | (name, v) :: rest =>
    match rest with
    | [] => printLiteral name ++ ':' :: v.printChars
    | _ :: _ => printLiteral name ++ ':' :: v.printChars ++ ',' :: printMembers rest

end

/-- The text of a value. -/
def print (v : Value) : String := String.ofList v.printChars

end Value

end SwiftBindings.Json
