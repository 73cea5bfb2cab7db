import SwiftBindings.Json.Value

/-!
# Reading JSON

The grammar of RFC 8259 read from the left. Every reader takes the characters that are left and
gives back what it read with the characters after it.

* `readString`: a string literal after its opening quote.
* `readNumber`: a number, with the longest spelling that is one.
* `parse`: a whole text.
-/

namespace SwiftBindings.Json

open Text (isDigit digitsValue hexValue?)

/-- Characters after the blanks of JSON. -/
def skipBlanks (cs : List Char) : List Char :=
  cs.dropWhile fun c => c = ' ' || c = '\t' || c = '\n' || c = '\r'

/-- The character of a one-letter escape. -/
def shortEscape? (c : Char) : Option Char :=
  match c with
  | '"' => some '"'
  | '\\' => some '\\'
  | '/' => some '/'
  | 'b' => some (Char.ofNat 0x08)
  | 'f' => some (Char.ofNat 0x0C)
  | 'n' => some '\n'
  | 'r' => some '\r'
  | 't' => some '\t'
  | _ => none

/-- Whether a code unit opens a surrogate pair. -/
def isHighSurrogate (n : Nat) : Bool := 0xD800 ≤ n && n ≤ 0xDBFF

/-- Whether a code unit closes a surrogate pair. -/
def isLowSurrogate (n : Nat) : Bool := 0xDC00 ≤ n && n ≤ 0xDFFF

/-- The character of a surrogate pair. -/
def ofSurrogates (high low : Nat) : Char :=
  Char.ofNat (0x10000 + (high - 0xD800) * 0x400 + (low - 0xDC00))

/-- What a string literal spells, piece by piece: a character, or the code unit of a numeric
escape. -/
inductive Unit where
  | char (c : Char)
  | code (n : Nat)

/-- The pieces of a string literal after its opening quote: `read` holds those so far, last one
first. -/
def readUnits (read : List Unit) : List Char → Option (List Unit × List Char)
  | [] => none
  | '"' :: rest => some (read.reverse, rest)
  | '\\' :: 'u' :: a :: b :: c :: d :: rest =>
    match hexValue? [a, b, c, d] with
    | none => none
    | some n => readUnits (.code n :: read) rest
  | '\\' :: c :: rest =>
    match shortEscape? c with
    | none => none
    | some e => readUnits (.char e :: read) rest
  | c :: rest => if c.toNat < 0x20 then none else readUnits (.char c :: read) rest

/-- The characters that pieces spell, `read` holding those so far, last one first. Two code units
that make a surrogate pair are one character; half of a pair on its own is none. -/
def joinUnits (read : List Char) : List Unit → Option (List Char)
  | [] => some read.reverse
  | .char c :: rest => joinUnits (c :: read) rest
  | [.code n] =>
    if isHighSurrogate n || isLowSurrogate n then none else joinUnits (Char.ofNat n :: read) []
  | .code n :: .char c :: rest =>
    if isHighSurrogate n || isLowSurrogate n then none
    else joinUnits (c :: Char.ofNat n :: read) rest
  | .code n :: .code m :: rest =>
    if isHighSurrogate n && isLowSurrogate m then joinUnits (ofSurrogates n m :: read) rest
    else if isHighSurrogate n || isLowSurrogate n then none
    else joinUnits (Char.ofNat n :: read) (.code m :: rest)

/-- A string literal after its opening quote. -/
def readString (cs : List Char) : Option (Literal × List Char) :=
  (readUnits [] cs).map fun (units, rest) => ((joinUnits [] units).map String.ofList, rest)

/-- One or more digits. -/
def readDigits (cs : List Char) : Option (List Char × List Char) :=
  let ds := cs.takeWhile isDigit
  if ds.isEmpty then none else some (ds, cs.dropWhile isDigit)

/-- The digits of a number before its point: a zero alone, or digits that start with another. -/
def readWhole (cs : List Char) : Option (Nat × List Char) :=
  match readDigits cs with
  | none => none
  | some (ds, rest) =>
    if ds.head? = some '0' ∧ ds.length ≠ 1 then none else some (digitsValue ds, rest)

/-- A point and the digits after it, or neither. -/
def readFraction (cs : List Char) : Option (Option (List Char) × List Char) :=
  match cs with
  | '.' :: rest => (readDigits rest).map fun (ds, rest) => (some ds, rest)
  | _ => some (none, cs)

/-- An exponent, or none. -/
def readExponent (cs : List Char) : Option (Option Int × List Char) :=
  match cs with
  | c :: rest =>
    if c = 'e' ∨ c = 'E' then
      match rest with
      | '-' :: rest =>
        (readDigits rest).map fun (ds, rest) => (some (-(digitsValue ds : Int)), rest)
      | '+' :: rest => (readDigits rest).map fun (ds, rest) => (some (digitsValue ds : Int), rest)
      | _ => (readDigits rest).map fun (ds, rest) => (some (digitsValue ds : Int), rest)
    else some (none, cs)
  | [] => some (none, cs)

/-- A number after its sign. -/
def readMagnitude (negative : Bool) (cs : List Char) : Option (Number × List Char) := do
  let (whole, cs) ← readWhole cs
  let (fraction?, cs) ← readFraction cs
  let (exponent?, cs) ← readExponent cs
  return (⟨negative, whole, fraction?, exponent?⟩, cs)

/-- A number. -/
def readNumber (cs : List Char) : Option (Number × List Char) :=
  match cs with
  | '-' :: rest => readMagnitude true rest
  | _ => readMagnitude false cs

/-- The characters after a given word. -/
def dropWord? : List Char → List Char → Option (List Char)
  | [], cs => some cs
  | _ :: _, [] => none
  | w :: ws, c :: cs => if w = c then dropWord? ws cs else none

mutual

/-- A value, blanks before it skipped. The first argument bounds the number of steps. -/
def readValue : Nat → List Char → Option (Value × List Char)
  | 0, _ => none
  | steps + 1, cs =>
    match skipBlanks cs with
    | '"' :: rest => (readString rest).map fun (s, rest) => (.string s, rest)
    | '[' :: rest =>
      match skipBlanks rest with
      | ']' :: rest => some (.array [], rest)
      | _ => (readItems steps rest).map fun (items, rest) => (.array items, rest)
    | '\x7b' :: rest =>
      match skipBlanks rest with
      | '\x7d' :: rest => some (.object [], rest)
      | _ => (readMembers steps rest).map fun (members, rest) => (.object members, rest)
    | 'n' :: rest => (dropWord? "ull".toList rest).map fun rest => (.null, rest)
    | 't' :: rest => (dropWord? "rue".toList rest).map fun rest => (.bool true, rest)
    | 'f' :: rest => (dropWord? "alse".toList rest).map fun rest => (.bool false, rest)
    | cs => (readNumber cs).map fun (n, rest) => (.number n, rest)

/-- The items of an array up to its closing bracket. -/
def readItems : Nat → List Char → Option (List Value × List Char)
  | 0, _ => none
  | steps + 1, cs =>
    match readValue steps cs with
    | none => none
    | some (v, rest) =>
      match skipBlanks rest with
      | ',' :: rest => (readItems steps rest).map fun (items, rest) => (v :: items, rest)
      | ']' :: rest => some ([v], rest)
      | _ => none

/-- The members of an object up to its closing brace. -/
def readMembers : Nat → List Char → Option (List (Literal × Value) × List Char)
  | 0, _ => none
  | steps + 1, cs =>
    match skipBlanks cs with
    | '"' :: rest =>
      match readString rest with
      | none => none
      | some (name, rest) =>
        match skipBlanks rest with
        | ':' :: rest =>
          match readValue steps rest with
          | none => none
          | some (v, rest) =>
            match skipBlanks rest with
            | ',' :: rest =>
              (readMembers steps rest).map fun (members, rest) => ((name, v) :: members, rest)
            | '\x7d' :: rest => some ([(name, v)], rest)
            | _ => none
        | _ => none
    | _ => none

end

/-- The value that a text spells, with nothing but blanks around it. -/
def parseChars (cs : List Char) : Option Value :=
  match readValue (cs.length + 1) cs with
  | none => none
  | some (v, rest) => if (skipBlanks rest).isEmpty then some v else none

/-- The value that a string spells. -/
def parse (text : String) : Option Value := parseChars text.toList

end SwiftBindings.Json
