import SwiftBindings.Text.Decimal
import SwiftBindings.Text.Pieces
import SwiftBindings.Toml.Value

/-!
# TOML scalars

Truth values, numbers, dates and times: the values that are written without quotes or brackets.

* `integer?`, `float?`: whether a word is written as a number, and whether that number can be told.
* `scalar?`: the value of a word.
-/

namespace SwiftBindings.Toml

open Text (isDigit digitsValue)

/-- Digits without the underscores between them. An underscore stands between two digits. -/
def grouped? (ok : Char → Bool) (cs : List Char) : Option (List Char) :=
  let groups := Text.pieces '_' cs
  if groups.all fun g => !g.isEmpty && g.all ok then some groups.flatten else none

/-- A sign before a number. -/
inductive Sign where
  | plus
  | minus
  deriving DecidableEq, Inhabited

/-- The sign of a word, if it has one, and what follows it. -/
def splitSign : List Char → Option Sign × List Char
  | '-' :: rest => (some .minus, rest)
  | '+' :: rest => (some .plus, rest)
  | cs => (none, cs)

/-- The integers are those of 128 bits, with or without a sign. -/
def inIntegerRange (sign? : Option Sign) (magnitude : Nat) : Bool :=
  if sign? = some .minus then magnitude ≤ Nat.pow 2 127 else magnitude < Nat.pow 2 128

/-- The value of a digit in a base. -/
def digitIn? (base : Nat) (c : Char) : Option Nat :=
  match Text.hexDigit? c with
  | some d => if d < base then some d else none
  | none => none

/-- The number that digits of a base spell. -/
def valueIn (base : Nat) (ds : List Char) : Nat :=
  ds.foldl (fun n c => n * base + (digitIn? base c).getD 0) 0

/-- Digits of a base after a mark such as `0x`. There may be none, which is no number. -/
def basedInteger? (base : Nat) (cs : List Char) : Option Bool :=
  if cs.isEmpty then some false
  else
    (grouped? (fun c => (digitIn? base c).isSome) cs).map fun ds =>
      inIntegerRange none (valueIn base ds)

/-- Whether a character is a digit of a base up to sixteen. -/
def isAnyDigit (c : Char) : Bool := (Text.hexDigit? c).isSome

/-- Whether the groups of an integer after its first underscore are well-formed: an underscore has
a digit on either side, of whatever base. What else a group holds is not looked at. -/
def areDigitBounded : List (List Char) → Bool
  | [] => true
  | [group] => group.head?.any isAnyDigit
  | group :: more =>
    group.head?.any isAnyDigit && group.getLast?.any isAnyDigit && areDigitBounded more

/-- Whether a word is written as a decimal integer. Only a zero alone starts with zero, and only
after a sign an underscore may come first. -/
def decimalInteger? (cs : List Char) : Option Bool :=
  let (sign?, body) := splitSign cs
  match Text.pieces '_' body with
  | [] => none
  | first :: more =>
    let isLed := !first.isEmpty || (sign?.isSome && !more.isEmpty)
    let isZeroLed := body.head? = some '0' && body.length ≠ 1
    let isFloating := body.any fun c => c = '.' || c = 'e' || c = 'E'
    if isLed && !isZeroLed && !isFloating && first.all isDigit && areDigitBounded more then
      let ds := first ++ more.flatten
      some (ds.all isDigit && inIntegerRange sign? (digitsValue ds))
    else none

/-- Whether a word is written as an integer, and if so, whether it is one of the integers. -/
def integer? (cs : List Char) : Option Bool :=
  match cs with
  | '0' :: 'x' :: ds => basedInteger? 16 ds
  | '0' :: 'o' :: ds => basedInteger? 8 ds
  | '0' :: 'b' :: ds => basedInteger? 2 ds
  | _ => decimalInteger? cs

/-- Whether a decimal number, its digits times a power of ten, is finite in 64 bits. -/
def isFinite (digits : Nat) (exponent : Int) : Bool :=
  if digits = 0 then true
  else
    let size := (Nat.toDigits 10 digits).length + exponent
    if 310 < size then false
    else if size < 308 then true
    else if 0 ≤ exponent then digits * Nat.pow 10 exponent.toNat < Text.overflowBound
    else digits < Text.overflowBound * Nat.pow 10 (-exponent).toNat

/-- The digits before the point. Only a zero alone starts with zero, unless the digits come after a
sign and an underscore. -/
def wholeDigits? (sign? : Option Sign) (cs : List Char) : Option (List Char) :=
  match sign?, cs with
  | some _, '_' :: rest => grouped? isDigit rest
  | _, _ =>
    match grouped? isDigit cs with
    | none => none
    | some ds => if ds.head? = some '0' ∧ ds.length ≠ 1 then none else some ds

/-- The digits of a number without exponent, and how many of them follow the point. -/
def mantissa? (sign? : Option Sign) (cs : List Char) : Option (List Char × Nat) :=
  match Text.pieces '.' cs with
  | [whole] => (wholeDigits? sign? whole).map fun ds => (ds, 0)
  | [whole, fraction] =>
    match wholeDigits? sign? whole, grouped? isDigit fraction with
    | some ds, some fs => some (ds ++ fs, fs.length)
    | _, _ => none
  | _ => none

/-- The value of an exponent. -/
def exponent? (cs : List Char) : Option Int :=
  let (sign?, rest) := splitSign cs
  (grouped? isDigit rest).map fun ds =>
    if sign? = some .minus then -(digitsValue ds : Int) else digitsValue ds

/-- Whether a word is written as a floating-point number, and if so, whether it is in range. -/
def float? (cs : List Char) : Option Bool :=
  let (sign?, rest) := splitSign cs
  if rest = "inf".toList ∨ rest = "nan".toList then some true
  else
    let head := rest.takeWhile fun c => c ≠ 'e' && c ≠ 'E'
    match mantissa? sign? head, rest.drop head.length with
    | some (ds, places), [] =>
      if places = 0 then none else some (isFinite (digitsValue ds) (-places))
    | some (ds, places), _ :: exponent =>
      (exponent? exponent).map fun e => isFinite (digitsValue ds) (e - places)
    | none, _ => none

/-- The number of two digits. -/
def twoDigits? : List Char → Option (Nat × List Char)
  | a :: b :: rest => if isDigit a && isDigit b then some (digitsValue [a, b], rest) else none
  | _ => none

/-- The number of days of a month. -/
def daysIn (year month : Nat) : Nat :=
  if month = 2 then
    if year % 4 = 0 ∧ (year % 100 ≠ 0 ∨ year % 400 = 0) then 29 else 28
  else if month = 4 ∨ month = 6 ∨ month = 9 ∨ month = 11 then 30
  else 31

/-- What follows a date. -/
def afterDate? (cs : List Char) : Option (List Char) := do
  let (century, cs) ← twoDigits? cs
  let (year, cs) ← twoDigits? cs
  let '-' :: cs := cs | none
  let (month, cs) ← twoDigits? cs
  let '-' :: cs := cs | none
  let (day, cs) ← twoDigits? cs
  if 1 ≤ month ∧ month ≤ 12 ∧ 1 ≤ day ∧ day ≤ daysIn (century * 100 + year) month then some cs
  else none

/-- What follows the digits after the point of a second. -/
def afterFraction? (cs : List Char) : Option (List Char) :=
  match cs with
  | '.' :: rest => if rest.head?.any isDigit then some (rest.dropWhile isDigit) else none
  | _ => some cs

/-- What follows a time. Seconds may be left out. -/
def afterTime? (cs : List Char) : Option (List Char) := do
  let (hour, cs) ← twoDigits? cs
  let ':' :: cs := cs | none
  let (minute, cs) ← twoDigits? cs
  if 23 < hour ∨ 59 < minute then none
  else
    match cs with
    | ':' :: cs =>
      let (second, cs) ← twoDigits? cs
      if 60 < second then none else afterFraction? cs
    | _ => some cs

/-- Whether a word is an offset from universal time, or nothing. -/
def isOffset (cs : List Char) : Bool :=
  match cs with
  | [] => true
  | ['Z'] | ['z'] => true
  | sign :: rest =>
    if sign = '+' ∨ sign = '-' then
      match twoDigits? rest with
      | some (hour, ':' :: rest) =>
        match twoDigits? rest with
        | some (minute, []) => hour ≤ 23 && minute ≤ 59
        | _ => false
      | _ => false
    else false

/-- Whether a word is a date, a time, or both. -/
def isDate (cs : List Char) : Bool :=
  match afterDate? cs with
  | some [] => true
  | some (mark :: rest) =>
    if mark = 'T' ∨ mark = 't' ∨ mark = ' ' then
      match afterTime? rest with
      | some rest => isOffset rest
      | none => false
    else false
  | none => afterTime? cs = some []

/-- The value of a word. -/
def scalar? (cs : List Char) : Option Value :=
  if cs = "true".toList then some (.boolean true)
  else if cs = "false".toList then some (.boolean false)
  else
    match integer? cs, float? cs with
    | some definite, _ => some (.integer definite)
    | none, some definite => some (.float definite)
    | none, none => if isDate cs then some .date else none

end SwiftBindings.Toml
