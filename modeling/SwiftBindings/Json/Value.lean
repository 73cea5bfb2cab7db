import SwiftBindings.Text.Decimal

/-!
# JSON values

A JSON text as it was written: members keep their order and may repeat a name, numbers keep their
digits, and a string literal may spell something that is no text.

* `Number.isInteger`: what may be read as an integer.
* `Number.inRange`: what fits a binary floating-point number of 64 bits.
* `Value.isReadable`: what a reader that keeps values accepts, with a limit on nesting.
-/

namespace SwiftBindings.Json

/-- A number as written: sign, digits before the point, digits after it if there is one, and
exponent if there is one. -/
structure Number where
  negative : Bool
  whole : Nat
  fraction? : Option (List Char)
  exponent? : Option Int
  deriving DecidableEq, Inhabited

/-- A string literal read; `none` if an escape names half of a surrogate pair. -/
abbrev Literal := Option String

/-- A JSON value. -/
inductive Value where
  | null
  | bool (b : Bool)
  | number (n : Number)
  | string (s : Literal)
  | array (items : List Value)
  | object (members : List (Literal × Value))
  deriving Inhabited

namespace Number

/-- The number of an integer. -/
def ofInt (n : Int) : Number := ⟨n < 0, n.natAbs, none, none⟩

/-- Whether a number is written as an integer. Minus zero is not. -/
def isInteger (n : Number) : Bool :=
  n.fraction?.isNone && n.exponent?.isNone && !(n.negative && n.whole == 0)

/-- The integer that a number is written as. -/
def toInt? (n : Number) : Option Int :=
  if n.isInteger then some (if n.negative then -(n.whole : Int) else n.whole) else none

theorem toInt?_ofInt (n : Int) : (ofInt n).toInt? = some n := by
  by_cases h : n < 0
  · have : n.natAbs ≠ 0 := by omega
    simp only [toInt?, isInteger, ofInt, h, decide_true, Option.isNone_none, Bool.and_self,
      Bool.true_and, beq_eq_false_iff_ne.2 this, Bool.not_false, ite_true]
    congr 1
    omega
  · simp only [toInt?, isInteger, ofInt, h, decide_false, Option.isNone_none, Bool.and_self,
      Bool.false_and, Bool.not_false, ite_true]
    simp
    omega

/-- The largest significand that is gathered digit by digit. -/
def maxSignificand : Nat := Nat.pow 2 64 - 1

/-- Digits gathered into a significand until the next one would not fit. The answer is the
significand and the number of digits taken. -/
def gather (significand taken : Nat) : List Char → Nat × Nat
  | [] => (significand, taken)
  | c :: rest =>
    let next := significand * 10 + Text.digitValue c
    if maxSignificand < next then (significand, taken) else gather next (taken + 1) rest

/-- The significand and the decimal exponent of a number, digits that do not fit dropped. -/
def scaled (n : Number) : Nat × Int :=
  let digits := Nat.toDigits 10 n.whole
  let (significand, taken) := gather 0 0 digits
  let dropped : Int := digits.length - taken
  let (significand, exponent) :=
    match n.fraction? with
    | none => (significand, dropped)
    | some fraction =>
      let (significand, taken) := gather significand 0 fraction
      (significand, dropped - taken)
  (significand, exponent + n.exponent?.getD 0)

/-- Whether a number fits 64 bits: as an integer, or as a finite floating-point number that is the
product of its significand and a power of ten up to the 308th. -/
def inRange (n : Number) : Bool :=
  let (significand, exponent) := n.scaled
  if significand = 0 ∨ exponent ≤ 0 then true
  else if 308 < exponent then false
  else Text.toDouble significand * Text.toDouble (Nat.pow 10 exponent.toNat) < Text.overflowBound

end Number

namespace Value

mutual

/-- Whether a value can be kept: nested no deeper than `depth`, every string a text, every number
in range. -/
def isReadable (depth : Nat) : Value → Bool
  | .null => true
  | .bool _ => true
  | .number n => n.inRange
  | .string s => s.isSome
  | .array items =>
    match depth with
    | 0 => false
    | depth + 1 => itemsReadable depth items
  | .object members =>
    match depth with
    | 0 => false
    | depth + 1 => membersReadable depth members

/-- Whether the items of an array can be kept. -/
def itemsReadable (depth : Nat) : List Value → Bool
  | [] => true
  | v :: rest => v.isReadable depth && itemsReadable depth rest

/-- Whether the members of an object can be kept. -/
def membersReadable (depth : Nat) : List (Literal × Value) → Bool
  | [] => true
  | (name, v) :: rest => name.isSome && v.isReadable depth && membersReadable depth rest

end

end Value

end SwiftBindings.Json
