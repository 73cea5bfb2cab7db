/-!
# Decimal numerals

Digits, the numbers that they spell, and the range of the binary floating-point numbers of 64 bits.

* `digitsValue_append_singleton`: one more digit is ten times the number plus the digit.
* `toDouble`: a natural number rounded to 53 binary digits.
* `overflowBound`: the least number that rounds beyond the finite ones.
-/

namespace SwiftBindings.Text

/-- Whether a character is a decimal digit. -/
def isDigit (c : Char) : Bool := '0' ≤ c && c ≤ '9'

/-- The value of a decimal digit. -/
def digitValue (c : Char) : Nat := c.toNat - '0'.toNat

/-- The number that decimal digits spell. -/
def digitsValue (ds : List Char) : Nat := ds.foldl (fun n c => n * 10 + digitValue c) 0

/-- The value of a hexadecimal digit. -/
def hexDigit? (c : Char) : Option Nat :=
  if isDigit c then some (digitValue c)
  else if 'a' ≤ c ∧ c ≤ 'f' then some (c.toNat - 'a'.toNat + 10)
  else if 'A' ≤ c ∧ c ≤ 'F' then some (c.toNat - 'A'.toNat + 10)
  else none

/-- The number that hexadecimal digits spell, if all are such digits. -/
def hexValue? (ds : List Char) : Option Nat :=
  ds.foldl (fun n? c => n?.bind fun n => (hexDigit? c).map fun d => n * 16 + d) (some 0)

theorem digitsValue_append_singleton (ds : List Char) (c : Char) :
    digitsValue (ds ++ [c]) = digitsValue ds * 10 + digitValue c := by
  simp [digitsValue]

/-- A natural number rounded to 53 binary digits, a tie going to the even neighbour. -/
def toDouble (n : Nat) : Nat :=
  let unit := Nat.pow 2 (n.log2 + 1 - 53)
  let quotient := n / unit
  let remainder := n % unit
  let up := unit < 2 * remainder || (unit == 2 * remainder && quotient % 2 == 1)
  (if up then quotient + 1 else quotient) * unit

/-- The least number that rounds beyond the finite floating-point numbers. -/
def overflowBound : Nat := Nat.pow 2 1024 - Nat.pow 2 970

end SwiftBindings.Text
