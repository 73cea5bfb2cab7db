import Mathlib.Tactic.Common
import SwiftBindings.Json.Printer
import SwiftBindings.Json.Reader

/-!
# Numbers and strings read back

A number ends where no digit, point or exponent follows it, and a string at its closing quote. What
is written for a number or a string is read back from the beginning of any text that goes on after
it in this way.

* `readNumber_print`: a number, up to what ends it.
* `readString_print`: a string, whatever it holds.
-/

namespace SwiftBindings.Json

open Text (isDigit digitValue digitsValue hexDigit? hexValue?)

variable {rest ds : List Char} {c : Char} {n : Nat}

/-! ## Digits -/

theorem isDigit_eq (c : Char) : isDigit c = c.isDigit := by
  simp only [isDigit, Char.isDigit, Char.le_def, ge_iff_le]

/-- Digits spell the number that they are made from. -/
theorem digitsValue_toDigits (n : Nat) : digitsValue (Nat.toDigits 10 n) = n := by
  have h : digitsValue (Nat.toDigits 10 n) = Nat.ofDigitChars 10 (Nat.toDigits 10 n) 0 := by
    rw [Nat.ofDigitChars_eq_foldl]
    simp only [digitsValue, digitValue, Nat.mul_comm]
  rw [h, Nat.ofDigitChars_ten_toDigits]

theorem isDigit_of_mem_toDigits (h : c ∈ Nat.toDigits 10 n) : isDigit c = true := by
  rw [isDigit_eq]
  exact Nat.isDigit_of_mem_toDigits (by decide) (by decide) h

/-- No number but zero is written with a zero in front. -/
theorem eq_zero_of_head?_toDigits (h : (Nat.toDigits 10 n).head? = some '0') : n = 0 := by
  induction n using Nat.strongRecOn with
  | ind n ih =>
    by_cases hn : n < 10
    · rw [Nat.toDigits_of_lt_base hn, List.head?_singleton, Option.some.injEq] at h
      exact Nat.digitChar_eq_zero.1 h
    · -- the digits in front are those of the number without its last digit
      have hfront : (Nat.toDigits 10 (n / 10)).head? = some '0' := by
        obtain ⟨d, more, hd⟩ := List.exists_cons_of_ne_nil
          (Nat.toDigits_ne_nil (n := n / 10) (b := 10))
        rw [Nat.toDigits_of_base_le (by decide) (by omega), hd] at h
        rw [hd]
        exact h
      have := ih (n / 10) (by omega) hfront
      omega

/-- Whether no digit comes next. -/
def EndsDigits (rest : List Char) : Prop := ∀ c ∈ rest.head?, isDigit c = false

theorem readDigits_append (hne : ds ≠ []) (hds : ∀ c ∈ ds, isDigit c = true)
    (hr : EndsDigits rest) : readDigits (ds ++ rest) = some (ds, rest) := by
  have htake : rest.takeWhile isDigit = [] := by
    cases rest with
    | nil => rfl
    | cons c _ => rw [List.takeWhile_cons, hr c rfl]; rfl
  have hdrop : rest.dropWhile isDigit = rest := by
    cases rest with
    | nil => rfl
    | cons c _ => rw [List.dropWhile_cons, hr c rfl]; rfl
  unfold readDigits
  rw [List.takeWhile_append_of_pos hds, List.dropWhile_append_of_pos hds, htake, hdrop,
    List.append_nil]
  cases ds with
  | nil => exact absurd rfl hne
  | cons c _ => rfl

theorem readDigits_toDigits (n : Nat) (hr : EndsDigits rest) :
    readDigits (Nat.toDigits 10 n ++ rest) = some (Nat.toDigits 10 n, rest) :=
  readDigits_append Nat.toDigits_ne_nil (fun _ h => isDigit_of_mem_toDigits h) hr

theorem readWhole_toDigits (n : Nat) (hr : EndsDigits rest) :
    readWhole (Nat.toDigits 10 n ++ rest) = some (n, rest) := by
  have hzero : ¬ ((Nat.toDigits 10 n).head? = some '0' ∧ (Nat.toDigits 10 n).length ≠ 1) := by
    rintro ⟨h, hlen⟩
    rw [eq_zero_of_head?_toDigits h] at hlen
    exact hlen rfl
  unfold readWhole
  rw [readDigits_toDigits n hr]
  simp only [if_neg hzero, digitsValue_toDigits]

/-! ## Numbers -/

/-- Whether no character comes next that could go on with a number. -/
def EndsNumber (rest : List Char) : Prop :=
  ∀ c ∈ rest.head?, isDigit c = false ∧ c ≠ '.' ∧ c ≠ 'e' ∧ c ≠ 'E'

theorem endsNumber_nil : EndsNumber [] := fun _ h => by simp at h

theorem EndsNumber.endsDigits (h : EndsNumber rest) : EndsDigits rest := fun c hc => (h c hc).1

theorem endsNumber_cons (h : isDigit c = false ∧ c ≠ '.' ∧ c ≠ 'e' ∧ c ≠ 'E') :
    EndsNumber (c :: rest) := by
  intro c' hc'
  obtain rfl : c = c' := by simpa using hc'
  exact h

/-- Whether a number can be written: if it has a point, digits follow it. -/
def Number.Writable (n : Number) : Prop :=
  ∀ ds ∈ n.fraction?, ds ≠ [] ∧ ∀ c ∈ ds, isDigit c = true

theorem Number.writable_ofInt (i : Int) : (Number.ofInt i).Writable := fun ds h => by
  simp [Number.ofInt] at h

/-- What is written for an exponent. -/
def printExponent : Option Int → List Char
  | some e => 'e' :: (if e < 0 then ['-'] else []) ++ Nat.toDigits 10 e.natAbs
  | none => []

theorem readExponent_print (e? : Option Int) (hr : EndsNumber rest) :
    readExponent (printExponent e? ++ rest) = some (e?, rest) := by
  cases e? with
  | none =>
    cases rest with
    | nil => rfl
    | cons c cs =>
      obtain ⟨-, -, he, hE⟩ := hr c rfl
      simp [printExponent, readExponent, he, hE]
  | some e =>
    have hdigits := readDigits_toDigits e.natAbs hr.endsDigits
    by_cases hneg : e < 0
    · simp only [printExponent, readExponent, if_pos hneg, List.cons_append, List.nil_append,
        true_or, if_true, hdigits, Option.map_some, digitsValue_toDigits]
      congr 3
      omega
    · -- no sign is written, and the first digit is none
      obtain ⟨d, more, hd⟩ :=
        List.exists_cons_of_ne_nil (Nat.toDigits_ne_nil (n := e.natAbs) (b := 10))
      have hdig : isDigit d = true := isDigit_of_mem_toDigits (n := e.natAbs) (by simp [hd])
      have hminus : d ≠ '-' := by rintro rfl; exact absurd hdig (by decide)
      have hplus : d ≠ '+' := by rintro rfl; exact absurd hdig (by decide)
      have hvalue : ((digitsValue (d :: more) : Nat) : Int) = e := by
        rw [← hd, digitsValue_toDigits]
        omega
      rw [hd] at hdigits
      simp only [printExponent, readExponent, if_neg hneg, List.cons_append, List.nil_append,
        true_or, if_true, hd]
      split
      · rename_i h; exact absurd (List.cons.inj h).1 hminus
      · rename_i h; exact absurd (List.cons.inj h).1 hplus
      · rw [← List.cons_append, hdigits, Option.map_some, hvalue]

/-- What is written for the digits after the point. -/
def printFraction : Option (List Char) → List Char
  | some ds => '.' :: ds
  | none => []

theorem readFraction_print (ds? : Option (List Char))
    (hw : ∀ ds ∈ ds?, ds ≠ [] ∧ ∀ c ∈ ds, isDigit c = true) (hr : EndsDigits rest)
    (hpoint : rest.head? ≠ some '.') :
    readFraction (printFraction ds? ++ rest) = some (ds?, rest) := by
  cases ds? with
  | none =>
    cases rest with
    | nil => rfl
    | cons c cs =>
      have hc : c ≠ '.' := fun h => hpoint (by rw [h]; rfl)
      simp only [printFraction, List.nil_append]
      unfold readFraction
      split
      · rename_i h; exact absurd (List.cons.inj h).1 hc
      · rfl
  | some ds =>
    obtain ⟨hne, hds⟩ := hw ds rfl
    simp [printFraction, readFraction, readDigits_append hne hds hr]

theorem Number.print_eq (n : Number) :
    n.print = (if n.negative then ['-'] else []) ++ (Nat.toDigits 10 n.whole ++
      (printFraction n.fraction? ++ printExponent n.exponent?)) := by
  simp only [Number.print, List.append_assoc]
  rfl

theorem head?_printExponent_append (e? : Option Int) (hr : EndsNumber rest) :
    ∀ c ∈ (printExponent e? ++ rest).head?, isDigit c = false ∧ c ≠ '.' := by
  intro c hc
  cases e? with
  | none => exact ⟨(hr c hc).1, (hr c hc).2.1⟩
  | some e =>
    obtain rfl : 'e' = c := by simpa [printExponent] using hc
    decide

theorem endsDigits_printFraction_append (n : Number) (hr : EndsNumber rest) :
    EndsDigits (printFraction n.fraction? ++ (printExponent n.exponent? ++ rest)) := by
  intro c hc
  cases hf : n.fraction? with
  | none => rw [hf] at hc; exact (head?_printExponent_append _ hr c hc).1
  | some ds =>
    rw [hf] at hc
    obtain rfl : '.' = c := by simpa [printFraction] using hc
    decide

theorem readMagnitude_print (n : Number) (hw : n.Writable) (hr : EndsNumber rest) :
    readMagnitude n.negative (Nat.toDigits 10 n.whole ++
      (printFraction n.fraction? ++ (printExponent n.exponent? ++ rest))) = some (n, rest) := by
  have hexp := head?_printExponent_append n.exponent? hr
  have hfraction := readFraction_print n.fraction? hw
    (fun c hc => (hexp c hc).1) (fun h => (hexp _ h).2 rfl)
  unfold readMagnitude
  rw [readWhole_toDigits n.whole (endsDigits_printFraction_append n hr)]
  simp only [Option.bind_eq_bind, Option.bind_some, hfraction, readExponent_print n.exponent? hr]
  rfl

/-- The first character of a number: a sign or a digit. -/
theorem exists_print_eq_cons (n : Number) :
    ∃ c cs, n.print = c :: cs ∧
      (c = '-' ∧ n.negative = true ∨ isDigit c = true ∧ n.negative = false) := by
  rw [n.print_eq]
  cases hn : n.negative with
  | true => exact ⟨'-', _, rfl, .inl ⟨rfl, rfl⟩⟩
  | false =>
    obtain ⟨d, more, hd⟩ :=
      List.exists_cons_of_ne_nil (Nat.toDigits_ne_nil (n := n.whole) (b := 10))
    have hdig : isDigit d = true := isDigit_of_mem_toDigits (n := n.whole) (by simp [hd])
    exact ⟨d, _, by rw [hd]; rfl, .inr ⟨hdig, rfl⟩⟩

/-- **A number is read back**, up to what ends it. -/
theorem readNumber_print (n : Number) (hw : n.Writable) (hr : EndsNumber rest) :
    readNumber (n.print ++ rest) = some (n, rest) := by
  have hmag := readMagnitude_print n hw hr
  rw [n.print_eq]
  cases hn : n.negative with
  | true =>
    rw [hn] at hmag
    simp only [if_true, List.append_assoc, List.cons_append, List.nil_append, readNumber, hmag]
  | false =>
    rw [hn] at hmag
    simp only [Bool.false_eq_true, if_false, List.append_assoc, List.nil_append]
    -- the first digit is no sign
    obtain ⟨d, more, hd⟩ :=
      List.exists_cons_of_ne_nil (Nat.toDigits_ne_nil (n := n.whole) (b := 10))
    have hdig : isDigit d = true := isDigit_of_mem_toDigits (n := n.whole) (by simp [hd])
    rw [hd] at hmag ⊢
    unfold readNumber
    split
    · rename_i h
      have hd' : d = '-' := (List.cons.inj h).1
      rw [hd'] at hdig
      exact absurd hdig (by decide)
    · exact hmag

/-! ## Strings -/

/-- The piece of a string literal that a character is read as. -/
def unitOf (c : Char) : Unit :=
  if c.toNat < 0x20 ∧ c ≠ '\n' ∧ c ≠ '\r' ∧ c ≠ '\t' ∧ c ≠ Char.ofNat 0x08 ∧ c ≠ Char.ofNat 0x0C then
    .code c.toNat
  else .char c

theorem hexValue?_hexChar (h : n < 0x20) :
    hexValue? ['0', '0', hexChar (n / 16), hexChar (n % 16)] = some n := by
  have hall : ∀ i < 0x20, hexValue? ['0', '0', hexChar (i / 16), hexChar (i % 16)] = some i := by
    decide
  exact hall n h

/-- A character is read as one piece, however it is written. -/
theorem readUnits_escapeChar (read : List Unit) (c : Char) (cs : List Char) :
    readUnits read (escapeChar c ++ cs) = readUnits (unitOf c :: read) cs := by
  unfold escapeChar
  split
  · subst_vars; rfl
  split
  · subst_vars; rfl
  split
  · subst_vars; rfl
  split
  · subst_vars; rfl
  split
  · subst_vars; rfl
  split
  · subst_vars; rfl
  split
  · subst_vars; rfl
  rename_i hquote hback hn hr ht hb hf
  split
  · rename_i hlow
    have hunit : unitOf c = .code c.toNat := if_pos ⟨hlow, hn, hr, ht, hb, hf⟩
    simp only [List.cons_append, List.nil_append]
    rw [readUnits, hexValue?_hexChar hlow, hunit]
  · rename_i hhigh
    have hunit : unitOf c = .char c := if_neg fun h => hhigh h.1
    simp only [List.cons_append, List.nil_append]
    rw [hunit, readUnits.eq_def]
    split
    · rename_i h; simp at h
    · rename_i h; exact absurd (List.cons.inj h).1 hquote
    · rename_i h; exact absurd (List.cons.inj h).1 hback
    · rename_i h; exact absurd (List.cons.inj h).1 hback
    · rename_i h
      obtain ⟨rfl, rfl⟩ := List.cons.inj h
      rw [if_neg hhigh]

theorem readUnits_flatMap (s : List Char) (read : List Unit) (rest : List Char) :
    readUnits read (s.flatMap escapeChar ++ '"' :: rest) =
      some (read.reverse ++ s.map unitOf, rest) := by
  induction s generalizing read with
  | nil => simp [readUnits]
  | cons c s ih =>
    rw [List.flatMap_cons, List.append_assoc, readUnits_escapeChar, ih]
    simp

/-- A code unit below the surrogates is a character by itself. -/
theorem joinUnits_code (h : n < 0xD800) (read : List Char) (us : List Unit) :
    joinUnits read (.code n :: us) = joinUnits (Char.ofNat n :: read) us := by
  have hhigh : isHighSurrogate n = false := by
    simp only [isHighSurrogate, Bool.and_eq_false_iff, decide_eq_false_iff_not]
    omega
  have hlow : isLowSurrogate n = false := by
    simp only [isLowSurrogate, Bool.and_eq_false_iff, decide_eq_false_iff_not]
    omega
  cases us with
  | nil => simp [joinUnits, hhigh, hlow]
  | cons u us => cases u <;> simp [joinUnits, hhigh, hlow]

theorem joinUnits_unitOf (read : List Char) (c : Char) (us : List Unit) :
    joinUnits read (unitOf c :: us) = joinUnits (c :: read) us := by
  unfold unitOf
  split
  · rename_i h
    rw [joinUnits_code (by omega), Char.ofNat_toNat]
  · rw [joinUnits]

theorem joinUnits_map_unitOf (s read : List Char) :
    joinUnits read (s.map unitOf) = some (read.reverse ++ s) := by
  induction s generalizing read with
  | nil => simp [joinUnits]
  | cons c s ih => rw [List.map_cons, joinUnits_unitOf, ih]; simp

/-- **A string is read back**, whatever it holds. -/
theorem readString_print (s : String) (rest : List Char) :
    readString (s.toList.flatMap escapeChar ++ '"' :: rest) = some (some s, rest) := by
  unfold readString
  rw [readUnits_flatMap]
  simp [joinUnits_map_unitOf]

end SwiftBindings.Json
