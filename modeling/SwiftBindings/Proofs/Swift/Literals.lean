import Mathlib.Tactic.Common
import SwiftBindings.Swift.Types

/-!
# String literals

A string literal of one line is a row of items between two quotes. An item is an escape, or a
character that stands for itself: any but the quote, the backslash, the line feed and the carriage
return. The literals of this library escape the quote, the backslash, the line feed and the tab, and
write every other character as it is. So a text is read back from its literal unless it holds a
carriage return, which breaks the line.

* `IsLiteral`: a literal and the text that it reads as.
* `readLiteral?`: reads the literal at the beginning of a text.
* `isLiteral_iff_readLiteral?`: both say the same.
* `isLiteral_stringLiteral_iff`: **which texts are read back.**
-/

namespace SwiftBindings.Swift

/-- The character that an escape stands for, by the one behind its backslash. -/
def escaped? : Char → Option Char
  | '"' => some '"'
  | '\\' => some '\\'
  | 'n' => some '\n'
  | 't' => some '\t'
  | 'r' => some '\r'
  | '0' => some '\x00'
  | '\'' => some '\''
  | _ => none

/-- Whether a character stands for itself in a literal of one line. -/
def isPlain (c : Char) : Bool := c ≠ '"' ∧ c ≠ '\\' ∧ c ≠ '\n' ∧ c ≠ '\r'

/-- A row of items, and the text that it reads as. -/
inductive Items : List Char → List Char → Prop where
  | nil : Items [] []
  | plain {c : Char} {items text : List Char} (hc : isPlain c = true) (rest : Items items text) :
    Items (c :: items) (c :: text)
  | escape {c d : Char} {items text : List Char} (hc : escaped? c = some d)
    (rest : Items items text) : Items ('\\' :: c :: items) (d :: text)

/-- A literal of one line, and the text that it reads as. -/
def IsLiteral (literal text : String) : Prop :=
  ∃ items, literal.toList = '"' :: items ++ ['"'] ∧ Items items text.toList

/-- The text that items at the beginning of a text read as, and what follows their closing
quote. -/
def readItems? : List Char → Option (List Char × List Char)
  | [] => none
  | '"' :: rest => some ([], rest)
  | '\\' :: c :: rest =>
    match escaped? c with
    | some d => (readItems? rest).map fun (text, behind) => (d :: text, behind)
    | none => none
  | c :: rest =>
    if isPlain c then (readItems? rest).map fun (text, behind) => (c :: text, behind) else none

/-- The text that a literal at the beginning of a text reads as, and what follows the literal. -/
def readLiteral? : List Char → Option (List Char × List Char)
  | '"' :: rest => readItems? rest
  | _ => none

/-! ## The reader and the grammar -/

variable {c d : Char} {s items text behind rest : List Char}

theorem readItems?_plain (hc : isPlain c = true) (rest : List Char) :
    readItems? (c :: rest) = (readItems? rest).map fun r => (c :: r.1, r.2) := by
  have hne : c ≠ '"' ∧ c ≠ '\\' ∧ c ≠ '\n' ∧ c ≠ '\r' := of_decide_eq_true hc
  rw [readItems?.eq_4 c rest hne.1 (fun _ _ h _ => hne.2.1 h), if_pos hc]

theorem readItems?_escape (hc : escaped? c = some d) (rest : List Char) :
    readItems? ('\\' :: c :: rest) = (readItems? rest).map fun r => (d :: r.1, r.2) := by
  rw [readItems?, hc]

/-- Items are read up to their closing quote, whatever follows it. -/
theorem Items.readItems? (h : Items items text) (rest : List Char) :
    readItems? (items ++ '"' :: rest) = some (text, rest) := by
  induction h with
  | nil => rfl
  | plain hc _ ih => rw [List.cons_append, readItems?_plain hc, ih, Option.map_some]
  | escape hc _ ih =>
    rw [List.cons_append, List.cons_append, readItems?_escape hc, ih, Option.map_some]

/-- Whatever is read are items and their closing quote. -/
theorem exists_items (h : Swift.readItems? s = some (text, rest)) :
    ∃ items, s = items ++ '"' :: rest ∧ Items items text := by
  induction s using readItems?.induct generalizing text with
  | case1 => simp [Swift.readItems?] at h
  | case2 rest' =>
    obtain ⟨rfl, rfl⟩ := Prod.mk.inj (Option.some.inj h)
    exact ⟨[], rfl, .nil⟩
  | case3 c rest' d hd ih =>
    rw [readItems?_escape hd] at h
    obtain ⟨⟨text', rest''⟩, hread, he⟩ := Option.map_eq_some_iff.1 h
    obtain ⟨rfl, rfl⟩ := Prod.mk.inj he
    obtain ⟨items, rfl, hitems⟩ := ih hread
    exact ⟨'\\' :: c :: items, rfl, .escape hd hitems⟩
  | case4 c rest' hd => simp [Swift.readItems?, hd] at h
  | case5 c rest' _ _ hc ih =>
    rw [readItems?_plain hc] at h
    obtain ⟨⟨text', rest''⟩, hread, he⟩ := Option.map_eq_some_iff.1 h
    obtain ⟨rfl, rfl⟩ := Prod.mk.inj he
    obtain ⟨items, rfl, hitems⟩ := ih hread
    exact ⟨c :: items, rfl, .plain hc hitems⟩
  | case6 c rest' hquote hbackslash hc =>
    rw [Swift.readItems?.eq_4 c rest' hquote hbackslash, if_neg hc] at h
    exact absurd h (by simp)

/-- **A text is a literal if it is read as one** without a rest. -/
theorem isLiteral_iff_readLiteral? {literal text : String} :
    IsLiteral literal text ↔ readLiteral? literal.toList = some (text.toList, []) := by
  constructor
  · rintro ⟨items, hliteral, hitems⟩
    rw [hliteral]
    exact hitems.readItems? []
  · intro h
    unfold readLiteral? at h
    split at h
    · rename_i s hs
      obtain ⟨items, rfl, hitems⟩ := exists_items h
      exact ⟨items, hs, hitems⟩
    · exact absurd h (by simp)

/-! ## Written literals -/

/-- A character is written as its escape or as itself, and as itself only where it may be, unless
it is a carriage return. -/
theorem literalChar_cases (hc : c ≠ '\r') :
    (∃ e, literalChar c = ['\\', e] ∧ escaped? e = some c) ∨
      literalChar c = [c] ∧ isPlain c = true := by
  by_cases hquote : c = '"'
  · subst hquote
    exact .inl ⟨'"', rfl, rfl⟩
  by_cases hbackslash : c = '\\'
  · subst hbackslash
    exact .inl ⟨'\\', rfl, rfl⟩
  by_cases hfeed : c = '\n'
  · subst hfeed
    exact .inl ⟨'n', rfl, rfl⟩
  by_cases htab : c = '\t'
  · subst htab
    exact .inl ⟨'t', rfl, rfl⟩
  refine .inr ⟨?_, decide_eq_true ⟨hquote, hbackslash, hfeed, hc⟩⟩
  unfold literalChar
  rw [if_neg hquote, if_neg hbackslash, if_neg hfeed, if_neg htab]

/-- A written character is an item that reads as this character, unless it is a carriage return. -/
theorem readItems?_literalChar (hc : c ≠ '\r') (rest : List Char) :
    readItems? (literalChar c ++ rest) = (readItems? rest).map fun r => (c :: r.1, r.2) := by
  rcases literalChar_cases hc with ⟨e, hwritten, he⟩ | ⟨hwritten, hplain⟩
  · rw [hwritten]
    exact readItems?_escape he rest
  · rw [hwritten]
    exact readItems?_plain hplain rest

/-- A carriage return is written as it is, and nothing is read from there. -/
theorem readItems?_return (rest : List Char) : readItems? (literalChar '\r' ++ rest) = none := by
  rw [show literalChar '\r' = ['\r'] from rfl, List.singleton_append, readItems?.eq_4 _ _
    (by decide) (fun _ _ h _ => absurd h (by decide)), if_neg (by decide)]

/-- **What is read of a written text,** whatever follows its closing quote. -/
theorem readItems?_flatMap_literalChar (s rest : List Char) :
    readItems? (s.flatMap literalChar ++ '"' :: rest) =
      if '\r' ∈ s then none else some (s, rest) := by
  induction s with
  | nil => rfl
  | cons c s ih =>
    rw [List.flatMap_cons, List.append_assoc]
    by_cases hc : c = '\r'
    · rw [hc, readItems?_return, if_pos List.mem_cons_self]
    · rw [readItems?_literalChar hc, ih]
      by_cases hs : '\r' ∈ s
      · rw [if_pos hs, if_pos (List.mem_cons_of_mem _ hs)]
        rfl
      · rw [if_neg hs, if_neg (by simp [hs, Ne.symm hc])]
        rfl

/-- **Which texts are read back.** The literal of a text is a literal of one line if and only if the
text holds no carriage return; then it reads as this text and as no other, and a reader stops
behind its closing quote, whatever follows. With a carriage return it cannot be read. -/
theorem isLiteral_stringLiteral_iff (value : String) :
    (∀ text, IsLiteral (stringLiteral value) text ↔ text = value ∧ '\r' ∉ value.toList) ∧
      ∀ rest, readLiteral? ((stringLiteral value).toList ++ rest) =
        if '\r' ∈ value.toList then none else some (value.toList, rest) := by
  have hread : ∀ rest, readLiteral? ((stringLiteral value).toList ++ rest) =
      if '\r' ∈ value.toList then none else some (value.toList, rest) := by
    intro rest
    unfold stringLiteral
    rw [String.toList_ofList, List.append_assoc, List.cons_append]
    exact readItems?_flatMap_literalChar value.toList rest
  refine ⟨fun text => ?_, hread⟩
  have hwhole := hread []
  rw [List.append_nil] at hwhole
  rw [isLiteral_iff_readLiteral?, hwhole]
  by_cases hreturn : '\r' ∈ value.toList
  · simp [hreturn]
  · rw [if_neg hreturn, Option.some_inj, Prod.mk.injEq, String.toList_inj]
    simp [hreturn, eq_comm]

/-- A text with quotes, a break and what would be an interpolation is read back, and one with a
carriage return is not. -/
theorem isLiteral_stringLiteral_iff_quill :
    IsLiteral (stringLiteral "a \"b\"\n\\(c)") "a \"b\"\n\\(c)" ∧
      ¬∃ text, IsLiteral (stringLiteral "a\rb") text := by
  refine ⟨((isLiteral_stringLiteral_iff _).1 _).2 ⟨rfl, by decide⟩, ?_⟩
  rintro ⟨text, h⟩
  exact (((isLiteral_stringLiteral_iff _).1 _).1 h).2 (by decide)

end SwiftBindings.Swift
