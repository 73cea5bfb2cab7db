import SwiftBindings.Proofs.Json.Tokens

/-!
# JSON values read back

The reader takes as many steps as it is given, and the characters of a value are more than it needs.
So what is written for a value is read back as that value, unless it cannot be written as it is: a
literal that is no text, or a number with a point and no digits behind it.

* `readValue_print`: a value in front of what ends it. The induction is on the value, over its items
  and members at once.
* `parse_print`: **the text of a value is parsed to the value.**
-/

namespace SwiftBindings.Json

open Text (isDigit)

namespace Value

mutual

/-- Whether a value is written as it is: its literals are texts, and digits follow every point. -/
def Writable : Value → Prop
  | .null => True
  | .bool _ => True
  | .number n => n.Writable
  | .string s => s.isSome = true
  | .array items => ItemsWritable items
  | .object members => MembersWritable members

/-- Whether the items of an array are written as they are. -/
def ItemsWritable : List Value → Prop
  | [] => True
  | v :: rest => v.Writable ∧ ItemsWritable rest

/-- Whether the members of an object are written as they are. -/
def MembersWritable : List (Literal × Value) → Prop
  | [] => True
  | (name, v) :: rest => name.isSome = true ∧ v.Writable ∧ MembersWritable rest

end

theorem itemsWritable_iff {items : List Value} : ItemsWritable items ↔ ∀ v ∈ items, v.Writable := by
  induction items with
  | nil => simp [ItemsWritable]
  | cons v rest ih => simp [ItemsWritable, ih]

end Value

open Value

variable {rest : List Char} {c : Char}

/-! ## Between values -/

/-- Whether a character is one of JSON's blanks. -/
def isBlank (c : Char) : Bool := c = ' ' || c = '\t' || c = '\n' || c = '\r'

theorem skipBlanks_cons (h : isBlank c = false) (cs : List Char) :
    skipBlanks (c :: cs) = c :: cs := by
  unfold skipBlanks
  rw [List.dropWhile_cons]
  show (if isBlank c = true then _ else _) = _
  rw [h]
  rfl

theorem isBlank_of_isDigit (h : isDigit c = true) : isBlank c = false := by
  have hne : ∀ b : Char, isDigit b = false → c ≠ b := by
    rintro b hb rfl
    rw [hb] at h
    exact absurd h (by decide)
  simp [isBlank, hne ' ' rfl, hne '\t' rfl, hne '\n' rfl, hne '\r' rfl]

/-- A value starts with a character that is neither blank nor closes a list. -/
theorem exists_printChars_eq_cons (v : Value) :
    ∃ c cs, v.printChars = c :: cs ∧ isBlank c = false ∧ c ≠ ']' := by
  cases v with
  | null => exact ⟨'n', _, rfl, by decide, by decide⟩
  | bool b => cases b <;> exact ⟨_, _, rfl, by decide, by decide⟩
  | number n =>
    obtain ⟨c, cs, hc, hhead⟩ := exists_print_eq_cons n
    refine ⟨c, cs, by rw [printChars, hc], ?_⟩
    rcases hhead with ⟨rfl, -⟩ | ⟨hdig, -⟩
    · decide
    · exact ⟨isBlank_of_isDigit hdig, by rintro rfl; exact absurd hdig (by decide)⟩
  | string s => exact ⟨'"', _, by rw [printChars]; rfl, by decide, by decide⟩
  | array items => exact ⟨'[', _, by rw [printChars]; rfl, by decide, by decide⟩
  | object members => exact ⟨'\x7b', _, by rw [printChars]; rfl, by decide, by decide⟩

theorem skipBlanks_printChars (v : Value) (rest : List Char) :
    skipBlanks (v.printChars ++ rest) = v.printChars ++ rest := by
  obtain ⟨c, cs, hc, hblank, -⟩ := exists_printChars_eq_cons v
  rw [hc, List.cons_append, skipBlanks_cons hblank]

/-- What stands behind an item: a comma and the other items, if there are any. -/
theorem printItems_cons (v : Value) (items : List Value) :
    printItems (v :: items) =
      v.printChars ++ (match items with | [] => [] | _ :: _ => ',' :: printItems items) := by
  cases items <;> simp [printItems]

theorem printMembers_cons (name : Literal) (v : Value) (members : List (Literal × Value)) :
    printMembers ((name, v) :: members) = printLiteral name ++ ':' :: (v.printChars ++
      (match members with | [] => [] | _ :: _ => ',' :: printMembers members)) := by
  cases members <;> simp [printMembers]

/-- A number is read wherever a sign or a digit comes first. -/
theorem readValue_of_number {steps : Nat} {cs : List Char} (h : c = '-' ∨ isDigit c = true) :
    readValue (steps + 1) (c :: cs) =
      (readNumber (c :: cs)).map fun (n, rest) => (.number n, rest) := by
  have hne : ∀ b : Char, b ≠ '-' → isDigit b = false → c ≠ b := by
    rintro b hb hd rfl
    rcases h with h | h
    · exact hb h
    · rw [hd] at h
      exact absurd h (by decide)
  have hblank : isBlank c = false := by
    rcases h with rfl | h
    · decide
    · exact isBlank_of_isDigit h
  unfold readValue
  rw [skipBlanks_cons hblank]
  split
  · rename_i heq; exact absurd (List.cons.inj heq).1 (hne '"' (by decide) (by decide))
  · rename_i heq; exact absurd (List.cons.inj heq).1 (hne '[' (by decide) (by decide))
  · rename_i heq; exact absurd (List.cons.inj heq).1 (hne '\x7b' (by decide) (by decide))
  · rename_i heq; exact absurd (List.cons.inj heq).1 (hne 'n' (by decide) (by decide))
  · rename_i heq; exact absurd (List.cons.inj heq).1 (hne 't' (by decide) (by decide))
  · rename_i heq; exact absurd (List.cons.inj heq).1 (hne 'f' (by decide) (by decide))
  · rfl

theorem readString_printLiteral {s : Literal} (hs : s.isSome = true) (rest : List Char) :
    ∃ cs, printLiteral s ++ rest = '"' :: cs ∧ readString cs = some (s, rest) := by
  obtain ⟨text, rfl⟩ := Option.isSome_iff_exists.1 hs
  refine ⟨text.toList.flatMap escapeChar ++ '"' :: rest, ?_, readString_print text rest⟩
  simp [printLiteral, printString]

theorem dropWord?_append (w rest : List Char) : dropWord? w (w ++ rest) = some rest := by
  induction w with
  | nil => rfl
  | cons c w ih => rw [List.cons_append, dropWord?, if_pos rfl, ih]

/-! ## Values -/

mutual

/-- **A value is read back**, in front of what ends a number. -/
theorem readValue_print (v : Value) (hv : v.Writable) (steps : Nat) (rest : List Char)
    (hs : v.printChars.length < steps) (hr : EndsNumber rest) :
    readValue steps (v.printChars ++ rest) = some (v, rest) := by
  obtain ⟨k, rfl⟩ : ∃ k, steps = k + 1 := ⟨steps - 1, by omega⟩
  match v with
  | .null =>
    have hword := dropWord?_append "ull".toList rest
    simp only [printChars, readValue]
    exact congrArg (Option.map _) hword
  | .bool true =>
    have hword := dropWord?_append "rue".toList rest
    simp only [printChars, readValue]
    exact congrArg (Option.map _) hword
  | .bool false =>
    have hword := dropWord?_append "alse".toList rest
    simp only [printChars, readValue]
    exact congrArg (Option.map _) hword
  | .number n =>
    obtain ⟨c, cs, hc, hhead⟩ := exists_print_eq_cons n
    have hread := readNumber_print n hv hr
    rw [printChars, hc, List.cons_append] at *
    rw [readValue_of_number (hhead.imp And.left And.left), hread]
    rfl
  | .string s =>
    obtain ⟨cs, hcs, hread⟩ := readString_printLiteral hv rest
    rw [printChars, hcs, readValue, skipBlanks_cons (by decide)]
    simp only [hread, Option.map_some]
  | .array [] => rfl
  | .array (v :: items) =>
    have hlen : (printItems (v :: items)).length + 1 < k := by
      simp only [printChars, List.length_cons, List.length_append, List.length_nil] at hs
      omega
    have hitems := readItems_print (v :: items) hv (by simp) k rest hlen
    have hskip : ∀ tail, skipBlanks (printItems (v :: items) ++ tail) =
        printItems (v :: items) ++ tail := by
      intro tail
      rw [printItems_cons, List.append_assoc, skipBlanks_printChars]
    obtain ⟨c, cs, hc, -, hclose⟩ := exists_printChars_eq_cons v
    simp only [printChars, List.cons_append, List.append_assoc, List.nil_append, readValue]
    rw [skipBlanks_cons (by decide)]
    simp only [hskip]
    split
    · rename_i heq
      rw [printItems_cons, hc] at heq
      exact absurd (List.cons.inj heq).1 hclose
    · rw [hitems, Option.map_some]
  | .object [] => rfl
  | .object ((name, v) :: members) =>
    have hlen : (printMembers ((name, v) :: members)).length + 1 < k := by
      simp only [printChars, List.length_cons, List.length_append, List.length_nil] at hs
      omega
    have hmembers := readMembers_print ((name, v) :: members) hv (by simp) k rest hlen
    obtain ⟨cs, hcs⟩ : ∃ cs, printMembers ((name, v) :: members) ++ '\x7d' :: rest = '"' :: cs := by
      rw [printMembers_cons]
      exact ⟨_, rfl⟩
    simp only [printChars, List.cons_append, List.append_assoc, List.nil_append, readValue]
    rw [skipBlanks_cons (by decide)]
    simp only [hcs] at hmembers ⊢
    rw [skipBlanks_cons (by decide)]
    simp only [hmembers, Option.map_some]
    rfl

/-- The items of an array are read back up to its bracket. -/
theorem readItems_print (items : List Value) (hi : ItemsWritable items) (hne : items ≠ [])
    (steps : Nat) (rest : List Char) (hs : (printItems items).length + 1 < steps) :
    readItems steps (printItems items ++ ']' :: rest) = some (items, rest) := by
  obtain ⟨k, rfl⟩ : ∃ k, steps = k + 1 := ⟨steps - 1, by omega⟩
  match items with
  | [] => exact absurd rfl hne
  | [v] =>
    simp only [printItems] at hs ⊢
    have hv := readValue_print v hi.1 k (']' :: rest) (by omega) (endsNumber_cons (by decide))
    simp only [readItems, hv]
    rw [skipBlanks_cons (by decide)]
    rfl
  | v :: w :: more =>
    rw [printItems_cons] at hs ⊢
    simp only [List.length_append, List.length_cons] at hs
    have hv := readValue_print v hi.1 k (',' :: (printItems (w :: more) ++ ']' :: rest)) (by omega)
      (endsNumber_cons (by decide))
    have hmore := readItems_print (w :: more) hi.2 (by simp) k rest (by omega)
    simp only [List.append_assoc, List.cons_append, readItems, hv]
    rw [skipBlanks_cons (by decide)]
    simp only [hmore, Option.map_some]

/-- The members of an object are read back up to its brace. -/
theorem readMembers_print (members : List (Literal × Value)) (hm : MembersWritable members)
    (hne : members ≠ []) (steps : Nat) (rest : List Char)
    (hs : (printMembers members).length + 1 < steps) :
    readMembers steps (printMembers members ++ '\x7d' :: rest) = some (members, rest) := by
  obtain ⟨k, rfl⟩ : ∃ k, steps = k + 1 := ⟨steps - 1, by omega⟩
  match members with
  | [] => exact absurd rfl hne
  | [(name, v)] =>
    obtain ⟨hname, hw, -⟩ := hm
    obtain ⟨cs, hcs, hread⟩ :=
      readString_printLiteral hname (':' :: (v.printChars ++ '\x7d' :: rest))
    simp only [printMembers, List.length_append, List.length_cons] at hs
    have hv := readValue_print v hw k ('\x7d' :: rest) (by omega) (endsNumber_cons (by decide))
    simp only [printMembers, List.append_assoc, List.cons_append, hcs, readMembers]
    rw [skipBlanks_cons (by decide)]
    simp only [hread]
    rw [skipBlanks_cons (by decide)]
    simp only [hv]
    rw [skipBlanks_cons (by decide)]
    rfl
  | (name, v) :: w :: more =>
    obtain ⟨hname, hw, hrest⟩ := hm
    rw [printMembers_cons] at hs ⊢
    simp only [List.length_append, List.length_cons] at hs
    obtain ⟨cs, hcs, hread⟩ := readString_printLiteral hname
      (':' :: (v.printChars ++ ',' :: (printMembers (w :: more) ++ '\x7d' :: rest)))
    have hv :=
      readValue_print v hw k (',' :: (printMembers (w :: more) ++ '\x7d' :: rest)) (by omega)
      (endsNumber_cons (by decide))
    have hmore := readMembers_print (w :: more) hrest (by simp) k rest (by omega)
    simp only [List.append_assoc, List.cons_append, hcs, readMembers]
    rw [skipBlanks_cons (by decide)]
    simp only [hread]
    rw [skipBlanks_cons (by decide)]
    simp only [hv]
    rw [skipBlanks_cons (by decide)]
    simp only [hmore, Option.map_some]

end

/-- **The text of a value is parsed to the value.** -/
theorem parse_print (v : Value) (hv : v.Writable) : parse v.print = some v := by
  have hread := readValue_print v hv (v.printChars.length + 1) [] (by omega) endsNumber_nil
  rw [List.append_nil] at hread
  unfold parse parseChars Value.print
  rw [String.toList_ofList, hread]
  rfl

end SwiftBindings.Json
