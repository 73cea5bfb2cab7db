import SwiftBindings.Proofs.Toml.ReadEntries

/-!
# What TOML readers leave

A reader gives back what follows the part that it has read, so what it leaves is an end of what it
was given. From this every place that is found while reading is a place in the document.

* `readString_suffix`, `readWord_suffix`, `readKey_suffix`: strings, words and keys.
* `skipGaps_suffix`, `endLine_suffix`: blanks, comments and line ends.
* `LeavesEnds`, `leavesEnds`: **values**, by induction on the steps, since values hold values.
* `readLine_suffix`: the lines of a document.
-/

namespace SwiftBindings.Toml

variable {cs rest : List Char} {steps depth : Nat}

/-! ## Strings -/

/-- What follows two characters of an end is an end. -/
theorem suffix_of_cons_cons {a b : Char} (h : a :: b :: rest <:+ cs) : rest <:+ cs :=
  ((List.suffix_cons b rest).trans (List.suffix_cons a _)).trans h

theorem readCodePoint_suffix {digits : Nat} {c : Char}
    (h : readCodePoint digits cs = some (c, rest)) : rest <:+ cs := by
  unfold readCodePoint at h
  dsimp only at h
  split at h
  · obtain ⟨_, _, hpair⟩ := Option.map_eq_some_iff.1 h
    rw [← (Prod.mk.inj hpair).2]
    exact List.drop_suffix digits cs
  · cases h

theorem readEscape_suffix {c : Char} (h : readEscape cs = some (c, rest)) : rest <:+ cs := by
  unfold readEscape at h
  split at h
  case h_9 | h_10 | h_11 => exact (readCodePoint_suffix h).trans (List.suffix_cons _ _)
  case h_12 => cases h
  all_goals
    cases h
    exact List.suffix_cons _ _

theorem readBasicAfter_suffix {read : List Char} {s : String}
    (h : readBasicAfter steps read cs = some (s, rest)) : rest <:+ cs := by
  induction steps generalizing read cs with
  | zero => cases h
  | succ steps ih =>
    unfold readBasicAfter at h
    split at h
    · cases h
    · cases h
      exact List.suffix_cons _ _
    · split at h
      · cases h
      · rename_i hescape
        exact (ih h).trans ((readEscape_suffix hescape).trans (List.suffix_cons _ _))
    · split at h
      · exact (ih h).trans (List.suffix_cons _ _)
      · cases h

theorem readBasic_suffix {s : String} (h : readBasic cs = some (s, rest)) : rest <:+ cs :=
  readBasicAfter_suffix h

theorem readLiteral_suffix {s : String} (h : readLiteral cs = some (s, rest)) : rest <:+ cs := by
  unfold readLiteral at h
  dsimp only at h
  split at h
  · rename_i hdrop
    split at h
    · cases h
      exact (List.suffix_cons _ _).trans (hdrop ▸ List.drop_suffix _ _)
    · cases h
  · cases h

theorem dropLineEnd_suffix (cs : List Char) : dropLineEnd cs <:+ cs := by
  unfold dropLineEnd
  split
  · exact List.suffix_cons _ _
  · exact (List.suffix_cons _ _).trans (List.suffix_cons _ _)
  · exact List.suffix_rfl

theorem skipLines_suffix (cs : List Char) : skipLines cs <:+ cs := by
  fun_induction skipLines cs with
  | case1 rest ih => exact ih.trans ((List.suffix_cons _ _).trans (List.suffix_cons _ _))
  | case2 c rest _ _ ih => exact ih.trans (List.suffix_cons _ _)
  | case3 c rest _ _ => exact List.suffix_rfl
  | case4 => exact List.suffix_rfl

theorem closeLong_suffix (quote : Char) (read rest : List Char) :
    (closeLong quote read rest).2 <:+ rest := by
  unfold closeLong
  split
  · split
    · exact (List.suffix_cons _ _).trans (List.suffix_cons _ _)
    · split
      · exact List.suffix_cons _ _
      · exact List.suffix_rfl
  · split
    · exact List.suffix_cons _ _
    · exact List.suffix_rfl
  · exact List.suffix_rfl

/-- What follows the end of a long string comes after its three quotes. -/
theorem suffix_of_closeLong {quote a b c : Char} {read after : List Char} {s : String}
    (h : some (closeLong quote read after) = some (s, rest)) :
    rest <:+ a :: b :: c :: after := by
  have hrest : rest = (closeLong quote read after).2 := by rw [Option.some.inj h]
  rw [hrest]
  exact (closeLong_suffix quote read after).trans ⟨[a, b, c], rfl⟩

theorem readLongBasicAfter_suffix {read : List Char} {s : String}
    (h : readLongBasicAfter steps read cs = some (s, rest)) : rest <:+ cs := by
  induction steps generalizing read cs with
  | zero => cases h
  | succ steps ih =>
    unfold readLongBasicAfter at h
    split at h
    · cases h
    · exact suffix_of_closeLong h
    · split at h
      · exact (ih h).trans ((skipLines_suffix _).trans (List.suffix_cons _ _))
      · split at h
        · cases h
        · rename_i hescape
          exact (ih h).trans ((readEscape_suffix hescape).trans (List.suffix_cons _ _))
    · exact (ih h).trans ((List.suffix_cons _ _).trans (List.suffix_cons _ _))
    · split at h
      · exact (ih h).trans (List.suffix_cons _ _)
      · cases h

theorem readLongLiteralAfter_suffix {read : List Char} {s : String}
    (h : readLongLiteralAfter steps read cs = some (s, rest)) : rest <:+ cs := by
  induction steps generalizing read cs with
  | zero => cases h
  | succ steps ih =>
    unfold readLongLiteralAfter at h
    split at h
    · cases h
    · exact suffix_of_closeLong h
    · exact (ih h).trans ((List.suffix_cons _ _).trans (List.suffix_cons _ _))
    · split at h
      · exact (ih h).trans (List.suffix_cons _ _)
      · cases h

theorem readString_suffix {s : String} (h : readString cs = some (s, rest)) : rest <:+ cs := by
  unfold readString at h
  split at h
  · rename_i body
    have hbody : body <:+ '"' :: '"' :: '"' :: body := ⟨['"', '"', '"'], rfl⟩
    exact (readLongBasicAfter_suffix h).trans ((dropLineEnd_suffix body).trans hbody)
  · exact (readBasic_suffix h).trans (List.suffix_cons _ _)
  · rename_i body
    have hbody : body <:+ '\'' :: '\'' :: '\'' :: body := ⟨['\'', '\'', '\''], rfl⟩
    exact (readLongLiteralAfter_suffix h).trans ((dropLineEnd_suffix body).trans hbody)
  · exact (readLiteral_suffix h).trans (List.suffix_cons _ _)
  · cases h

/-! ## Blanks and keys -/

theorem skipBlanks_suffix (cs : List Char) : skipBlanks cs <:+ cs := List.dropWhile_suffix _

theorem skipComment_suffix (h : skipComment cs = some rest) : rest <:+ cs := by
  unfold skipComment at h
  split at h
  · obtain ⟨-, hrest⟩ := Option.ite_none_right_eq_some.1 h
    rw [← Option.some.inj hrest]
    exact (List.drop_suffix _ _).trans (List.suffix_cons _ _)
  · cases h
    exact List.suffix_rfl

/-- What follows blanks and a comment is an end of the text. -/
theorem suffix_of_skipComment (h : skipComment (skipBlanks cs) = some rest) : rest <:+ cs :=
  (skipComment_suffix h).trans (skipBlanks_suffix cs)

theorem skipGaps_suffix (h : skipGaps steps cs = some rest) : rest <:+ cs := by
  induction steps generalizing cs with
  | zero => cases h
  | succ steps ih =>
    unfold skipGaps at h
    split at h
    · cases h
    · rename_i hcomment
      exact (ih h).trans ((List.suffix_cons _ _).trans (suffix_of_skipComment hcomment))
    · rename_i hcomment
      exact (ih h).trans (suffix_of_cons_cons (suffix_of_skipComment hcomment))
    · rename_i hcomment
      cases h
      exact suffix_of_skipComment hcomment

theorem endLine_suffix (h : endLine cs = some rest) : rest <:+ cs := by
  unfold endLine at h
  split at h
  · cases h
    exact List.nil_suffix
  · rename_i hcomment
    cases h
    exact (List.suffix_cons _ _).trans (suffix_of_skipComment hcomment)
  · rename_i hcomment
    cases h
    exact suffix_of_cons_cons (suffix_of_skipComment hcomment)
  · cases h

theorem readKeyPart_suffix {part : String} (h : readKeyPart cs = some (part, rest)) :
    rest <:+ cs := by
  unfold readKeyPart at h
  split at h
  · exact (readBasic_suffix h).trans (List.suffix_cons _ _)
  · exact (readLiteral_suffix h).trans (List.suffix_cons _ _)
  · dsimp only at h
    split at h
    · cases h
    · cases h
      exact List.drop_suffix _ _

theorem readKeyParts_suffix {parts : List String}
    (h : readKeyParts steps cs = some (parts, rest)) : rest <:+ cs := by
  induction steps generalizing cs parts with
  | zero => cases h
  | succ steps ih =>
    unfold readKeyParts at h
    split at h
    · cases h
    · rename_i after hpart
      have hafter : skipBlanks after <:+ cs :=
        (skipBlanks_suffix after).trans ((readKeyPart_suffix hpart).trans (skipBlanks_suffix cs))
      split at h
      · rename_i hdot
        obtain ⟨⟨_, _⟩, hparts, hpair⟩ := Option.map_eq_some_iff.1 h
        cases hpair
        exact (ih hparts).trans ((List.suffix_cons _ _).trans (hdot ▸ hafter))
      · cases h
        exact hafter

theorem readKey_eq_some {parts : List String} (h : readKey steps cs = some (parts, rest)) :
    readKeyParts steps cs = some (parts, rest) := by
  unfold readKey at h
  split at h
  · split at h
    · cases h
      assumption
    · cases h
  · cases h

theorem readKey_suffix {parts : List String} (h : readKey steps cs = some (parts, rest)) :
    rest <:+ cs :=
  readKeyParts_suffix (readKey_eq_some h)

/-! ## Values -/

theorem readWord_suffix {v : Value} (h : readWord cs = some (v, rest)) : rest <:+ cs := by
  have hdrop : ∀ n, cs.drop n <:+ cs := fun n => List.drop_suffix n cs
  have hmap : ∀ {word : List Char} {after : List Char},
      (scalar? word).map (fun v => (v, after)) = some (v, rest) → rest = after := by
    intro word after hword
    obtain ⟨_, _, hpair⟩ := Option.map_eq_some_iff.1 hword
    exact (Prod.mk.inj hpair).2.symm
  unfold readWord at h
  dsimp only at h
  split at h
  · rename_i hspace
    split at h
    · rw [hmap h]
      exact (List.drop_suffix _ _).trans ((List.suffix_cons _ _).trans (hspace ▸ hdrop _))
    · rw [hmap h]
      exact hdrop _
  · rw [hmap h]
    exact hdrop _

/-- What an entry in braces leaves, if its value leaves an end. -/
theorem readInlineEntry_suffix_of {e : Entry} (h : readInlineEntry steps depth cs = some e)
    (hvalue : readValue steps depth e.fromValue = some (e.value, e.rest) → e.rest <:+ e.fromValue) :
    e.fromValue <:+ cs ∧ e.rest <:+ cs := by
  obtain ⟨afterKey, afterMark, hkey, -, hmark, hgaps, hread⟩ := readInlineEntry_eq_some h
  have hmarked : afterMark <:+ cs :=
    (List.suffix_cons _ _).trans ((skipGaps_suffix hmark).trans (readKey_suffix hkey))
  have hfrom : e.fromValue <:+ cs := (skipGaps_suffix hgaps).trans hmarked
  exact ⟨hfrom, (hvalue hread).trans hfrom⟩

/-- Whether everything that is read in a number of steps leaves an end of what it was read from:
values, the items of arrays and the entries of tables in braces. -/
structure LeavesEnds (steps : Nat) : Prop where
  value : ∀ {depth : Nat} {cs rest : List Char} {v : Value},
    readValue steps depth cs = some (v, rest) → rest <:+ cs
  items : ∀ {depth : Nat} {cs rest : List Char} {items : List Value},
    readItems steps depth cs = some (items, rest) → rest <:+ cs
  inline : ∀ {depth : Nat} {entries after : Entries} {cs rest : List Char},
    readInline steps depth entries cs = some (after, rest) → rest <:+ cs

namespace LeavesEnds

theorem value_succ {v : Value} (hends : LeavesEnds steps)
    (h : readValue (steps + 1) depth cs = some (v, rest)) : rest <:+ cs := by
  unfold readValue at h
  split at h
  · split at h
    · cases h
    · obtain ⟨⟨_, _⟩, hitems, hpair⟩ := Option.map_eq_some_iff.1 h
      cases hpair
      exact (hends.items hitems).trans (List.suffix_cons _ _)
  · split at h
    · cases h
    · obtain ⟨⟨_, _⟩, hinline, hpair⟩ := Option.map_eq_some_iff.1 h
      cases hpair
      exact (hends.inline hinline).trans (List.suffix_cons _ _)
  · obtain ⟨⟨_, _⟩, hstring, hpair⟩ := Option.map_eq_some_iff.1 h
    cases hpair
    exact readString_suffix hstring
  · obtain ⟨⟨_, _⟩, hstring, hpair⟩ := Option.map_eq_some_iff.1 h
    cases hpair
    exact readString_suffix hstring
  · exact readWord_suffix h

theorem items_succ {items : List Value} (hends : LeavesEnds steps)
    (h : readItems (steps + 1) depth cs = some (items, rest)) : rest <:+ cs := by
  unfold readItems at h
  split at h
  · cases h
  · rename_i hgaps
    cases h
    exact (List.suffix_cons _ _).trans (skipGaps_suffix hgaps)
  · rename_i hgaps
    split at h
    · cases h
    · rename_i hvalue
      have hafter := (hends.value hvalue).trans (skipGaps_suffix hgaps)
      split at h
      · rename_i hcomma
        obtain ⟨⟨_, _⟩, hitems, hpair⟩ := Option.map_eq_some_iff.1 h
        cases hpair
        have hmore := (List.suffix_cons _ _).trans (skipGaps_suffix hcomma)
        exact (hends.items hitems).trans (hmore.trans hafter)
      · rename_i hclosed
        cases h
        exact (List.suffix_cons _ _).trans ((skipGaps_suffix hclosed).trans hafter)
      · cases h

theorem inline_succ {entries after : Entries} (hends : LeavesEnds steps)
    (h : readInline (steps + 1) depth entries cs = some (after, rest)) : rest <:+ cs := by
  have hentry : ∀ {start : List Char} {e : Entry}, skipGaps (steps + 1) cs = some start →
      readInlineEntry steps depth start = some e → e.rest <:+ cs := fun hstart he =>
    (readInlineEntry_suffix_of he hends.value).2.trans (skipGaps_suffix hstart)
  cases inlineRead_of_readInline h with
  | closed hclosed => exact (List.suffix_cons _ _).trans (skipGaps_suffix hclosed)
  | last hstart he _ hclosed =>
    exact (List.suffix_cons _ _).trans ((skipGaps_suffix hclosed).trans (hentry hstart he))
  | more hstart he _ hcomma hmore =>
    have hmoreSuffix := (List.suffix_cons _ _).trans (skipGaps_suffix hcomma)
    exact (hends.inline hmore).trans (hmoreSuffix.trans (hentry hstart he))

end LeavesEnds

/-- **What values, items of arrays and entries of tables leave** is an end of what they were read
from. -/
theorem leavesEnds (steps : Nat) : LeavesEnds steps := by
  induction steps with
  | zero => exact ⟨nofun, nofun, nofun⟩
  | succ steps ih => exact ⟨ih.value_succ, ih.items_succ, ih.inline_succ⟩

theorem readValue_suffix {v : Value} (h : readValue steps depth cs = some (v, rest)) :
    rest <:+ cs :=
  (leavesEnds steps).value h

/-! ## Entries and lines -/

theorem readInlineEntry_suffix {e : Entry} (h : readInlineEntry steps depth cs = some e) :
    e.fromValue <:+ cs ∧ e.rest <:+ cs :=
  readInlineEntry_suffix_of h readValue_suffix

theorem readLineEntry_suffix {e : Entry} (h : readLineEntry steps cs = some e) :
    e.fromValue <:+ cs ∧ e.rest <:+ cs := by
  obtain ⟨afterMark, hkey, -, hfrom, hvalue⟩ := readLineEntry_eq_some h
  have hfrom : e.fromValue <:+ cs := by
    rw [hfrom]
    exact (skipBlanks_suffix _).trans ((List.suffix_cons _ _).trans (readKey_suffix hkey))
  exact ⟨hfrom, (readValue_suffix hvalue).trans hfrom⟩

/-- **What a line leaves** is an end of the document. -/
theorem readLine_suffix {line : Line} (h : readLine steps cs = some (line, rest)) :
    rest <:+ cs := by
  cases lineRead_of_readLine h with
  | blank hend => exact (endLine_suffix hend).trans (skipBlanks_suffix cs)
  | item hstart hkey hend =>
    have hafter := suffix_of_cons_cons (readKey_suffix hkey)
    have hheader := suffix_of_cons_cons (hstart ▸ skipBlanks_suffix cs)
    exact (endLine_suffix hend).trans (hafter.trans hheader)
  | table hstart hkey hend =>
    have hafter := (List.suffix_cons _ _).trans (readKey_suffix hkey)
    have hheader := (List.suffix_cons _ _).trans (hstart ▸ skipBlanks_suffix cs)
    exact (endLine_suffix hend).trans (hafter.trans hheader)
  | entry hentry hend =>
    exact (endLine_suffix hend).trans ((readLineEntry_suffix hentry).2.trans (skipBlanks_suffix cs))

end SwiftBindings.Toml
