import Mathlib.Tactic.Common
import SwiftBindings.Manifest.Basic

/-!
# Words in a text

A word is looked for from the start of a text, and its place is told in bytes. What is found begins
and ends between characters, and the word begins nowhere before it.

* `Span.Marks`: a part of a text is a word.
* `findBytes?_eq_some`, `exists_findBytes?`: **a word that occurs is found where it occurs first.**
* `Span.find?_eq_some_iff`: so a part is found exactly if it is the first that is the word.
-/

namespace SwiftBindings

/-- Whether a part of a text, from a character to a character, is a word. -/
def Span.Marks (span : Span) (text word : String) : Prop :=
  ∃ front back : String, text = front ++ word ++ back ∧
    span = ⟨front.utf8ByteSize, word.utf8ByteSize⟩

/-- A word is found at its first occurrence. -/
theorem findBytes?_eq_some {word cs : List Char} {n : Nat} (h : findBytes? word cs = some n) :
    (∃ front back, cs = front ++ word ++ back ∧ n = (String.ofList front).utf8ByteSize) ∧
      ∀ front back, cs = front ++ word ++ back → n ≤ (String.ofList front).utf8ByteSize := by
  induction cs generalizing n with
  | nil =>
    unfold findBytes? at h
    split at h
    · rename_i hword
      cases h
      exact ⟨⟨[], [], by simp [hword], rfl⟩, fun _ _ _ => Nat.zero_le _⟩
    · cases h
  | cons c rest ih =>
    unfold findBytes? at h
    split at h
    · rename_i hprefixed
      cases h
      obtain ⟨back, hback⟩ := List.isPrefixOf_iff_prefix.1 hprefixed
      exact ⟨⟨[], back, hback.symm, rfl⟩, fun _ _ _ => Nat.zero_le _⟩
    · rename_i hnot
      obtain ⟨m, hm, rfl⟩ := Option.map_eq_some_iff.1 h
      obtain ⟨⟨front, back, hrest, hsize⟩, hfirst⟩ := ih hm
      refine ⟨⟨c :: front, back, by rw [hrest]; rfl, ?_⟩, ?_⟩
      · rw [String.ofList_cons, String.utf8ByteSize_append, String.utf8ByteSize_singleton, hsize]
      · intro front' back' hcut
        cases front' with
        | nil =>
          -- the word does not begin here
          refine absurd (List.isPrefixOf_iff_prefix.2 ⟨back', ?_⟩) hnot
          exact hcut.symm
        | cons d more =>
          obtain ⟨rfl, hmore⟩ := List.cons.inj hcut
          have hle := hfirst more back' hmore
          rw [String.ofList_cons, String.utf8ByteSize_append, String.utf8ByteSize_singleton]
          omega

/-- A word that occurs is found. -/
theorem exists_findBytes? {word cs front back : List Char} (h : cs = front ++ word ++ back) :
    ∃ n, findBytes? word cs = some n := by
  induction front generalizing cs with
  | nil =>
    cases cs with
    | nil =>
      have hword : word = [] := (List.append_eq_nil_iff.1 h.symm).1
      exact ⟨0, by unfold findBytes?; rw [if_pos hword]⟩
    | cons c rest =>
      have hprefixed : word.isPrefixOf (c :: rest) = true :=
        List.isPrefixOf_iff_prefix.2 ⟨back, h.symm⟩
      exact ⟨0, by unfold findBytes?; rw [if_pos hprefixed]⟩
  | cons c more ih =>
    subst h
    obtain ⟨n, hn⟩ := ih rfl
    rw [List.cons_append, List.cons_append, findBytes?, hn]
    split
    · exact ⟨_, rfl⟩
    · exact ⟨_, rfl⟩

namespace Span

variable {text word : String} {span other : Span}

theorem marks_iff : span.Marks text word ↔
    ∃ front back, text.toList = front ++ word.toList ++ back ∧
      span = ⟨(String.ofList front).utf8ByteSize, word.utf8ByteSize⟩ := by
  constructor
  · rintro ⟨front, back, rfl, rfl⟩
    refine ⟨front.toList, back.toList, ?_, ?_⟩
    · rw [String.toList_append, String.toList_append]
    · rw [String.ofList_toList]
  · rintro ⟨front, back, htext, rfl⟩
    refine ⟨String.ofList front, String.ofList back, ?_, rfl⟩
    rw [← String.toList_inj, htext, String.toList_append, String.toList_append,
      String.toList_ofList, String.toList_ofList]

theorem Marks.eq_of_offset (h : span.Marks text word) (hother : other.Marks text word)
    (hoffset : span.offset = other.offset) : span = other := by
  obtain ⟨_, _, -, rfl⟩ := h
  obtain ⟨_, _, -, rfl⟩ := hother
  simpa using hoffset

/-- **What is found is the first occurrence of a word.** -/
theorem find?_eq_some_iff : find? text word = some span ↔
    span.Marks text word ∧ ∀ other : Span, other.Marks text word → span.offset ≤ other.offset := by
  have hfound : ∀ {found : Span}, find? text word = some found →
      found.Marks text word ∧
        ∀ other : Span, other.Marks text word → found.offset ≤ other.offset := by
    intro found h
    obtain ⟨n, hn, rfl⟩ := Option.map_eq_some_iff.1 h
    obtain ⟨⟨front, back, hcut, rfl⟩, hfirst⟩ := findBytes?_eq_some hn
    refine ⟨marks_iff.2 ⟨front, back, hcut, rfl⟩, ?_⟩
    intro other hother
    obtain ⟨front', back', hcut', rfl⟩ := marks_iff.1 hother
    exact hfirst front' back' hcut'
  constructor
  · exact hfound
  · rintro ⟨hmarks, hfirst⟩
    obtain ⟨front, back, hcut, -⟩ := marks_iff.1 hmarks
    obtain ⟨n, hn⟩ := exists_findBytes? hcut
    have hsome : find? text word = some ⟨n, word.utf8ByteSize⟩ := congrArg (Option.map _) hn
    obtain ⟨hfoundMarks, hfoundFirst⟩ := hfound hsome
    have hoffset := Nat.le_antisymm (hfoundFirst span hmarks) (hfirst _ hfoundMarks)
    rw [hsome, hfoundMarks.eq_of_offset hmarks hoffset]

theorem exists_find?_of_marks (h : span.Marks text word) :
    ∃ found, find? text word = some found := by
  obtain ⟨front, back, hcut, -⟩ := marks_iff.1 h
  obtain ⟨n, hn⟩ := exists_findBytes? hcut
  exact ⟨_, congrArg (Option.map _) hn⟩

end Span

end SwiftBindings
