import Mathlib.Tactic.Common
import SwiftBindings.Text.Blank
import SwiftBindings.Text.Identifier

/-!
# Texts of one line

A text of one line holds no line feed. Texts that are put together of such texts are of one line,
and so are names whose case is changed and numbers.

* `OneLine`, `Visible`: a text without line feeds, and one with other characters.
* `oneLine_append`, `oneLine_intercalate`: texts put together.
* `oneLine_camel`: **camel case brings in no line feed,** since no character but the line feed has
  one in upper or in lower case.
* `oneLine_repr`: the numerals of integers are of one line.
-/

namespace SwiftBindings.Text

/-- A text without line feeds. -/
def OneLine (s : String) : Prop := '\n' ∉ s.toList

instance : DecidablePred OneLine := fun s => inferInstanceAs (Decidable ('\n' ∉ s.toList))

theorem oneLine_ofList {s : List Char} : OneLine (String.ofList s) ↔ '\n' ∉ s := by
  unfold OneLine
  rw [String.toList_ofList]

@[simp] theorem oneLine_append {s t : String} : OneLine (s ++ t) ↔ OneLine s ∧ OneLine t := by
  unfold OneLine
  rw [String.toList_append, List.mem_append, not_or]

theorem oneLine_join {l : List String} (h : ∀ s ∈ l, OneLine s) : OneLine (String.join l) := by
  unfold OneLine
  rw [String.toList_join, List.mem_flatMap]
  rintro ⟨s, hs, hm⟩
  exact h s hs hm

/-- Texts of one line with such a text between them. -/
theorem oneLine_intercalate {sep : String} {l : List String} (hsep : OneLine sep)
    (h : ∀ s ∈ l, OneLine s) : OneLine (sep.intercalate l) := by
  induction l with
  | nil =>
    rw [String.intercalate_nil]
    decide
  | cons s rest ih =>
    have hs : OneLine s := h s List.mem_cons_self
    cases rest with
    | nil => simpa using hs
    | cons t more =>
      rw [String.intercalate_cons_cons, oneLine_append, oneLine_append]
      exact ⟨⟨hs, hsep⟩, ih fun t' ht' => h t' (List.mem_cons_of_mem _ ht')⟩

/-- A text with a character that is not a line feed. -/
def Visible (s : String) : Prop := ∃ c ∈ s.toList, c ≠ '\n'

instance : DecidablePred Visible := fun s =>
  decidable_of_iff (s.toList.any (· ≠ '\n') = true) (by simp [Visible])

@[simp] theorem visible_append {s t : String} : Visible (s ++ t) ↔ Visible s ∨ Visible t := by
  simp [Visible, or_and_right, exists_or]

theorem Visible.ne_empty {s : String} (h : Visible s) : s ≠ "" := by
  rintro rfl
  exact absurd h (by decide)

/-! ## Case -/

/-- What holds of all ASCII characters, from their code points. -/
theorem of_ascii {P : Char → Prop} (h : ∀ n < 0x80, P (Char.ofNat n)) {c : Char}
    (hc : c.toNat < 0x80) : P c := by
  have hp := h c.toNat hc
  rwa [Char.ofNat_toNat] at hp

/-- Code points above the control characters are not that of the line feed. -/
theorem ofNat_ne_lineFeed {n : Nat} (h : 32 ≤ n) : '\n' ≠ Char.ofNat n := by
  intro he
  have hn : 10 = (Char.ofNat n).toNat := congrArg Char.toNat he
  by_cases hvalid : n.isValidChar
  · rw [Char.ofNat, dif_pos hvalid] at hn
    have hn : 10 = n := hn
    omega
  · rw [Char.ofNat, dif_neg hvalid] at hn
    exact absurd hn (by decide)

theorem le_capitalRuns : ∀ run ∈ capitalRuns, 32 ≤ (run.first : Int) + run.shift := by
  decide +kernel

theorem le_smallRuns : ∀ run ∈ smallRuns, 32 ≤ (run.first : Int) + run.shift := by
  decide +kernel

theorem le_capitalSequences : ∀ e ∈ capitalSequences, ∀ n ∈ e.2, 32 ≤ n := by decide +kernel

/-- Runs of code points that start above the control characters, and lead there, stay there. -/
theorem le_mapRun {runs : List CaseRun} (hruns : ∀ run ∈ runs, 32 ≤ (run.first : Int) + run.shift)
    {n : Nat} (hn : 32 ≤ n) : 32 ≤ mapRun runs n := by
  unfold mapRun
  split
  · rename_i run hfind
    -- a covered code point is at least the first of its run, and is moved as far as that
    have hcovers := List.find?_some hfind
    have hshift := hruns run (List.mem_of_find?_eq_some hfind)
    simp only [CaseRun.covers, Bool.and_eq_true, decide_eq_true_eq] at hcovers
    omega
  · exact hn

/-- Only the line feed has a line feed in upper case. -/
theorem lineFeed_notMem_upper {c : Char} (h : '\n' ≠ c) : '\n' ∉ upper c := by
  unfold upper
  split
  · rename_i hc
    have hascii : '\n' = c.toUpper → '\n' = c :=
      of_ascii (P := fun c => '\n' = c.toUpper → '\n' = c) (by decide) hc
    exact fun hm => h (hascii (List.mem_singleton.1 hm))
  · rename_i hc
    split
    · rename_i sequence hfound
      obtain ⟨front, back, he, -⟩ := List.lookup_eq_some_iff.1 hfound
      have hsequence := le_capitalSequences (c.toNat, sequence) (by rw [he]; simp)
      rw [List.mem_map]
      rintro ⟨n, hn, hm⟩
      exact ofNat_ne_lineFeed (hsequence n hn) hm.symm
    · exact fun hm =>
        ofNat_ne_lineFeed (le_mapRun le_capitalRuns (by omega)) (List.mem_singleton.1 hm)

/-- Only the line feed has a line feed in lower case. -/
theorem lineFeed_notMem_lower {c : Char} (h : '\n' ≠ c) : '\n' ∉ lower c := by
  unfold lower
  split
  · rename_i hc
    have hascii : '\n' = c.toLower → '\n' = c :=
      of_ascii (P := fun c => '\n' = c.toLower → '\n' = c) (by decide) hc
    exact fun hm => h (hascii (List.mem_singleton.1 hm))
  · rename_i hc
    split
    · decide
    · exact fun hm =>
        ofNat_ne_lineFeed (le_mapRun le_smallRuns (by omega)) (List.mem_singleton.1 hm)

theorem mem_of_mem_pieces {sep c : Char} {s piece : List Char} (h : piece ∈ pieces sep s)
    (hc : c ∈ piece) : c ∈ s := by
  induction s generalizing piece with
  | nil =>
    rw [pieces, List.mem_singleton] at h
    exact h ▸ hc
  | cons d rest ih =>
    obtain ⟨first, more, hp⟩ := List.exists_cons_of_ne_nil (pieces_ne_nil sep rest)
    rw [pieces, hp] at h
    rw [hp] at ih
    split at h
    · rcases List.mem_cons.1 h with rfl | h
      · simp at hc
      · exact List.mem_cons_of_mem _ (ih h hc)
    · rcases List.mem_cons.1 h with rfl | h
      · rcases List.mem_cons.1 hc with rfl | hc
        · exact List.mem_cons_self
        · exact List.mem_cons_of_mem _ (ih List.mem_cons_self hc)
      · exact List.mem_cons_of_mem _ (ih (List.mem_cons_of_mem _ h) hc)

theorem lineFeed_notMem_capitalize {word : List Char} (h : '\n' ∉ word) :
    '\n' ∉ capitalize word := by
  cases word with
  | nil => exact h
  | cons c rest =>
    rw [List.mem_cons, not_or] at h
    rw [capitalize, List.mem_append, not_or]
    refine ⟨lineFeed_notMem_upper h.1, ?_⟩
    rw [List.mem_flatMap]
    rintro ⟨d, hd, hm⟩
    exact lineFeed_notMem_lower (fun he => h.2 (he ▸ hd)) hm

/-- **Camel case brings in no line feed.** -/
theorem oneLine_camel {s : String} (h : OneLine s) : OneLine (camel s) := by
  have hpascal : '\n' ∉ pascalOf s.toList := by
    unfold pascalOf
    rw [List.mem_flatMap]
    rintro ⟨word, hword, hm⟩
    exact lineFeed_notMem_capitalize (fun hc => h (mem_of_mem_pieces hword hc)) hm
  unfold camel
  rw [oneLine_ofList]
  cases hp : pascalOf s.toList with
  | nil => simp [uncapitalize]
  | cons c rest =>
    rw [hp, List.mem_cons, not_or] at hpascal
    rw [uncapitalize, List.mem_append, not_or]
    exact ⟨lineFeed_notMem_lower hpascal.1, hpascal.2⟩

/-! ## Words and numerals -/

theorem mem_of_mem_wordsFrom {c : Char} {word s w : List Char} (h : w ∈ wordsFrom word s)
    (hc : c ∈ w) : c ∈ word ∨ c ∈ s := by
  induction s generalizing word with
  | nil =>
    unfold wordsFrom at h
    split at h
    · simp at h
    · rw [List.mem_singleton.1 h] at hc
      exact .inl hc
  | cons d rest ih =>
    have hrest : w ∈ wordsFrom [] rest → c ∈ word ∨ c ∈ d :: rest := fun h =>
      .inr (List.mem_cons_of_mem _ ((ih h).resolve_left (by simp)))
    unfold wordsFrom at h
    split at h
    · split at h
      · exact hrest h
      · rcases List.mem_cons.1 h with rfl | h
        · exact .inl hc
        · exact hrest h
    · rcases ih h with h | h
      · rcases List.mem_append.1 h with h | h
        · exact .inl h
        · rw [List.mem_singleton.1 h]
          exact .inr List.mem_cons_self
      · exact .inr (List.mem_cons_of_mem _ h)

theorem oneLine_natRepr (n : Nat) : OneLine n.repr := by
  unfold OneLine
  rw [Nat.toList_repr]
  intro h
  exact absurd (Nat.isDigit_of_mem_toDigits (by decide) (by decide) h) (by decide)

/-- The numeral of an integer is of one line. -/
@[simp] theorem oneLine_repr (z : Int) : OneLine z.repr := by
  cases z with
  | ofNat n => exact oneLine_natRepr n
  | negSucc n => exact oneLine_append.2 ⟨by decide, oneLine_natRepr _⟩

end SwiftBindings.Text
