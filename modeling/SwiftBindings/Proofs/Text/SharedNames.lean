import Mathlib.Data.List.Basic
import Mathlib.InformationTheory.Coding.UniquelyDecodable
import SwiftBindings.Proofs.Text.OneLine

/-!
# Names that become one in Swift

Two names of a C library become the same Swift name exactly if they have the same words up to the
case of their letters: underscores are not kept, however many there are, and every word begins
with a capital and goes on in small letters, so the capitals tell where the words begin. This needs
words that begin with a letter, as a digit has no capital.

* `NameOfWords`, `foldedWords`: an ASCII name whose words begin with letters, and its words in small
  letters.
* `uniquelyDecodable_capitalized`: **words with a capital at their beginning and nowhere else can be
  told apart** once they are run together.
* `camel_eq_iff_foldedWords`: **which names become one.**
-/

namespace SwiftBindings.Text

open InformationTheory (UniquelyDecodable)

/-- The words of a name: what stands between its underscores, if anything does. -/
def nameWords (s : String) : List (List Char) :=
  (pieces '_' s.toList).filter fun word => !word.isEmpty

/-- The words of a name in small letters. -/
def foldedWords (s : String) : List (List Char) := (nameWords s).map (List.map Char.toLower)

/-- An ASCII name whose words begin with letters. -/
structure NameOfWords (s : String) : Prop where
  ascii : ∀ c ∈ s.toList, c.toNat < 0x80
  letter : ∀ word ∈ nameWords s, ∃ c rest, word = c :: rest ∧ c.isAlpha = true

instance : DecidablePred NameOfWords := fun s =>
  decidable_of_iff (s.toList.all (fun c => decide (c.toNat < 0x80)) = true ∧
      (nameWords s).all (fun word => word.head?.any Char.isAlpha) = true) <| by
    rw [List.all_eq_true, List.all_eq_true]
    constructor
    · rintro ⟨hascii, hletter⟩
      refine ⟨fun c hc => of_decide_eq_true (hascii c hc), fun word hword => ?_⟩
      cases word with
      | nil => exact absurd (hletter [] hword) (by simp)
      | cons c rest => exact ⟨c, rest, rfl, by simpa using hletter _ hword⟩
    · rintro ⟨hascii, hletter⟩
      refine ⟨fun c hc => decide_eq_true (hascii c hc), fun word hword => ?_⟩
      obtain ⟨c, rest, rfl, hc⟩ := hletter word hword
      simpa using hc

variable {s t : String} {w : List Char} {c : Char}

/-! ## Words run together -/

/-- A word with a capital at its beginning and nowhere else. -/
def Capitalized (w : List Char) : Prop :=
  ∃ c rest, w = c :: rest ∧ c.isUpper = true ∧ ∀ d ∈ rest, d.isUpper = false

/-- A word goes on up to the first capital behind its beginning. -/
theorem takeWhile_append_flatten {rest : List Char} {ws : List (List Char)}
    (hrest : ∀ d ∈ rest, d.isUpper = false) (hws : ∀ w ∈ ws, Capitalized w) :
    (rest ++ ws.flatten).takeWhile (fun d => !d.isUpper) = rest := by
  rw [List.takeWhile_append_of_pos fun d hd => by rw [hrest d hd]; rfl]
  cases ws with
  | nil => simp
  | cons w more =>
    obtain ⟨c, after, rfl, hc, -⟩ := hws w List.mem_cons_self
    rw [List.flatten_cons, List.cons_append, List.takeWhile_cons_of_neg (by simp [hc]),
      List.append_nil]

/-- **Capitalized words that are run together can be told apart.** The induction takes the words off
one by one: a word ends where the next capital stands. -/
theorem uniquelyDecodable_capitalized : UniquelyDecodable {w | Capitalized w} := by
  intro ws vs hws hvs h
  induction ws generalizing vs with
  | nil =>
    cases vs with
    | nil => rfl
    | cons v more =>
      obtain ⟨c, rest, rfl, -⟩ := hvs v List.mem_cons_self
      simp at h
  | cons w ws ih =>
    obtain ⟨c, rest, rfl, -, hrest⟩ := hws w List.mem_cons_self
    cases vs with
    | nil => simp at h
    | cons v vs =>
      obtain ⟨d, after, rfl, -, hafter⟩ := hvs v List.mem_cons_self
      have hws' : ∀ w ∈ ws, Capitalized w := fun w hw => hws w (List.mem_cons_of_mem _ hw)
      have hvs' : ∀ v ∈ vs, Capitalized v := fun v hv => hvs v (List.mem_cons_of_mem _ hv)
      rw [List.flatten_cons, List.flatten_cons, List.cons_append, List.cons_append,
        List.cons.injEq] at h
      obtain ⟨rfl, htail⟩ := h
      have hword := congrArg (List.takeWhile fun d => !d.isUpper) htail
      rw [takeWhile_append_flatten hrest hws', takeWhile_append_flatten hafter hvs'] at hword
      rw [hword] at htail
      rw [hword, ih vs hws' hvs' (List.append_cancel_left htail)]

/-! ## Words in another case -/

/-- A word with its first letter as a capital and the others as they are. -/
def raise : List Char → List Char
  | [] => []
  | c :: rest => c.toUpper :: rest

theorem toLower_toLower (hc : c.toNat < 0x80) : c.toLower.toLower = c.toLower :=
  of_ascii (P := fun c => c.toLower.toLower = c.toLower) (by decide) hc

theorem toUpper_toLower (hc : c.toNat < 0x80) : c.toLower.toUpper = c.toUpper :=
  of_ascii (P := fun c => c.toLower.toUpper = c.toUpper) (by decide) hc

theorem toLower_toUpper (hc : c.toNat < 0x80) : c.toUpper.toLower = c.toLower :=
  of_ascii (P := fun c => c.toUpper.toLower = c.toLower) (by decide) hc

theorem isUpper_toLower (hc : c.toNat < 0x80) : c.toLower.isUpper = false :=
  of_ascii (P := fun c => c.toLower.isUpper = false) (by decide) hc

theorem isUpper_toUpper (hc : c.toNat < 0x80) (ha : c.isAlpha = true) : c.toUpper.isUpper = true :=
  of_ascii (P := fun c => c.isAlpha = true → c.toUpper.isUpper = true) (by decide) hc ha

/-- A capitalized word is told by its letters without their case. -/
theorem capitalize_eq_raise (hw : ∀ c ∈ w, c.toNat < 0x80) :
    capitalize w = raise (w.map Char.toLower) := by
  cases w with
  | nil => rfl
  | cons c rest =>
    have hc := hw c List.mem_cons_self
    have hrest : rest.flatMap lower = rest.map Char.toLower := by
      rw [List.map_eq_flatMap]
      refine List.flatMap_congr fun d hd => ?_
      exact lower_ascii (hw d (List.mem_cons_of_mem _ hd))
    rw [capitalize, upper_ascii hc, hrest, List.map_cons, raise, toUpper_toLower hc]
    rfl

/-- The letters of a word that has been capitalized are those of the word. -/
theorem map_toLower_raise (hw : ∀ c ∈ w, c.toNat < 0x80) :
    (raise (w.map Char.toLower)).map Char.toLower = w.map Char.toLower := by
  cases w with
  | nil => rfl
  | cons c rest =>
    have hc := hw c List.mem_cons_self
    have hrest : (rest.map Char.toLower).map Char.toLower = rest.map Char.toLower := by
      rw [List.map_map]
      exact List.map_congr_left fun d hd => toLower_toLower (hw d (List.mem_cons_of_mem _ hd))
    rw [List.map_cons, raise, List.map_cons, toUpper_toLower hc, toLower_toUpper hc, hrest]

theorem capitalized_raise (hw : ∀ c ∈ w, c.toNat < 0x80)
    (hletter : ∃ c rest, w = c :: rest ∧ c.isAlpha = true) :
    Capitalized (raise (w.map Char.toLower)) := by
  obtain ⟨c, rest, rfl, ha⟩ := hletter
  have hc := hw c List.mem_cons_self
  refine ⟨c.toUpper, rest.map Char.toLower, ?_, isUpper_toUpper hc ha, fun d hd => ?_⟩
  · rw [List.map_cons, raise, toUpper_toLower hc]
  · obtain ⟨e, he, rfl⟩ := List.mem_map.1 hd
    exact isUpper_toLower (hw e (List.mem_cons_of_mem _ he))

/-! ## Names in another case -/

/-- Only the words of a name count in Pascal case. -/
theorem pascalOf_eq (s : String) : pascalOf s.toList = (nameWords s).flatMap capitalize := by
  unfold pascalOf nameWords
  induction pieces '_' s.toList with
  | nil => rfl
  | cons word more ih =>
    cases word with
    | nil => exact ih
    | cons c rest =>
      rw [List.filter_cons_of_pos (by rfl), List.flatMap_cons, List.flatMap_cons, ih]

namespace NameOfWords

theorem ascii_of_mem (h : NameOfWords s) (hw : w ∈ nameWords s) : ∀ c ∈ w, c.toNat < 0x80 :=
  fun c hc => h.ascii c (mem_of_mem_pieces (List.mem_filter.1 hw).1 hc)

/-- A name in Pascal case is told by its words in small letters. -/
theorem pascalOf_eq (h : NameOfWords s) : pascalOf s.toList = ((foldedWords s).map raise).flatten := by
  rw [Text.pascalOf_eq, foldedWords, List.map_map, ← List.flatMap_def]
  exact List.flatMap_congr fun w hw => capitalize_eq_raise (h.ascii_of_mem hw)

theorem capitalized (h : NameOfWords s) : ∀ w ∈ (foldedWords s).map raise, Capitalized w := by
  intro w hw
  obtain ⟨folded, hfolded, rfl⟩ := List.mem_map.1 hw
  obtain ⟨word, hword, rfl⟩ := List.mem_map.1 hfolded
  exact capitalized_raise (h.ascii_of_mem hword) (h.letter word hword)

theorem map_toLower_raise (h : NameOfWords s) :
    ((foldedWords s).map raise).map (List.map Char.toLower) = foldedWords s := by
  unfold foldedWords
  rw [List.map_map, List.map_map]
  exact List.map_congr_left fun w hw => Text.map_toLower_raise (h.ascii_of_mem hw)

/-- **Which names become one** in Pascal case. -/
theorem pascalOf_eq_iff (hs : NameOfWords s) (ht : NameOfWords t) :
    pascalOf s.toList = pascalOf t.toList ↔ foldedWords s = foldedWords t := by
  rw [hs.pascalOf_eq, ht.pascalOf_eq]
  constructor
  · intro h
    have hwords := uniquelyDecodable_capitalized _ _ hs.capitalized ht.capitalized h
    rw [← hs.map_toLower_raise, ← ht.map_toLower_raise, hwords]
  · intro h
    rw [h]

theorem pascalOf_eq_nil_iff (h : NameOfWords s) : pascalOf s.toList = [] ↔ nameWords s = [] := by
  rw [h.pascalOf_eq, List.flatten_eq_nil_iff]
  constructor
  · intro hnil
    rw [← List.map_eq_nil_iff (f := List.map Char.toLower), ← foldedWords,
      ← List.map_eq_nil_iff (f := raise)]
    refine List.eq_nil_iff_forall_not_mem.2 fun w hw => ?_
    obtain ⟨c, rest, rfl, -⟩ := h.capitalized w hw
    exact List.cons_ne_nil c rest (hnil _ hw)
  · intro hnil
    rw [foldedWords, hnil]
    simp

/-- A name with words begins with a capital in Pascal case. -/
theorem exists_pascalOf (h : NameOfWords s) (hne : pascalOf s.toList ≠ []) :
    ∃ c rest, pascalOf s.toList = c :: rest ∧ c.isUpper = true := by
  rw [h.pascalOf_eq] at hne ⊢
  have hcap := h.capitalized
  cases hw : (foldedWords s).map raise with
  | nil =>
    rw [hw] at hne
    exact absurd rfl hne
  | cons w more =>
    obtain ⟨c, rest, rfl, hc, -⟩ := hcap w (by rw [hw]; exact List.mem_cons_self)
    exact ⟨c, rest ++ more.flatten, rfl, hc⟩

end NameOfWords

theorem lt_of_isUpper (hc : c.isUpper = true) : c.toNat < 0x80 := by
  have hz : c.val ≤ 'Z'.val := (of_decide_eq_true hc).2
  have hn : c.toNat ≤ 'Z'.toNat := UInt32.le_iff_toNat_le.1 hz
  have hbound : 'Z'.toNat < 0x80 := by decide
  omega

theorem toUpper_toLower_of_isUpper (hc : c.isUpper = true) : c.toLower.toUpper = c :=
  of_ascii (P := fun c => c.isUpper = true → c.toLower.toUpper = c) (by decide) (lt_of_isUpper hc) hc

/-- Camel case tells names apart as Pascal case does: the first capital is known from its small
letter. -/
theorem NameOfWords.uncapitalize_eq_iff (hs : NameOfWords s) (ht : NameOfWords t) :
    uncapitalize (pascalOf s.toList) = uncapitalize (pascalOf t.toList) ↔
      pascalOf s.toList = pascalOf t.toList := by
  refine ⟨fun h => ?_, fun h => by rw [h]⟩
  have hsmall : ∀ {c : Char} {rest : List Char}, c.isUpper = true →
      uncapitalize (c :: rest) = c.toLower :: rest := by
    intro c rest hc
    rw [uncapitalize, lower_ascii (lt_of_isUpper hc)]
    rfl
  by_cases hsn : pascalOf s.toList = [] <;> by_cases htn : pascalOf t.toList = []
  · rw [hsn, htn]
  · obtain ⟨d, after, hd, hdu⟩ := ht.exists_pascalOf htn
    rw [hsn, hd, hsmall hdu] at h
    exact absurd h (List.cons_ne_nil _ _).symm
  · obtain ⟨c, rest, hc, hcu⟩ := hs.exists_pascalOf hsn
    rw [htn, hc, hsmall hcu] at h
    exact absurd h (List.cons_ne_nil _ _)
  · obtain ⟨c, rest, hc, hcu⟩ := hs.exists_pascalOf hsn
    obtain ⟨d, after, hd, hdu⟩ := ht.exists_pascalOf htn
    rw [hc, hd, hsmall hcu, hsmall hdu, List.cons.injEq] at h
    have hfirst : c = d := by
      rw [← toUpper_toLower_of_isUpper hcu, h.1, toUpper_toLower_of_isUpper hdu]
    rw [hc, hd, hfirst, h.2]

theorem uncapitalize_eq_nil_iff (h : NameOfWords s) :
    uncapitalize (pascalOf s.toList) = [] ↔ pascalOf s.toList = [] := by
  refine ⟨fun hnil => ?_, fun hnil => by rw [hnil]; rfl⟩
  by_contra hne
  obtain ⟨c, rest, hc, hcu⟩ := h.exists_pascalOf hne
  rw [hc, uncapitalize, lower_ascii (lt_of_isUpper hcu)] at hnil
  exact List.cons_ne_nil _ _ hnil

/-- **Which names become one in Swift.** Of ASCII names whose words begin with letters, two have the
same camel case if and only if they have the same words in the same order up to the case of their
letters; the same decides whether they have the same Pascal case. Nothing is left of a name exactly
if it has no word. -/
theorem camel_eq_iff_foldedWords (hs : NameOfWords s) (ht : NameOfWords t) :
    (camel s = camel t ↔ foldedWords s = foldedWords t) ∧
      (pascal s = pascal t ↔ foldedWords s = foldedWords t) ∧
      (camel s = "" ↔ nameWords s = []) ∧ (pascal s = "" ↔ nameWords s = []) := by
  have hempty : ∀ cs : List Char, String.ofList cs = "" ↔ cs = [] := fun cs => String.ofList_inj
  unfold camel pascal
  refine ⟨?_, ?_, ?_, ?_⟩
  · rw [String.ofList_inj, hs.uncapitalize_eq_iff ht, hs.pascalOf_eq_iff ht]
  · rw [String.ofList_inj, hs.pascalOf_eq_iff ht]
  · rw [hempty, uncapitalize_eq_nil_iff hs, hs.pascalOf_eq_nil_iff]
  · rw [hempty, hs.pascalOf_eq_nil_iff]

/-- Underscores and the case of letters do not tell two names apart; where a word begins does. A name
of underscores leaves nothing. -/
theorem camel_eq_iff_foldedWords_window :
    camel "gtk_WINDOW__type2_" = camel "_GTK_Window_TYPE2" ∧
      camel "gtk_window" ≠ camel "gtkwindow" ∧ pascal "__" = "" := by
  have hsame := camel_eq_iff_foldedWords (s := "gtk_WINDOW__type2_") (t := "_GTK_Window_TYPE2")
    (by decide) (by decide)
  have hother := camel_eq_iff_foldedWords (s := "gtk_window") (t := "gtkwindow") (by decide)
    (by decide)
  have hnone := camel_eq_iff_foldedWords (s := "__") (t := "__") (by decide) (by decide)
  exact ⟨hsame.1.2 (by decide), fun h => absurd (hother.1.1 h) (by decide),
    hnone.2.2.2.2 (by decide)⟩

end SwiftBindings.Text
