import Mathlib.Tactic.Common
import SwiftBindings.Proofs.Filters.Namespaces
import SwiftBindings.Proofs.Table.Merge

/-!
# Namespace tables as texts

A table of renamed namespaces is written with one line per entry, its key and its value with a tab
between them. What stands in such a line may hold white space, since a line with two fields between
tabs is not cut at anything else, but neither tabs nor line feeds; and a carriage return at the end
of a value would be taken for a part of the line end.

* `parseNamespaces_append`: **the table of two texts** is that of the first with the entries of the
  second inserted.
* `isField_of_mem_parseNamespaces`: what is read can stand in a line.
* `namespaces_read_back`: **a table is read back from its lines.**
-/

namespace SwiftBindings

namespace Text

variable {s t line : List Char}

/-- The lines of two texts with a line feed between them. -/
theorem nonEmptyLinesOf_append_cons (s t : List Char) :
    nonEmptyLinesOf (s ++ '\n' :: t) = nonEmptyLinesOf s ++ nonEmptyLinesOf t := by
  unfold nonEmptyLinesOf
  rw [pieces_append_cons, List.map_append, List.filter_append]

theorem nonEmptyLinesOf_line (hne : line ≠ []) (hfeed : '\n' ∉ line)
    (hreturn : line.getLast? ≠ some '\r') : nonEmptyLinesOf line = [line] := by
  have hstrip : stripReturn line = line := if_neg hreturn
  rw [nonEmptyLinesOf, pieces_of_not_mem hfeed, List.map_singleton, hstrip]
  exact List.filter_cons_of_pos (by simpa using hne)

/-- A word is not empty and holds no white space. -/
theorem mem_wordsFrom {word w : List Char} (hword : ∀ c ∈ word, isBlank c = false)
    (hw : w ∈ wordsFrom word s) : w ≠ [] ∧ ∀ c ∈ w, isBlank c = false := by
  induction s generalizing word with
  | nil =>
    rw [wordsFrom] at hw
    split at hw
    · exact absurd hw List.not_mem_nil
    · rename_i hne
      rw [List.mem_singleton.1 hw]
      exact ⟨by simpa using hne, hword⟩
  | cons c rest ih =>
    have hnone : ∀ d ∈ ([] : List Char), isBlank d = false := fun d hd => absurd hd List.not_mem_nil
    rw [wordsFrom] at hw
    split at hw
    · split at hw
      · exact ih hnone hw
      · rename_i hne
        rcases List.mem_cons.1 hw with rfl | hmore
        · exact ⟨by simpa using hne, hword⟩
        · exact ih hnone hmore
    · rename_i hc
      refine ih (fun d hd => ?_) hw
      rcases List.mem_append.1 hd with hd | hd
      · exact hword d hd
      · rw [List.mem_singleton.1 hd]
        simpa using hc

end Text

namespace Filters

/-- A text that can stand in a line of the namespace table. -/
def IsField (s : String) : Prop := s ≠ "" ∧ '\t' ∉ s.toList ∧ '\n' ∉ s.toList

instance : DecidablePred IsField := fun s =>
  inferInstanceAs (Decidable (s ≠ "" ∧ '\t' ∉ s.toList ∧ '\n' ∉ s.toList))

/-- A table that can be written with one line per entry. -/
structure WritableTable (t : Table String String) : Prop where
  nodup_keys : t.keys.Nodup
  key : ∀ e ∈ t.entries, IsField e.1
  value : ∀ e ∈ t.entries, IsField e.2 ∧ e.2.toList.getLast? ≠ some '\r'

/-- The line of an entry. -/
def namespaceLine (e : String × String) : String := e.1 ++ "\t" ++ e.2

/-- The text of a table, one line per entry. -/
def writeNamespaces (t : Table String String) : String :=
  String.join (t.entries.map fun e => namespaceLine e ++ "\n")

variable {line field : List Char} {e : String × String} {t : Table String String}

/-! ## What is read -/

/-- The table of two texts with a line feed between them. -/
theorem parseNamespaces_append (a b : String) :
    parseNamespaces (a ++ "\n" ++ b) =
      (parseNamespaces a).insertAll (parseNamespaces b).entries := by
  have hlines : Text.nonEmptyLinesOf (a ++ "\n" ++ b).toList =
      Text.nonEmptyLinesOf a.toList ++ Text.nonEmptyLinesOf b.toList := by
    rw [String.toList_append, String.toList_append, List.append_assoc]
    exact Text.nonEmptyLinesOf_append_cons a.toList b.toList
  unfold parseNamespaces
  rw [hlines, List.filterMap_append, Table.ofList_append]

/-- A field of a line is not empty and holds no tab. -/
theorem tab_notMem_of_mem_namespaceFields (h : field ∈ namespaceFields line) :
    field ≠ [] ∧ '\t' ∉ field := by
  unfold namespaceFields at h
  dsimp only at h
  split at h
  · obtain ⟨hpiece, hne⟩ := List.mem_filter.1 h
    exact ⟨by simpa using hne, Text.not_mem_of_mem_pieces hpiece⟩
  · obtain ⟨hne, hblank⟩ := Text.mem_wordsFrom (fun c hc => absurd hc List.not_mem_nil) h
    refine ⟨hne, fun htab => ?_⟩
    have hnot := hblank '\t' htab
    exact absurd hnot (by decide)

/-- What stands in a line of one text can stand in a line. -/
theorem isField_of_mem_namespaceFields (hline : '\n' ∉ line) (h : field ∈ namespaceFields line) :
    IsField (String.ofList field) := by
  obtain ⟨hne, htab⟩ := tab_notMem_of_mem_namespaceFields h
  refine ⟨fun hempty => hne (String.ofList_eq_empty_iff.1 hempty), ?_, ?_⟩
  · rw [String.toList_ofList]
    exact htab
  · rw [String.toList_ofList]
    exact fun hfeed => hline (mem_of_mem_namespaceFields h hfeed)

/-- **What is read can stand in a line,** whatever the text. -/
theorem isField_of_mem_parseNamespaces {text : String}
    (h : e ∈ (parseNamespaces text).entries) : IsField e.1 ∧ IsField e.2 := by
  have hmem := (Table.mem_entries_insertAll h).resolve_right List.not_mem_nil
  obtain ⟨line, hline, hpair⟩ := List.mem_filterMap.1 hmem
  have hfeed := (Text.mem_nonEmptyLines hline).2
  unfold namespacePair? at hpair
  split at hpair
  · rename_i key value more hfields
    rw [← Option.some.inj hpair]
    exact ⟨isField_of_mem_namespaceFields hfeed (by rw [hfields]; simp),
      isField_of_mem_namespaceFields hfeed (by rw [hfields]; simp)⟩
  · exact absurd hpair (by simp)

/-! ## What is written -/

/-- A line is cut at its tab, and at nothing else. -/
theorem namespacePair?_namespaceLine (hkey : IsField e.1) (hvalue : IsField e.2) :
    namespacePair? (namespaceLine e).toList = some e := by
  have hpieces : Text.pieces '\t' (namespaceLine e).toList = [e.1.toList, e.2.toList] := by
    rw [namespaceLine, String.toList_append, String.toList_append, List.append_assoc]
    change Text.pieces '\t' (e.1.toList ++ '\t' :: e.2.toList) = _
    rw [Text.pieces_append_cons, Text.pieces_of_not_mem hkey.2.1,
      Text.pieces_of_not_mem hvalue.2.1]
    rfl
  have hfields : namespaceFields (namespaceLine e).toList = [e.1.toList, e.2.toList] := by
    unfold namespaceFields
    rw [hpieces]
    simp [hkey.1, hvalue.1]
  unfold namespacePair?
  rw [hfields]
  simp

/-- An entry that can be written has one line. -/
theorem nonEmptyLinesOf_namespaceLine (hkey : IsField e.1) (hvalue : IsField e.2)
    (hreturn : e.2.toList.getLast? ≠ some '\r') :
    Text.nonEmptyLinesOf (namespaceLine e).toList = [(namespaceLine e).toList] := by
  have hne : e.2.toList ≠ [] := by simpa using hvalue.1
  have hline : (namespaceLine e).toList = e.1.toList ++ '\t' :: e.2.toList := by
    rw [namespaceLine, String.toList_append, String.toList_append, List.append_assoc]
    rfl
  rw [hline]
  refine Text.nonEmptyLinesOf_line (by simp) ?_ ?_
  · simp [hkey.2.2, hvalue.2.2]
  · rw [List.getLast?_append_of_ne_nil _ (by simp), List.getLast?_cons_of_ne_nil hne]
    exact hreturn

/-- Entries are read from their lines, whether or not the last line is ended too. -/
theorem filterMap_nonEmptyLinesOf {es : List (String × String)} (hkey : ∀ e ∈ es, IsField e.1)
    (hvalue : ∀ e ∈ es, IsField e.2 ∧ e.2.toList.getLast? ≠ some '\r') {text : String}
    (htext : text = String.join (es.map fun e => namespaceLine e ++ "\n") ∨
      text = "\n".intercalate (es.map namespaceLine)) :
    (Text.nonEmptyLinesOf text.toList).filterMap namespacePair? = es := by
  induction es generalizing text with
  | nil => rcases htext with rfl | rfl <;> rfl
  | cons e rest ih =>
    have hkey' : ∀ e ∈ rest, IsField e.1 := fun e he => hkey e (List.mem_cons_of_mem _ he)
    have hvalue' : ∀ e ∈ rest, IsField e.2 ∧ e.2.toList.getLast? ≠ some '\r' :=
      fun e he => hvalue e (List.mem_cons_of_mem _ he)
    have hfield := hkey e List.mem_cons_self
    obtain ⟨hfield', hreturn⟩ := hvalue e List.mem_cons_self
    -- the first line is the first entry, and the text behind it holds the others
    have hfirst : (Text.nonEmptyLinesOf (namespaceLine e).toList).filterMap namespacePair? = [e] := by
      rw [nonEmptyLinesOf_namespaceLine hfield hfield' hreturn]
      simp [namespacePair?_namespaceLine hfield hfield']
    have hsplit : ∀ behind : String,
        (Text.nonEmptyLinesOf behind.toList).filterMap namespacePair? = rest →
        (Text.nonEmptyLinesOf (namespaceLine e ++ "\n" ++ behind).toList).filterMap
          namespacePair? = e :: rest := by
      intro behind hbehind
      rw [String.toList_append, String.toList_append, List.append_assoc]
      change (Text.nonEmptyLinesOf ((namespaceLine e).toList ++ '\n' :: behind.toList)).filterMap
        namespacePair? = e :: rest
      rw [Text.nonEmptyLinesOf_append_cons, List.filterMap_append, hfirst, hbehind]
      rfl
    rcases htext with rfl | rfl
    · rw [List.map_cons, String.join_cons]
      exact hsplit _ (ih hkey' hvalue' (.inl rfl))
    · cases rest with
      | nil =>
        rw [List.map_singleton, String.intercalate_singleton]
        exact hfirst
      | cons e' more =>
        rw [List.map_cons, List.map_cons, String.intercalate_cons_cons]
        exact hsplit _ (ih hkey' hvalue' (.inr rfl))

/-- **Namespace tables are read back.** A table whose keys are distinct, none of whose fields is
empty or holds a tab or a line feed, and none of whose values ends with a carriage return is read
back from its lines, entry by entry in their order, whether or not the last line is ended too. The
table of two texts with a line feed between them is that of the first with the entries of the second
inserted in their order: the keys of the first keep their places, new ones follow, and the values
are those of the second where it has any. Whatever a text holds, all that is read of it could stand
in a line: no key or value is empty or holds a tab or a line feed. -/
theorem namespaces_read_back :
    (∀ t : Table String String, WritableTable t →
      parseNamespaces (writeNamespaces t) = t ∧
        parseNamespaces ("\n".intercalate (t.entries.map namespaceLine)) = t) ∧
      (∀ a b : String,
        let first := parseNamespaces a
        let second := parseNamespaces b
        let both := parseNamespaces (a ++ "\n" ++ b)
        both = first.insertAll second.entries ∧
          both.keys = first.keys ++ second.keys.filter (· ∉ first.keys) ∧
          ∀ k, both.find? k = (second.find? k).or (first.find? k)) ∧
      ∀ text : String, (parseNamespaces text).keys.Nodup ∧
        ∀ e ∈ (parseNamespaces text).entries, IsField e.1 ∧ IsField e.2 := by
  have hnodup : ∀ text : String, (parseNamespaces text).keys.Nodup :=
    fun text => Table.nodup_keys_ofList _
  refine ⟨fun t ht => ?_, fun a b => ?_, fun text => ⟨hnodup text, ?_⟩⟩
  · have hread : ∀ text : String,
        (text = writeNamespaces t ∨ text = "\n".intercalate (t.entries.map namespaceLine)) →
          parseNamespaces text = t := by
      intro text htext
      unfold parseNamespaces
      rw [filterMap_nonEmptyLinesOf ht.key ht.value htext, Table.ofList_entries ht.nodup_keys]
    exact ⟨hread _ (.inl rfl), hread _ (.inr rfl)⟩
  · intro first second both
    have hboth : both = first.insertAll second.entries := parseNamespaces_append a b
    refine ⟨hboth, ?_, fun k => ?_⟩
    · rw [hboth]
      exact Table.keys_insertAll (hnodup b)
    · rw [hboth]
      exact Table.find?_insertAll (hnodup b) k
  · exact fun e he => isField_of_mem_parseNamespaces he

/-- Keys and values with spaces, one key of a space alone, are read back. -/
theorem namespaces_read_back_spaces :
    (parseNamespaces "G Lib\tG Swift\n \tGio\r \n").entries =
        [("G Lib", "G Swift"), (" ", "Gio\r ")] ∧
      (parseNamespaces "G Lib\tG Swift\n \tGio\r \r\n \tGTK").entries =
        [("G Lib", "G Swift"), (" ", "GTK")] := by
  obtain ⟨hread, happend, -⟩ := namespaces_read_back
  have htable := (hread ⟨[("G Lib", "G Swift"), (" ", "Gio\r ")]⟩
    ⟨by decide, by decide, by decide⟩).1
  have hboth := (happend "G Lib\tG Swift\n \tGio\r \r" " \tGTK").1
  exact ⟨congrArg Table.entries htable, (congrArg Table.entries hboth).trans (by decide)⟩

end Filters

end SwiftBindings
