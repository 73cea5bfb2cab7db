import SwiftBindings.Filters.SideFile
import SwiftBindings.Proofs.Table.Merge
import SwiftBindings.Proofs.Text.OneLine

/-!
# The table of renamed namespaces

A side file lists one renamed namespace per line, so no new name of a namespace holds a line feed,
whatever the file holds.

* `Filters.renamesInLine_load`: **a name is of one line after renaming, if it is before.**
-/

namespace SwiftBindings

namespace Filters

/-- The fields of a line are parts of the line. -/
theorem mem_of_mem_namespaceFields {line field : List Char} {c : Char}
    (h : field ∈ namespaceFields line) (hc : c ∈ field) : c ∈ line := by
  unfold namespaceFields at h
  dsimp only at h
  split at h
  · exact Text.mem_of_mem_pieces (List.mem_filter.1 h).1 hc
  · exact (Text.mem_of_mem_wordsFrom h hc).resolve_left (by simp)

/-- The new name in an entry is a part of its line. -/
theorem mem_of_namespacePair? {line : List Char} {e : String × String} {c : Char}
    (h : namespacePair? line = some e) (hc : c ∈ e.2.toList) : c ∈ line := by
  unfold namespacePair? at h
  split at h
  · rename_i key value more hfields
    rw [← Option.some.inj h, String.toList_ofList] at hc
    exact mem_of_mem_namespaceFields (by rw [hfields]; simp) hc
  · simp at h

/-- The new names of namespaces are of one line, whatever the side files hold. -/
theorem oneLine_of_find?_namespaces {store : FileStore} {dir : Path} {moduleName : String}
    {name value : String}
    (h : (load store dir moduleName).1.namespaces.find? name = some value) :
    Text.OneLine value := by
  have hload : (load store dir moduleName).1.namespaces =
      rule parseNamespaces .empty (SideFile.text? .namespaces store dir moduleName) := rfl
  rw [hload] at h
  cases htext : SideFile.text? .namespaces store dir moduleName with
  | none =>
    rw [htext, rule, Table.find?_empty] at h
    simp at h
  | some text =>
    rw [htext, rule] at h
    obtain ⟨line, hline, hpair⟩ := List.mem_filterMap.1 (Table.mem_of_find?_ofList h)
    exact fun hc => (Text.mem_nonEmptyLines hline).2 (mem_of_namespacePair? hpair hc)

/-- Rules that bring no line feed in when they rename a namespace. -/
def RenamesInLine (f : Filters) : Prop :=
  ∀ name, Text.OneLine name → Text.OneLine (f.renameNamespace name)

/-- **Loaded rules bring no line feed in,** whatever the side files hold. -/
theorem renamesInLine_load (store : FileStore) (dir : Path) (moduleName : String) :
    (load store dir moduleName).1.RenamesInLine := by
  intro name h
  unfold renameNamespace
  cases hfound : (load store dir moduleName).1.namespaces.find? name with
  | none => exact h
  | some value => exact oneLine_of_find?_namespaces hfound

end Filters

end SwiftBindings
