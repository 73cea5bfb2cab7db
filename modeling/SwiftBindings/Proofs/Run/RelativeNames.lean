import Mathlib.Data.List.Forall2
import SwiftBindings.Proofs.Path.Relative
import SwiftBindings.Run.Result

/-!
# Files named from their directory

A result lists its files in the order of their paths and names each of them from the output
directory, so that callers may go through names and files side by side.

* `Path.LeadsTo`: a name leads from a directory to a file.
* `RunResult.fileNames_eq_map`: the names of a result that has a directory.
* `RunResult.names_lead_to_files`: **each name leads from the directory to its file, and different
  files have different names.**
-/

namespace SwiftBindings

namespace Path

variable {dir file other : Path} {name : String}

/-- Whether a file was joined to a directory by a relative path. -/
def JoinedTo (dir file : Path) : Prop :=
  ∃ part : Path, part.isAbsolute = false ∧ file = dir.join part

/-- Whether a name leads from a directory to a file. -/
def LeadsTo (dir : Path) (name : String) (file : Path) : Prop :=
  isAbsolute ⟨name⟩ = false ∧ (dir.join ⟨name⟩).same file = true

/-- What a file is called as seen from a directory. -/
def nameFrom (dir file : Path) : String := ((file.stripPrefix? dir).getD file).text

/-- **A file that was joined to a directory** is called by what leads to it. -/
theorem JoinedTo.leadsTo (h : JoinedTo dir file) : LeadsTo dir (nameFrom dir file) file := by
  obtain ⟨part, hpart, rfl⟩ := h
  obtain ⟨q, hq, hrelative, hsame⟩ := exists_stripPrefix?_join dir hpart
  unfold nameFrom
  rw [hq]
  exact ⟨hrelative, hsame⟩

/-- Names that are the same as paths lead to the same file. -/
theorem LeadsTo.same_of_same {otherName : String} (h : LeadsTo dir name file)
    (hother : LeadsTo dir otherName other) (hnames : same ⟨name⟩ ⟨otherName⟩ = true) :
    file.same other = true := by
  have hjoined : (dir.join ⟨name⟩).same (dir.join ⟨otherName⟩) = true := same_join_of_same hnames
  rw [same_iff] at hjoined ⊢
  rw [← same_iff.1 h.2, hjoined, same_iff.1 hother.2]

end Path

namespace RunResult

open SwiftBindings.Path (JoinedTo LeadsTo nameFrom)

variable {r : RunResult} {dir : Path}

theorem fileNames_eq_map (hdir : r.outputDir? = some dir) :
    r.fileNames = r.files.map (nameFrom dir) := by
  unfold fileNames
  rw [hdir]
  rfl

/-- **Names and files go side by side.** For every output directory, however it is spelled, and
every set of files that were joined to it by relative paths, there is a name for each file, in the
order of the files. The name is relative and leads from the directory to its file. So no two names
are equal, and none of them only spells another one differently. -/
theorem names_lead_to_files (hdir : r.outputDir? = some dir) (hfiles : r.files.Sorted)
    (hjoined : ∀ file ∈ r.files, JoinedTo dir file) :
    List.Forall₂ (LeadsTo dir) r.fileNames r.files ∧ r.fileNames.Nodup ∧
      Path.Distinct (r.fileNames.map Path.mk) := by
  have hleads : ∀ file ∈ r.files, LeadsTo dir (nameFrom dir file) file :=
    fun file hfile => (hjoined file hfile).leadsTo
  have hdistinct : r.files.Pairwise fun file other =>
      Path.same ⟨nameFrom dir file⟩ ⟨nameFrom dir other⟩ = false := by
    refine hfiles.imp_of_mem fun {file other} hfile hother horder => ?_
    refine Bool.eq_false_iff.2 fun hnames => ?_
    have hsame : file.same other = true :=
      (hleads file hfile).same_of_same (hleads other hother) hnames
    rw [Path.same_eq_false_of_order horder] at hsame
    cases hsame
  rw [fileNames_eq_map hdir]
  refine ⟨?_, ?_, ?_⟩
  · rw [List.forall₂_map_left_iff, List.forall₂_same]
    exact hleads
  · refine List.pairwise_map.2 (hdistinct.imp fun {file other} hnames hequal => ?_)
    rw [hequal, Path.same_iff.2 rfl] at hnames
    cases hnames
  · exact List.pairwise_map.2 (List.pairwise_map.2 hdistinct)

/-- A result whose directory is spelled with a dot and whose files were joined to it by paths that
start with a dot, step up and repeat slashes. -/
def penResult : RunResult where
  moduleName := "Pen"
  pkgConfigName := "pen"
  unified := ""
  outputDir? := some ⟨"./o//"⟩
  files := [⟨"./o//../Ink"⟩, ⟨"./o//./Nib//a/"⟩, ⟨"./o//Pen"⟩]
  diagnostics := []
  stats := ⟨[], 0, []⟩
  report? := none

/-- The names leave the spelling of the directory out. -/
theorem names_lead_to_files_pens :
    penResult.fileNames = ["../Ink", "Nib//a", "Pen"] ∧
      List.Forall₂ (LeadsTo ⟨"./o//"⟩) penResult.fileNames penResult.files := by
  have hfiles : penResult.files.Sorted := by
    unfold PathSet.Sorted
    decide +kernel
  have hjoined : ∀ file ∈ penResult.files, JoinedTo ⟨"./o//"⟩ file := by
    intro file hfile
    rcases List.mem_cons.1 hfile with rfl | hfile
    · exact ⟨⟨"../Ink"⟩, by decide, by decide +kernel⟩
    rcases List.mem_cons.1 hfile with rfl | hfile
    · exact ⟨⟨"./Nib//a/"⟩, by decide, by decide +kernel⟩
    · rw [List.mem_singleton.1 hfile]
      exact ⟨⟨"Pen"⟩, by decide, by decide +kernel⟩
  exact ⟨by decide +kernel, (names_lead_to_files rfl hfiles hjoined).1⟩

end RunResult

end SwiftBindings
