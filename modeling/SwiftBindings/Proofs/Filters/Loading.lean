import SwiftBindings.Proofs.FileStore.Effect
import SwiftBindings.Proofs.Layout.FileNames
import SwiftBindings.Run.Basic

/-!
# Side files beside Swift files

The names of Swift files end otherwise than those of side files, whatever the names of types hold.
So a store in which Swift files have changed has the same rules for a module, as long as every side
file can be read or is not there.

* `isSwift_moduleFile`, `isSwift_partFile`: the files of a module are Swift files.
* `SideFile.not_isSwift`: side files are not.
* `SideFile.read_eq`, `Filters.load_eq`: what is read of side files stays.
* `Plan.make_eq`: **so does the plan of a run.**
-/

namespace SwiftBindings

open FileStore

/-- Whether a location is that of a Swift file, by its name. -/
def IsSwift (l : Location) : Prop := ∃ front name, l = front ++ [name ++ swiftEnding]

namespace FileNames

theorem isSwift_moduleFile (n : FileNames) (w : Location) : IsSwift (n.moduleFile.destination w) :=
  ⟨n.folder w, n.baseName, n.destination_moduleFile w⟩

/-- A slash in the name of a part changes the folder of its file, not the ending. -/
theorem isSwift_partFile (n : FileNames) (part : String) (w : Location) :
    IsSwift ((n.partFile part).destination w) := by
  have hp : n.partFile part = ⟨n.stem ++ ("-" ++ part) ++ swiftEnding⟩ := by
    rw [String.append_assoc, ← partEnding, ← text_partFile]
  rw [hp]
  exact ⟨_, _, Path.destination_append w _ (by decide) (by decide)⟩

end FileNames

namespace SideFile

variable {f : SideFile} {s t : FileStore} {dir : Path} {name : String} {L : Set Location}

theorem mem_all (f : SideFile) : f ∈ all := by cases f <;> decide

theorem slash_notMem_ending (f : SideFile) : '/' ∉ ("." ++ f.ending).toList := by
  cases f <;> decide

/-- The path of a side file ends with the file's ending. -/
theorem path_eq (f : SideFile) (dir : Path) (name : String) :
    f.path dir name = ⟨(dir.join ⟨name⟩).text ++ ("." ++ f.ending)⟩ := by
  have hhead : ("." ++ f.ending).toList.head? ≠ some '/' := fun h =>
    f.slash_notMem_ending (List.mem_of_mem_head? h)
  rw [← FileNames.join_append dir name hhead, ← String.append_assoc]
  rfl

/-- **The name of a side file** does not end like that of a Swift file. -/
theorem not_isSwift (f : SideFile) (dir : Path) (name : String) (w : Location) :
    ¬ IsSwift ((f.path dir name).destination w) := by
  have hlength : 6 < ("." ++ f.ending).toList.length := by cases f <;> decide
  rintro ⟨front, other, he⟩
  rw [path_eq, Path.destination_append w _ f.slash_notMem_ending (by omega)] at he
  -- both endings are endings of the one name
  generalize String.ofList ((Text.pieces '/' (dir.join ⟨name⟩).text.toList).getLast
    (Text.pieces_ne_nil _ _)) = base at he
  have hlast := List.append_inj_right' he (by simp)
  have hside : ("." ++ f.ending).toList <:+ other.toList ++ swiftEnding.toList := by
    refine ⟨base.toList, ?_⟩
    rw [← String.toList_append, ← String.toList_append, List.singleton_inj.1 hlast]
  have hswift : swiftEnding.toList <:+ ("." ++ f.ending).toList :=
    List.suffix_of_suffix_length_le (List.suffix_append _ _) hside hlength.le
  revert hswift
  cases f <;> decide

theorem read_of_readBytes_eq (h : t.readBytes (f.path dir name) = s.readBytes (f.path dir name)) :
    f.read t dir name = f.read s dir name := by
  unfold read readText
  rw [h]

/-- A side file that gives no error and cannot be read is not there. -/
theorem read_eq_none (h : (f.read s dir name).isOk = true)
    (hn : ∀ bytes, s.readBytes (f.path dir name) ≠ .ok bytes) : f.read s dir name = .ok none := by
  unfold read readText at h ⊢
  cases hb : s.readBytes (f.path dir name) with
  | ok bytes => exact absurd hb (hn bytes)
  | error e =>
    rw [hb] at h
    cases e with
    | missing => rfl
    | refused | nulByte | notText => simp at h

/-- **What is read of a side file** stays if only Swift files change and it can be reached no more
than before. -/
theorem read_eq (h : ChangesOnly L s t) (hL : ∀ l ∈ L, IsSwift l)
    (hreach : ∀ l, t.locate (f.path dir name) = .ok l → s.locate (f.path dir name) = .ok l)
    (hs : (f.read s dir name).isOk = true) (ht : (f.read t dir name).isOk = true) :
    f.read t dir name = f.read s dir name := by
  have hout : ∀ w, (f.path dir name).destination w ∉ L := fun w hm =>
    not_isSwift f dir name w (hL _ hm)
  by_cases hread : ∃ bytes, s.readBytes (f.path dir name) = .ok bytes
  · obtain ⟨bytes, hb⟩ := hread
    exact read_of_readBytes_eq ((h.readBytes (hout _) hb).trans hb.symm)
  · have hnone : ∀ bytes, t.readBytes (f.path dir name) ≠ .ok bytes := by
      intro bytes hb
      obtain ⟨l, hl, hf⟩ := readBytes_eq_ok_iff.1 hb
      have hl' : l ∉ L := by
        rw [locate_eq_destination hl]
        exact hout _
      exact hread ⟨bytes, readBytes_eq_ok_iff.2 ⟨l, hreach l hl, (h.file l bytes hl').1 hf⟩⟩
    rw [read_eq_none hs (not_exists.1 hread), read_eq_none ht hnone]

end SideFile

theorem Filters.load_eq {s t : FileStore} {dir : Path} {name : String}
    (h : ∀ f : SideFile, f.read t dir name = f.read s dir name) :
    load t dir name = load s dir name := by
  have htext : (fun f : SideFile => f.text? t dir name) = fun f => f.text? s dir name := by
    funext f
    unfold SideFile.text?
    rw [h f]
  have herror : (fun f : SideFile => f.error? t dir name) = fun f => f.error? s dir name := by
    funext f
    unfold SideFile.error?
    rw [h f]
  unfold load
  rw [htext, herror]

namespace Plan

variable {synthesize : Synthesizer} {store : FileStore} {known : Registry} {m : Module}
  {o : RunOptions}

/-- Nothing is told of side files exactly if all of them can be read or are not there. -/
theorem warnings_make_eq_nil_iff : (make synthesize store known m o).warnings = [] ↔
    ∀ f : SideFile, (f.read store o.configDir o.moduleName).isOk = true := by
  show ((SideFile.all.filterMap fun f => f.error? store o.configDir o.moduleName).map
    FileError.sideFileWarning) = [] ↔ _
  rw [List.map_eq_nil_iff, List.filterMap_eq_nil_iff]
  refine ⟨fun h f => ?_, fun h f _ => ?_⟩
  · have hf := h f f.mem_all
    unfold SideFile.error? at hf
    cases hr : f.read store o.configDir o.moduleName with
    | ok text? => rfl
    | error e =>
      rw [hr] at hf
      simp at hf
  · have hf := h f
    unfold SideFile.error?
    cases hr : f.read store o.configDir o.moduleName with
    | ok text? => rfl
    | error e =>
      rw [hr] at hf
      simp at hf

/-- **The plan of a run** stays if only Swift files change, every side file can be read or is not
there, and none can be reached that could not be before. -/
theorem make_eq {files files' : FileStore} {L : Set Location} (h : ChangesOnly L files files')
    (hL : ∀ l ∈ L, IsSwift l)
    (hreach : ∀ (f : SideFile) l, files'.locate (f.path o.configDir o.moduleName) = .ok l →
      files.locate (f.path o.configDir o.moduleName) = .ok l)
    (hw : (make synthesize files known m o).warnings = [])
    (hw' : (make synthesize files' known m o).warnings = []) :
    make synthesize files' known m o = make synthesize files known m o := by
  have hread : ∀ f : SideFile, f.read files' o.configDir o.moduleName =
      f.read files o.configDir o.moduleName := fun f =>
    SideFile.read_eq h hL (hreach f) (warnings_make_eq_nil_iff.1 hw f)
      (warnings_make_eq_nil_iff.1 hw' f)
  unfold make Context.resolve
  rw [Filters.load_eq hread]

end Plan

end SwiftBindings
