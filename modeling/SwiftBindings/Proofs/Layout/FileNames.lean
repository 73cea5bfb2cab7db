import SwiftBindings.Layout.Policy
import SwiftBindings.Module.Category
import SwiftBindings.Proofs.FileStore.Destination

/-!
# Where the files of a module are

All files of a module have names that continue the same stem, so they are in one folder and their
names tell their parts apart, as long as no part holds a slash.

* `destination_moduleFile`, `destination_partFile`: the folder and the name of a file.
* `destination_partFile_inj`: different parts are in different files.
* `InFolder.locate_ne_missing`: a path into the folder that leads somewhere shows the way to all
  others.
* `destination_bucketFile_inj`, `destination_suffix_ne_bucketFile`,
  `destination_moduleFile_ne_bucketFile`: a bucket shares its file with no other bucket, no category
  with a file of its own and not with the module.
-/

namespace SwiftBindings

open FileStore

/-- The ending of the names of Swift files. -/
def swiftEnding : String := ".swift"

namespace FileNames

variable {n : FileNames} {w : Location}

/-- What all file names of a module start with. -/
def stem (n : FileNames) : String := (n.dir.join ⟨n.moduleName⟩).text

/-- The folder of a module's files. -/
def folder (n : FileNames) (w : Location) : Location :=
  (Text.pieces '/' n.stem.toList).dropLast.foldl Location.follow (Path.origin w ⟨n.stem⟩)

/-- What all names in the folder start with. -/
def baseName (n : FileNames) : String :=
  String.ofList ((Text.pieces '/' n.stem.toList).getLast (Text.pieces_ne_nil _ _))

/-- How the name of a part continues the stem. -/
def partEnding (part : String) : String := "-" ++ part ++ swiftEnding

theorem join_append (base : Path) (a : String) {x : String} (h : x.toList.head? ≠ some '/') :
    (base.join ⟨a ++ x⟩).text = (base.join ⟨a⟩).text ++ x := by
  unfold Path.join
  rw [Path.isAbsolute_append a h]
  split
  · rfl
  split
  · exact (String.append_assoc ..).symm
  · simp only [String.append_assoc]

theorem text_moduleFile (n : FileNames) : n.moduleFile.text = n.stem ++ swiftEnding :=
  join_append _ _ (by decide)

theorem text_partFile (n : FileNames) (part : String) :
    (n.partFile part).text = n.stem ++ partEnding part := by
  unfold partFile partEnding stem swiftEnding
  rw [← join_append]
  · simp only [String.append_assoc]
  · simp [String.toList_append]

/-- The paths of a module are all absolute or all relative. -/
theorem isAbsolute_moduleFile (n : FileNames) :
    n.moduleFile.isAbsolute = Path.isAbsolute ⟨n.stem⟩ := by
  rw [← Path.isAbsolute_append n.stem (x := swiftEnding) (by decide), ← text_moduleFile]

theorem isAbsolute_partFile (n : FileNames) (part : String) :
    (n.partFile part).isAbsolute = Path.isAbsolute ⟨n.stem⟩ := by
  have h : (partEnding part).toList.head? ≠ some '/' := by
    simp [partEnding, String.toList_append]
  rw [← Path.isAbsolute_append n.stem h, ← text_partFile]

theorem toList_partEnding (part : String) :
    (partEnding part).toList = '-' :: (part.toList ++ swiftEnding.toList) := by
  simp [partEnding, String.toList_append]

theorem partEnding_ne_empty (part : String) : partEnding part ≠ "" := by
  intro h
  have hempty := congrArg String.toList h
  rw [toList_partEnding] at hempty
  simp at hempty

theorem slash_notMem_partEnding {part : String} (h : '/' ∉ part.toList) :
    '/' ∉ (partEnding part).toList := by
  rw [toList_partEnding]
  simpa using ⟨h, by decide⟩

theorem partEnding_inj {a b : String} (h : partEnding a = partEnding b) : a = b := by
  have h' := congrArg String.toList h
  rw [toList_partEnding, toList_partEnding] at h'
  exact String.toList_inj.1 (List.append_cancel_right (List.cons.inj h').2)

theorem partEnding_ne (part : String) : partEnding part ≠ swiftEnding := by
  intro h
  have h' := congrArg String.toList h
  rw [toList_partEnding] at h'
  exact absurd (List.cons.inj h').1 (by decide)

/-- The module's own file is in the folder. -/
theorem destination_moduleFile (n : FileNames) (w : Location) :
    n.moduleFile.destination w = n.folder w ++ [n.baseName ++ swiftEnding] := by
  have h : n.moduleFile = ⟨n.stem ++ swiftEnding⟩ := by rw [← text_moduleFile]
  rw [h]
  exact Path.destination_append w n.stem (by decide) (by decide)

/-- The file of a part is in the folder. -/
theorem destination_partFile (n : FileNames) (w : Location) {part : String}
    (h : '/' ∉ part.toList) :
    (n.partFile part).destination w = n.folder w ++ [n.baseName ++ partEnding part] := by
  have hp : n.partFile part = ⟨n.stem ++ partEnding part⟩ := by rw [← text_partFile]
  rw [hp]
  refine Path.destination_append w n.stem (slash_notMem_partEnding h) ?_
  rw [toList_partEnding]
  simp [swiftEnding]

/-- **Different parts are in different files.** -/
theorem destination_partFile_inj {a b : String} (ha : '/' ∉ a.toList) (hb : '/' ∉ b.toList)
    (h : (n.partFile a).destination w = (n.partFile b).destination w) : a = b := by
  rw [destination_partFile n w ha, destination_partFile n w hb] at h
  have h' := List.append_cancel_left h
  simp only [List.cons.injEq, and_true] at h'
  exact partEnding_inj ((String.append_right_inj _).1 h')

theorem destination_partFile_ne_moduleFile {part : String} (h : '/' ∉ part.toList) :
    (n.partFile part).destination w ≠ n.moduleFile.destination w := by
  rw [destination_partFile n w h, destination_moduleFile]
  intro he
  have h' := List.append_cancel_left he
  simp only [List.cons.injEq, and_true] at h'
  exact partEnding_ne part ((String.append_right_inj _).1 h')

/-- Whether a path is that of a file in the folder of a module. -/
def InFolder (n : FileNames) (p : Path) : Prop :=
  ∃ ending : String, p.text = n.stem ++ ending ∧ ending ≠ "" ∧ '/' ∉ ending.toList

theorem inFolder_moduleFile (n : FileNames) : n.InFolder n.moduleFile :=
  ⟨swiftEnding, n.text_moduleFile, by decide, by decide⟩

theorem inFolder_partFile (n : FileNames) {part : String} (h : '/' ∉ part.toList) :
    n.InFolder (n.partFile part) :=
  ⟨_, n.text_partFile part, partEnding_ne_empty part, slash_notMem_partEnding h⟩

theorem InFolder.text_ne_empty {p : Path} (h : n.InFolder p) : p.text ≠ "" := by
  obtain ⟨ending, hp, hne, -⟩ := h
  intro hempty
  rw [hp, String.append_eq_empty_iff] at hempty
  exact hne hempty.2

theorem InFolder.isAbsolute {p : Path} (h : n.InFolder p) :
    p.isAbsolute = Path.isAbsolute ⟨n.stem⟩ := by
  obtain ⟨ending, hp, -, hslash⟩ := h
  have heq : p = ⟨n.stem ++ ending⟩ := by rw [← hp]
  rw [heq]
  exact Path.isAbsolute_append n.stem fun hhead => hslash (List.mem_of_head? hhead)

/-- All paths into the folder start with the same pieces. -/
theorem InFolder.exists_pieces {p : Path} (h : n.InFolder p) :
    ∃ last, Text.pieces '/' p.text.toList =
      (Text.pieces '/' n.stem.toList).dropLast ++ [last] := by
  obtain ⟨ending, hp, -, hslash⟩ := h
  rw [hp, String.toList_append]
  exact ⟨_, Text.pieces_append _ hslash⟩

/-- **If a path into the folder leads somewhere,** no directory is missing on the way to any other
file in it. -/
theorem InFolder.locate_ne_missing {s : FileStore} {l : Location} {p q : Path} (hp : n.InFolder p)
    (hq : n.InFolder q) (h : s.locate p = .ok l) : s.locate q ≠ .error .missing := by
  obtain ⟨lastOfP, hpiecesOfP⟩ := hp.exists_pieces
  obtain ⟨lastOfQ, hpiecesOfQ⟩ := hq.exists_pieces
  obtain ⟨-, hwalk⟩ := locate_eq_ok_iff.1 h
  rw [hpiecesOfP] at hwalk
  obtain ⟨folder, hfolder, hdirectory, -, -⟩ := walk_append_singleton_eq_ok_iff.1 hwalk
  have horigin : q.origin s.working = p.origin s.working := by
    unfold Path.origin
    rw [hq.isAbsolute, hp.isAbsolute]
  intro hmissing
  have hwalk := walk_of_locate_missing hq.text_ne_empty hmissing
  -- the last step is taken in the folder
  rw [horigin, hpiecesOfQ, walk_append hfolder, walk] at hwalk
  split at hwalk
  · rename_i e he
    obtain rfl := Except.error.inj hwalk
    exact step_ne_missing (by simp [hdirectory]) he
  · cases hwalk

/-! ## Buckets and suffixes -/

theorem slash_notMem_marker (b : Bucket) : '/' ∉ (String.singleton b.marker).toList := by
  have h : ∀ i : Fin 27, (Bucket.mk i).marker ≠ '/' := by decide
  simpa using (h b.index).symm

theorem inFolder_bucketFile (n : FileNames) (b : Bucket) : n.InFolder (n.bucketFile b) :=
  n.inFolder_partFile (slash_notMem_marker b)

theorem slash_notMem_suffix {c : Category} {suffix : String} (h : c.fileSuffix? = some suffix) :
    '/' ∉ suffix.toList := by
  cases c <;> simp only [Category.fileSuffix?, Option.some.injEq, reduceCtorEq] at h <;>
    subst h <;> decide

theorem suffix_ne_marker {c : Category} {suffix : String} (h : c.fileSuffix? = some suffix)
    (b : Bucket) : suffix ≠ String.singleton b.marker := by
  have hlen : 1 < suffix.toList.length := by
    cases c <;> simp only [Category.fileSuffix?, Option.some.injEq, reduceCtorEq] at h <;>
      subst h <;> decide
  intro he
  rw [he] at hlen
  simp at hlen

/-- **Different buckets are different files.** -/
theorem destination_bucketFile_inj {a b : Bucket}
    (h : (n.bucketFile a).destination w = (n.bucketFile b).destination w) : a = b := by
  have hs := destination_partFile_inj (slash_notMem_marker a) (slash_notMem_marker b) h
  exact Bucket.marker_injective (by simpa using congrArg String.toList hs)

/-- No category with a file of its own writes to a bucket. -/
theorem destination_suffix_ne_bucketFile {c : Category} {suffix : String}
    (h : c.fileSuffix? = some suffix) (b : Bucket) :
    (n.partFile suffix).destination w ≠ (n.bucketFile b).destination w := fun he =>
  suffix_ne_marker h b
    (destination_partFile_inj (slash_notMem_suffix h) (slash_notMem_marker b) he)

/-- Nor does the module's own file. -/
theorem destination_moduleFile_ne_bucketFile (b : Bucket) :
    n.moduleFile.destination w ≠ (n.bucketFile b).destination w :=
  (destination_partFile_ne_moduleFile (slash_notMem_marker b)).symm

end FileNames

end SwiftBindings
