import SwiftBindings.Proofs.Path.Join
import SwiftBindings.Proofs.Run.Accounting

/-!
# Files outside the output directory

The files of a module are named after its parts, and a part that holds a slash is a path of its own,
which leads out of the output directory or deeper into it. Only display names of types hold slashes,
and only with one file for each type or run of types do they name files.

* `FileNames.inDirectory_partFile_iff`: a part's file is right in the directory exactly if the part
  holds no slash.
* `Writer.prepare_changesOnly`, `Writer.writeAll_changesOnly`: a writer changes no files but those
  that it prepares and those of its chunks.
* `Plan.writes_in_directory_iff`: **all files of a run are right in its directory exactly if no name
  that a file of types is named after holds a slash.**
-/

namespace SwiftBindings

open FileStore Synthesizer Writer

namespace FileNames

variable {n : FileNames}

/-- Whether a name is that of a file of the module: its own, or that of a part. -/
def IsFileName (n : FileNames) (name : String) : Prop :=
  name = n.moduleName ++ swiftEnding ∨ ∃ part, name = n.moduleName ++ partEnding part

/-- Whether a path is that of a file of the module right in the directory. -/
def InDirectory (n : FileNames) (p : Path) : Prop :=
  ∃ name, n.IsFileName name ∧ p.components = n.dir.components ++ [.name name]

/-- The locations of the files of the module right in the directory. -/
def directFiles (n : FileNames) (working : Location) : Set Location :=
  {l | ∃ name, n.IsFileName name ∧ l = n.dir.destination working ++ [name]}

theorem InDirectory.destination_mem {p : Path} (h : n.InDirectory p) (working : Location) :
    p.destination working ∈ n.directFiles working := by
  obtain ⟨name, hname, hp⟩ := h
  refine ⟨name, hname, ?_⟩
  rw [Path.destination_eq_foldl_components, hp, List.foldl_append,
    ← Path.destination_eq_foldl_components]
  rfl

section Join

variable {c : Char} {piece : List Char} {rest : List (List Char)} {text : String}

/-- A piece with anything but dots in it is a name. -/
theorem innerComponent?_of_mem (h : c ∈ piece) (hc : c ≠ '.') :
    Path.innerComponent? piece = some (.name (String.ofList piece)) := by
  unfold Path.innerComponent?
  rw [if_neg, if_neg]
  · rintro rfl
    simp [hc] at h
  · rintro (rfl | rfl) <;> simp [hc] at h

/-- Where a text leads that is joined behind the directory, if its first piece is a name. -/
theorem components_join_of_mem (hp : Text.pieces '/' text.toList = piece :: rest) (h : c ∈ piece)
    (hc : c ≠ '.') :
    (n.dir.join ⟨text⟩).components =
      n.dir.components ++ .name (String.ofList piece) :: rest.filterMap Path.innerComponent? := by
  have habs : Path.isAbsolute ⟨text⟩ = false := by
    refine decide_eq_false fun habs => ?_
    obtain ⟨cs, hcs⟩ := List.head?_eq_some_iff.1 habs
    rw [hcs, Text.pieces, if_pos rfl] at hp
    rw [← (List.cons.inj hp).1] at h
    simp at h
  rw [Path.components_join habs, hp, List.filterMap_cons_some (innerComponent?_of_mem h hc)]
  rw [hp, List.head?_cons]
  intro hdot
  rw [Option.some.inj hdot] at h
  simp [hc] at h

theorem components_join_name (h : '/' ∉ text.toList) (hmem : c ∈ text.toList) (hc : c ≠ '.') :
    (n.dir.join ⟨text⟩).components = n.dir.components ++ [.name text] := by
  rw [components_join_of_mem (Text.pieces_of_not_mem h) hmem hc, String.ofList_toList]
  rfl

end Join

theorem inDirectory_moduleFile (hm : '/' ∉ n.moduleName.toList) : n.InDirectory n.moduleFile := by
  refine ⟨n.moduleName ++ swiftEnding, .inl rfl, components_join_name (c := 's') ?_ ?_ (by decide)⟩
  · rw [String.toList_append, List.mem_append]
    exact not_or.2 ⟨hm, by decide⟩
  · rw [String.toList_append, List.mem_append]
    exact .inr (by decide)

theorem partFile_eq (n : FileNames) (part : String) :
    n.partFile part = n.dir.join ⟨n.moduleName ++ partEnding part⟩ := by
  unfold partFile partEnding swiftEnding
  simp only [String.append_assoc]

/-- **The file of a part is right in the directory exactly if the part holds no slash.** -/
theorem inDirectory_partFile_iff (hm : '/' ∉ n.moduleName.toList) {part : String} :
    n.InDirectory (n.partFile part) ↔ '/' ∉ part.toList := by
  rw [partFile_eq]
  constructor
  · -- what stands before the first slash is one step, and what stands behind the last one another
    rintro ⟨name, -, hcomponents⟩ hslash
    obtain ⟨front, back, hpart, hfront⟩ := List.eq_append_cons_of_mem hslash
    have htext : (n.moduleName ++ partEnding part).toList =
        (n.moduleName.toList ++ '-' :: front) ++ '/' :: (back ++ swiftEnding.toList) := by
      rw [String.toList_append, toList_partEnding, hpart]
      simp [List.append_assoc]
    have hflat : '/' ∉ n.moduleName.toList ++ '-' :: front := by
      simp [hm, hfront]
    have hpieces : Text.pieces '/' (n.moduleName ++ partEnding part).toList =
        (n.moduleName.toList ++ '-' :: front) :: Text.pieces '/' (back ++ swiftEnding.toList) := by
      rw [htext, Text.pieces_append_cons, Text.pieces_of_not_mem hflat]
      rfl
    have hlast :
        (Text.pieces '/' (back ++ swiftEnding.toList)).filterMap Path.innerComponent? ≠ [] := by
      rw [Text.pieces_append back (by decide : '/' ∉ swiftEnding.toList), List.filterMap_append]
      refine List.append_ne_nil_of_right_ne_nil _ ?_
      rw [List.filterMap_cons_some (innerComponent?_of_mem (c := 's') ?_ (by decide))]
      · simp
      · exact List.mem_append_right _ (by decide)
    rw [components_join_of_mem (c := '-') hpieces (by simp) (by decide)] at hcomponents
    have htail := (List.cons.inj (List.append_cancel_left hcomponents)).2
    exact hlast htail
  · intro hpart
    refine ⟨n.moduleName ++ partEnding part, .inr ⟨part, rfl⟩,
      components_join_name (c := '-') ?_ ?_ (by decide)⟩
    · rw [String.toList_append, List.mem_append]
      exact not_or.2 ⟨hm, slash_notMem_partEnding hpart⟩
    · rw [String.toList_append, toList_partEnding]
      simp

end FileNames

/-! ## What a writer changes -/

namespace Writer

variable {w : Writer} {L : Set Location}

theorem write_changesOnly (w : Writer) (refused : Bool) (chunk : Chunk) :
    ChangesOnly {(w.names.pathOf chunk.target).destination w.store.working} w.store
      (w.write refused chunk).store := by
  obtain ⟨target, content⟩ := chunk
  cases target with
  | file p => exact (overwrite_effect w refused p content).1
  | bucket b =>
    cases hb : w.buckets? with
    | none =>
      have hw : (w.write refused ⟨.bucket b, content⟩).store = w.store := by
        show (w.send refused b content).store = w.store
        unfold send
        rw [hb]
        rfl
      rw [hw]
      exact .refl _ _
    | some made =>
      by_cases hopen : b ∈ w.closed
      · have hw : (w.write refused ⟨.bucket b, content⟩).store = w.store := by
          show (w.send refused b content).store = w.store
          unfold send
          rw [hb]
          simp only [if_pos hopen]
          rfl
        rw [hw]
        exact .refl _ _
      · exact (send_effect hb hopen refused content).1

/-- **A writer changes no files but those of its chunks.** -/
theorem writeAll_changesOnly {ws : List (Chunk × Bool)}
    (h : ∀ e ∈ ws, (w.names.pathOf e.1.target).destination w.store.working ∈ L) :
    ChangesOnly L w.store (w.writeAll ws).store := by
  induction ws generalizing w with
  | nil => exact .refl L w.store
  | cons e rest ih =>
    obtain ⟨chunk, refused⟩ := e
    have hstep := write_changesOnly w refused chunk
    have hrest : ∀ e ∈ rest, ((w.write refused chunk).names.pathOf e.1.target).destination
        (w.write refused chunk).store.working ∈ L := by
      intro e he
      rw [write_names, hstep.working]
      exact h e (List.mem_cons_of_mem _ he)
    have hfirst := h (chunk, refused) List.mem_cons_self
    exact (hstep.mono (Set.singleton_subset_iff.2 hfirst)).trans (ih hrest)

/-- **Nor does it change others when it prepares buckets.** -/
theorem prepare_changesOnly {create : Bool} {ps : List (Bucket × Fault)} {made : List Bucket}
    {w' : Writer} (hw : w.prepare create ps = (made, w'))
    (h : ∀ e ∈ ps, (w.names.bucketFile e.1).destination w.store.working ∈ L) :
    ChangesOnly L w.store w'.store := by
  induction ps generalizing w made w' with
  | nil =>
    obtain ⟨-, rfl⟩ := Prod.mk.inj hw
    exact .refl L w.store
  | cons e rest ih =>
    obtain ⟨b, fault⟩ := e
    unfold prepare at hw
    cases h₁ : w.prepareBucket create fault b with
    | mk made₁ w₁ =>
      obtain ⟨hn, -, -, -, hc, -⟩ := prepareBucket_effect h₁
      cases h₂ : w₁.prepare create rest with
      | mk more w₂ =>
        simp only [h₁, h₂] at hw
        obtain ⟨-, rfl⟩ := Prod.mk.inj hw
        have hfirst := h (b, fault) List.mem_cons_self
        refine (hc.mono (Set.singleton_subset_iff.2 hfirst)).trans (ih h₂ ?_)
        intro e he
        rw [hn, hc.working]
        exact h e (List.mem_cons_of_mem _ he)

end Writer

/-! ## Runs -/

/-- The part of the module that the file of a group is named after. -/
def groupPart (c : Category) (split : TypeSplit) (g : List Snippet) : String :=
  match c.fileSuffix? with
  | some suffix => suffix
  | none =>
    match split with
    | .alphaBuckets => String.singleton (g.headD default).bucket.marker
    | _ => (g.headD default).displayName

theorem pathOf_groupTarget (c : Category) (split : TypeSplit) (n : FileNames) (g : List Snippet) :
    n.pathOf (groupTarget c split n g) = n.partFile (groupPart c split g) := by
  unfold groupTarget groupPart
  cases c.fileSuffix? with
  | some suffix => rfl
  | none => cases split <;> rfl

/-- Only display names of types put slashes into parts. -/
theorem slash_notMem_groupPart_iff {c : Category} {split : TypeSplit} {g : List Snippet} :
    '/' ∉ (groupPart c split g).toList ↔
      (c.isType = true → split ≠ .alphaBuckets → '/' ∉ (g.headD default).displayName.toList) := by
  unfold groupPart
  cases hs : c.fileSuffix? with
  | some suffix =>
    have hc : ¬ c.isType = true := by
      rw [← Category.fileSuffix?_eq_none_iff, hs]
      simp
    exact iff_of_true (FileNames.slash_notMem_suffix hs) fun h => absurd h hc
  | none =>
    have hc : c.isType = true := Category.fileSuffix?_eq_none_iff.1 hs
    cases split with
    | alphaBuckets =>
      exact iff_of_true (FileNames.slash_notMem_marker _) fun _ h => absurd rfl h
    | groupedRuns => simp [hc]
    | filePerType => simp [hc]

namespace Plan

variable {synthesize : Synthesizer} {store : FileStore} {known : Registry} {m : Module}
  {o : RunOptions} {dir : Path} {split : TypeSplit}

/-- A run changes no files but those of its chunks and of the buckets. -/
theorem carryOut_changesOnly (ho : o.policy = .files dir split) (files : FileStore) {s : Schedule}
    (hs : (make synthesize store known m o).Schedules s) {L : Set Location}
    (hb : ∀ b, ((⟨dir, o.moduleName⟩ : FileNames).bucketFile b).destination files.working ∈ L)
    (hc : ∀ chunk ∈ (make synthesize store known m o).chunks,
      ((⟨dir, o.moduleName⟩ : FileNames).pathOf chunk.target).destination files.working ∈ L) :
    ChangesOnly L files ((make synthesize store known m o).carryOut files s).2 := by
  set plan := make synthesize store known m o
  have hready : ChangesOnly L files
      (plan.ready ⟨dir, o.moduleName⟩ split files s.preparations).store := by
    unfold ready
    cases hp : (plan.starting ⟨dir, o.moduleName⟩ files).prepare (split = .alphaBuckets)
        s.preparations with
    | mk made w =>
      have hw := prepare_changesOnly hp fun e _ => hb e.1
      simp only
      split <;> exact hw
  rw [carryOut_store (layout?_make ho)]
  refine hready.trans (writeAll_changesOnly fun e he => ?_)
  rw [ready_names, hready.working]
  exact hc e.1 (hs.writes.mem_iff.1 (List.mem_map_of_mem he))

/-- **When a run stays in its directory.** The module's own file, those of categories and the
buckets are files of the module right in the directory. The others are, too, exactly if no display
name that one of them is named after holds a slash: that of the first type in it. Then the run
changes no file elsewhere, whichever operations fail. -/
theorem writes_in_directory_iff (synthesize : Synthesizer) (store : FileStore) (known : Registry)
    (m : Module) (o : RunOptions) {dir : Path} {split : TypeSplit}
    (ho : o.policy = .files dir split) {ir : Path} (hm : o.moduleName = ir.moduleName) :
    let plan := make synthesize store known m o
    let names : FileNames := ⟨dir, o.moduleName⟩
    ((∀ chunk ∈ plan.chunks, names.InDirectory (names.pathOf chunk.target)) ↔
      ∀ c, c.isType = true → split ≠ .alphaBuckets →
        ¬ Fails synthesize plan.context m o.generateAll c →
        ∀ g ∈ groups c (snippets synthesize plan.context m o.generateAll c) split,
          '/' ∉ (g.headD default).displayName.toList) ∧
    names.InDirectory names.moduleFile ∧
    (∀ b, names.InDirectory (names.bucketFile b)) ∧
    (∀ (c : Category) suffix, c.fileSuffix? = some suffix →
      names.InDirectory (names.partFile suffix)) ∧
    ((∀ chunk ∈ plan.chunks, names.InDirectory (names.pathOf chunk.target)) →
      ∀ files s, plan.Schedules s →
        ChangesOnly (names.directFiles files.working) files (plan.carryOut files s).2) := by
  intro plan names
  have hflat : '/' ∉ names.moduleName.toList := by
    show '/' ∉ o.moduleName.toList
    rw [hm]
    exact Path.slash_notMem_moduleName ir
  have hbuckets : ∀ b, names.InDirectory (names.bucketFile b) := fun b =>
    (FileNames.inDirectory_partFile_iff hflat).2 (FileNames.slash_notMem_marker b)
  have hgroup : ∀ c g, names.InDirectory (names.pathOf (groupTarget c split names g)) ↔
      (c.isType = true → split ≠ .alphaBuckets → '/' ∉ (g.headD default).displayName.toList) := by
    intro c g
    rw [pathOf_groupTarget, FileNames.inDirectory_partFile_iff hflat, slash_notMem_groupPart_iff]
  refine ⟨⟨fun h c ht hs hok g hg => ?_, fun h chunk hc => ?_⟩,
    FileNames.inDirectory_moduleFile hflat, hbuckets, fun c suffix hs => ?_, fun h files s hs => ?_⟩
  · have hmem := (mem_chunks_make ho).2 (.inr ⟨c, hok, g, hg, rfl⟩)
    have hin := h (Chunk.ofGroup c split names g) hmem
    exact (hgroup c g).1 hin ht hs
  · rcases (mem_chunks_make ho).1 hc with rfl | ⟨c, hok, g, hg, rfl⟩
    · exact FileNames.inDirectory_moduleFile hflat
    · exact (hgroup c g).2 fun ht hs => h c ht hs hok g hg
  · exact (FileNames.inDirectory_partFile_iff hflat).2 (FileNames.slash_notMem_suffix hs)
  · exact carryOut_changesOnly ho files hs (fun b => (hbuckets b).destination_mem files.working)
      fun chunk hc => (h chunk hc).destination_mem files.working

/-- A module with a record whose display name climbs. -/
def climbers : Module := ⟨"Test", "", [⟨"Pen", some "/../../Pen", none, .record []⟩]⟩

/-- A run over it with one file per type. -/
def climberOptions : RunOptions :=
  { RunOptions.ofModule (Path.moduleName ⟨"gir/Test.gir.json"⟩) with
    outputDir? := some ⟨"out"⟩, filePerType := true }

/-- The plan of the run, declarations being written by their names. -/
def climberPlan : Plan := make (fun _ d => some d.name) ⟨.empty, []⟩ .empty climbers climberOptions

/-- Its file stands beside the directory. -/
theorem writes_in_directory_iff_climbers :
    climberOptions.policy = .files ⟨"out"⟩ .filePerType ∧
      climberOptions.moduleName = Path.moduleName ⟨"gir/Test.gir.json"⟩ ∧
      let names : FileNames := ⟨⟨"out"⟩, climberOptions.moduleName⟩
      (¬ ∀ chunk ∈ climberPlan.chunks, names.InDirectory (names.pathOf chunk.target)) ∧
      (climberPlan.carryOut ⟨.empty, []⟩ climberPlan.inOrder).2.lookup? ["Pen.swift"] =
        some (.file "Pen\n\n".toUTF8) := by
  have hpolicy : climberOptions.policy = .files ⟨"out"⟩ .filePerType := rfl
  have hname : climberOptions.moduleName = Path.moduleName ⟨"gir/Test.gir.json"⟩ := rfl
  have hok : ¬ Fails (fun _ d => some d.name) climberPlan.context climbers false .record := by
    rintro ⟨d, -, hd⟩
    simp at hd
  obtain ⟨hiff, -⟩ := writes_in_directory_iff (fun _ d => some d.name) ⟨.empty, []⟩ .empty climbers
    climberOptions hpolicy hname
  refine ⟨hpolicy, hname, fun h => ?_, by decide +kernel⟩
  have hslash := hiff.1 h .record rfl (by decide) hok [⟨"/../../Pen", "Pen"⟩] (by decide +kernel)
  exact absurd hslash (by decide)

end Plan

end SwiftBindings
