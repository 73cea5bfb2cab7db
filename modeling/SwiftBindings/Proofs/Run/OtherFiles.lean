import SwiftBindings.Proofs.FileStore.Grounded
import SwiftBindings.Proofs.Run.History
import SwiftBindings.Proofs.Run.Unified

/-!
# Files that are not a run's own

A run touches the module's file, the files of its chunks and the buckets, and nothing else. Without
alphabetical buckets it clears all of them before it writes, so that a bucket which is there
afterwards has been written anew or could not be removed. There is one more way for it to be there:
buckets are cleared before the directories are made, and through a directory that is still to be
made no path leads to them.

* `Writer.prepareBucket_cases`, `Writer.exists_of_prepare`: what clearing leaves of one bucket, and
  of all.
* `Writer.exists_of_writeAll`: what writing leaves.
* `Plan.bucket_after`: what a bucket is that is there after a run.
* `Plan.Misses`, `Plan.file_of_misses`: a bucket that a run cannot reach stays as it is.
* `Plan.touches_own_files`: **a run touches only its own files, and leaves no bucket of an earlier
  run that could be reached.**
-/

namespace SwiftBindings

open FileStore Synthesizer Writer

/-! ## What a writer leaves -/

namespace Writer

variable {w : Writer} {fault : Fault} {b : Bucket} {ps : List (Bucket × Fault)} {l : Location}
  {bytes : ByteArray} {chunk : Chunk} {refused : Bool}

/-- **What clearing a bucket does.** It fails, or nothing is found where the path leads, or what is
there is removed. -/
theorem prepareBucket_cases (w : Writer) (fault : Fault) (b : Bucket) :
    let p := w.names.bucketFile b
    let after := (w.prepareBucket false fault b).2.store
    ((∃ a ∈ w.preparing false fault b, a.path = p) ∧ after = w.store) ∨
      (w.store.locate p = .error .missing ∧ after = w.store) ∨
      ∃ l, w.store.locate p = .ok l ∧ Clears {l} w.store after := by
  intro p after
  cases hr : removeUnless w.store (fault = .removal) p with
  | mk r t =>
    cases r with
    | error e =>
      left
      have hpreparing : w.preparing false fault b = [⟨.configure, p, .error e⟩] := by
        unfold preparing
        simp only [hr, p]
      have hafter : after = t := by
        show (w.prepareBucket false fault b).2.store = t
        unfold prepareBucket
        simp only [hr, p]
        rfl
      refine ⟨⟨_, by rw [hpreparing]; exact List.mem_singleton_self _, rfl⟩, ?_⟩
      rw [hafter]
      exact (removeUnless_spec hr).2 (by simp)
    | ok removed =>
      right
      have hafter : after = t := by
        show (w.prepareBucket false fault b).2.store = t
        unfold prepareBucket
        simp only [hr, p, Bool.false_eq_true, if_false]
      have hclears := removeUnless_clears hr rfl
      rw [hafter]
      cases hl : w.store.locate p with
      | ok l =>
        right
        have hset : {l' | w.store.locate p = .ok l'} = {l} := by
          ext l'
          rw [hl]
          simp [eq_comm]
        rw [hset] at hclears
        exact ⟨l, rfl, hclears⟩
      | error e =>
        left
        unfold removeUnless at hr
        split at hr
        · cases hr
        unfold removeStale removeFile at hr
        rw [hl] at hr
        cases e with
        | missing => exact ⟨rfl, (Prod.mk.inj hr).2.symm⟩
        | refused | nulByte | notText => cases hr

/-- Clearing only removes files. -/
theorem exists_clears (w : Writer) (ps : List (Bucket × Fault)) :
    ∃ M, Clears M w.store (w.prepare false ps).2.store := by
  induction ps generalizing w with
  | nil => exact ⟨∅, .refl w.store⟩
  | cons e rest ih =>
    obtain ⟨b, fault⟩ := e
    obtain ⟨M, hM⟩ := ih (w.prepareBucket false fault b).2
    rcases prepareBucket_cases w fault b with ⟨-, hstore⟩ | ⟨-, hstore⟩ | ⟨l, -, hl⟩
    · rw [hstore] at hM
      exact ⟨M, hM⟩
    · rw [hstore] at hM
      exact ⟨M, hM⟩
    · exact ⟨_, hl.trans hM⟩

/-- **A bucket that is there after clearing.** Its removal has failed, or its path led nowhere and
it was there before. -/
theorem exists_of_prepare (hb : b ∈ ps.map Prod.fst)
    (hl : l = (w.names.bucketFile b).destination w.store.working)
    (h : (w.prepare false ps).2.store.lookup? l = some (.file bytes)) :
    (∃ a ∈ w.preparingAll false ps, a.path = w.names.bucketFile b) ∨
      w.store.locate (w.names.bucketFile b) = .error .missing ∧
        w.store.lookup? l = some (.file bytes) := by
  induction ps generalizing w with
  | nil => exact absurd hb List.not_mem_nil
  | cons e rest ih =>
    obtain ⟨b₁, fault⟩ := e
    have hcases := prepareBucket_cases w fault b₁
    have hnames := prepareBucket_names w false fault b₁
    have hrest : (w.prepare false ((b₁, fault) :: rest)).2 =
        ((w.prepareBucket false fault b₁).2.prepare false rest).2 := rfl
    rw [hrest] at h
    rcases List.mem_cons.1 hb with rfl | hb
    · -- the bucket is cleared first, and the others do not bring it back
      obtain ⟨M, hM⟩ := exists_clears (w.prepareBucket false fault b).2 rest
      have hfile := ((hM.file l bytes).1 h).1
      rcases hcases with ⟨⟨a, ha, hpath⟩, -⟩ | ⟨hmissing, hstore⟩ | ⟨l₁, hl₁, hclears⟩
      · exact .inl ⟨a, List.mem_append_left _ ha, hpath⟩
      · rw [hstore] at hfile
        exact .inr ⟨hmissing, hfile⟩
      · have hgone : l ∉ ({l₁} : Set Location) := ((hclears.file l bytes).1 hfile).2
        refine absurd ?_ hgone
        rw [hl, locate_eq_destination hl₁]
        rfl
    · have hworking : (w.prepareBucket false fault b₁).2.store.working = w.store.working := by
        rcases hcases with ⟨-, hstore⟩ | ⟨-, hstore⟩ | ⟨l₁, -, hclears⟩
        · rw [hstore]
        · rw [hstore]
        · exact hclears.working
      rcases ih hb (by rw [hnames, hworking]; exact hl) h with ⟨a, ha, hpath⟩ | ⟨hmissing, hfile⟩
      · rw [hnames] at hpath
        exact .inl ⟨a, List.mem_append_right _ ha, hpath⟩
      · rw [hnames] at hmissing
        rcases hcases with ⟨-, hstore⟩ | ⟨-, hstore⟩ | ⟨l₁, hl₁, hclears⟩
        · rw [hstore] at hmissing hfile
          exact .inr ⟨hmissing, hfile⟩
        · rw [hstore] at hmissing hfile
          exact .inr ⟨hmissing, hfile⟩
        · -- a bucket that is removed is in the folder, and so the folder is there
          have hthere := hclears.locate_iff.2 hl₁
          exact absurd hmissing ((w.names.inFolder_bucketFile b₁).locate_ne_missing
            (w.names.inFolder_bucketFile b) hthere)

/-- Nothing is cleared if the path of a bucket misses a directory, for then they all do. -/
theorem prepare_of_missing (h : w.store.locate (w.names.bucketFile b) = .error .missing)
    (ps : List (Bucket × Fault)) : (w.prepare false ps).2.store = w.store := by
  induction ps generalizing w with
  | nil => rfl
  | cons e rest ih =>
    obtain ⟨b₁, fault⟩ := e
    have hrest : (w.prepare false ((b₁, fault) :: rest)).2 =
        ((w.prepareBucket false fault b₁).2.prepare false rest).2 := rfl
    have hstore : (w.prepareBucket false fault b₁).2.store = w.store := by
      rcases prepareBucket_cases w fault b₁ with ⟨-, hstore⟩ | ⟨-, hstore⟩ | ⟨l, hl, -⟩
      · exact hstore
      · exact hstore
      · exact absurd h ((w.names.inFolder_bucketFile b₁).locate_ne_missing
          (w.names.inFolder_bucketFile b) hl)
    rw [hrest, ih, hstore]
    rw [hstore, prepareBucket_names]
    exact h

/-- **Where a bucket's path leads if all are cleared with success:** somewhere, or it misses a
directory. -/
theorem locate_of_preparingAll (hok : ∀ a ∈ w.preparingAll false ps, a.succeeds = true)
    (hb : b ∈ ps.map Prod.fst) :
    (∃ l, w.store.locate (w.names.bucketFile b) = .ok l) ∨
      w.store.locate (w.names.bucketFile b) = .error .missing := by
  induction ps generalizing w with
  | nil => exact absurd hb List.not_mem_nil
  | cons e rest ih =>
    obtain ⟨b₁, fault⟩ := e
    have hrest := @ih (w.prepareBucket false fault b₁).2
      fun a ha => hok a (List.mem_append_right _ ha)
    rw [prepareBucket_names] at hrest
    rcases prepareBucket_cases w fault b₁ with
      ⟨⟨a, ha, -⟩, -⟩ | ⟨hmissing, hstore⟩ | ⟨l, hl, hclears⟩
    · -- what is told while clearing is that it has failed
      exact absurd (hok a (List.mem_append_left _ ha)) (preparing_false ha).2
    · rw [hstore] at hrest
      rcases List.mem_cons.1 hb with rfl | hb
      · exact .inr hmissing
      · exact hrest hb
    · rcases List.mem_cons.1 hb with rfl | hb
      · exact .inl ⟨l, hl⟩
      · rcases hrest hb with ⟨l', hl'⟩ | hmissing
        · exact .inl ⟨l', hclears.locate_iff.1 hl'⟩
        · -- the folder is there
          exact absurd hmissing ((w.names.inFolder_bucketFile b₁).locate_ne_missing
            (w.names.inFolder_bucketFile b) (hclears.locate_iff.2 hl))

/-- A chunk that is not written changes no file. -/
theorem write_changesOnly_empty (hs : w.Serves chunk)
    (h : ¬ (w.attempt refused chunk).succeeds = true) :
    ChangesOnly ∅ w.store (w.write refused chunk).store := by
  obtain ⟨message, htold⟩ := Attempt.told_of_not_succeeds h
  have hdiagnostics : (w.write refused chunk).diagnostics ≠ w.diagnostics := by
    rw [(write_accounts hs).diagnostics, List.flatMap_singleton, htold]
    simp
  obtain ⟨target, content⟩ := chunk
  cases target with
  | file p => exact (overwrite_effect w refused p content).2.2 hdiagnostics
  | bucket b =>
    obtain ⟨hsome, hopen⟩ := hs b rfl
    obtain ⟨made, hmade⟩ := Option.isSome_iff_exists.1 hsome
    exact ((send_effect hmade hopen refused content).2.2 hdiagnostics).2

/-- **A file that is there after writing** was put there by a chunk, or was there before. -/
theorem exists_of_writeAll {ws : List (Chunk × Bool)} (hs : ∀ e ∈ ws, w.Serves e.1)
    (h : (w.writeAll ws).store.lookup? l = some (.file bytes)) :
    (∃ a ∈ w.attempts ws, a.succeeds = true ∧ a.path.destination w.store.working = l) ∨
      w.store.lookup? l = some (.file bytes) := by
  induction ws generalizing w with
  | nil => exact .inr h
  | cons e rest ih =>
    obtain ⟨chunk, refused⟩ := e
    have hstep := write_changesOnly w refused chunk
    rcases ih (serves_write hs) h with ⟨a, ha, hok, hdest⟩ | hfile
    · rw [hstep.working] at hdest
      exact .inl ⟨a, List.mem_cons_of_mem _ ha, hok, hdest⟩
    by_cases hok : (w.attempt refused chunk).succeeds = true
    · by_cases hdest : (w.names.pathOf chunk.target).destination w.store.working = l
      · exact .inl ⟨_, List.mem_cons_self, hok, hdest⟩
      · have hout : l ∉ ({(w.names.pathOf chunk.target).destination w.store.working} :
            Set Location) := fun hmem => hdest hmem.symm
        exact .inr ((hstep.file l bytes hout).1 hfile)
    · have hnone := write_changesOnly_empty (hs _ List.mem_cons_self) hok
      exact .inr ((hnone.file l bytes (Set.notMem_empty l)).1 hfile)

end Writer

/-! ## Runs -/

namespace Plan

variable {synthesize : Synthesizer} {store : FileStore} {known : Registry} {m : Module}
  {o : RunOptions} {dir : Path} {split : TypeSplit} {files : FileStore} {s : Schedule}

/-- If no name holds a slash, a run's own paths are that of the module's file and those of parts
without a slash. -/
theorem part_of_mem_ownPaths (ho : o.policy = .files dir split)
    (hm : ∀ d ∈ m.declarations, '/' ∉ d.displayName.toList) {q : Path}
    (hq : q ∈ (make synthesize store known m o).ownPaths ⟨dir, o.moduleName⟩) :
    q = (⟨dir, o.moduleName⟩ : FileNames).moduleFile ∨
      ∃ part : String, '/' ∉ part.toList ∧ q = (⟨dir, o.moduleName⟩ : FileNames).partFile part := by
  rcases hq with ⟨b, rfl⟩ | ⟨chunk, hc, rfl⟩
  · exact .inr ⟨_, FileNames.slash_notMem_marker b, rfl⟩
  rcases (mem_chunks_make ho).1 hc with rfl | ⟨c, -, g, hg, rfl⟩
  · exact .inl rfl
  · refine .inr ⟨groupPart c split g, ?_, pathOf_groupTarget c split _ g⟩
    exact slash_notMem_groupPart_iff.2 fun _ _ => slash_notMem_headD hm hg

/-- If no name holds a slash, different paths of a run are different files. -/
theorem ownPaths_inj (ho : o.policy = .files dir split)
    (hm : ∀ d ∈ m.declarations, '/' ∉ d.displayName.toList) {w : Location} {p q : Path}
    (hp : p ∈ (make synthesize store known m o).ownPaths ⟨dir, o.moduleName⟩)
    (hq : q ∈ (make synthesize store known m o).ownPaths ⟨dir, o.moduleName⟩)
    (h : p.destination w = q.destination w) : p = q := by
  rcases part_of_mem_ownPaths ho hm hp with rfl | ⟨a, ha, rfl⟩ <;>
    rcases part_of_mem_ownPaths ho hm hq with rfl | ⟨b, hb, rfl⟩
  · rfl
  · exact absurd h.symm (FileNames.destination_partFile_ne_moduleFile hb)
  · exact absurd h (FileNames.destination_partFile_ne_moduleFile ha)
  · rw [FileNames.destination_partFile_inj ha hb h]

/-- **A bucket that is there after a run** without alphabetical buckets: the run has written it, or
told that it could not be removed, or could not reach it. -/
theorem bucket_after (ho : o.policy = .files dir split) (hne : split ≠ .alphaBuckets)
    (hm : ∀ d ∈ m.declarations, '/' ∉ d.displayName.toList)
    (hs : (make synthesize store known m o).Schedules s) (b : Bucket) {bytes : ByteArray} :
    let plan := make synthesize store known m o
    let path := (⟨dir, o.moduleName⟩ : FileNames).bucketFile b
    let after := plan.carryOut files s
    after.2.lookup? (path.destination files.working) = some (.file bytes) →
      ((∃ chunk ∈ plan.chunks, FileNames.pathOf ⟨dir, o.moduleName⟩ chunk.target = path) ∧
        ∃ q ∈ after.1.files, q.same path = true) ∨
      (∃ x ∈ after.1.diagnostics, x.isWarning = true ∧ x.stage = .configure ∧
        x.location? = some path) ∨
      files.locate path = .error .missing ∧
        files.lookup? (path.destination files.working) = some (.file bytes) := by
  intro plan path after hafter
  set names : FileNames := ⟨dir, o.moduleName⟩ with hnames
  rw [carryOut_store (layout?_make ho)] at hafter
  rcases exists_of_writeAll (fun e he => serves_of_mem_writes ho hs he) hafter with
    ⟨a, ha, hok, hdest⟩ | hready
  · left
    -- only the path of the bucket leads to its file
    obtain ⟨chunk, hc, hpath⟩ := exists_chunk_of_mem_writeAttempts hs ha
    rw [ready_frame.2, ← hpath] at hdest
    have hbucket : names.pathOf chunk.target = path :=
      ownPaths_inj ho hm (.inr ⟨chunk, hc, rfl⟩) (.inl ⟨b, rfl⟩) hdest
    refine ⟨⟨chunk, hc, hbucket⟩, ?_⟩
    refine ((writeFiles_accounts ho files hs).exists_same_iff path).2 (.inr ⟨a, ?_, hok, ?_⟩)
    · exact List.mem_append_right _ ha
    · rw [← hpath, hbucket, Path.same_iff]
  · right
    rw [ready_eq_prepare hne] at hready
    have hb : b ∈ s.preparations.map Prod.fst := hs.preparations.mem_iff.2 (Bucket.mem_all b)
    rcases exists_of_prepare (w := plan.starting names files) hb rfl hready with
      ⟨a, ha, hpath⟩ | hmissing
    · left
      rw [← preparationAttempts_eq hne] at ha
      obtain ⟨hstage, hfails⟩ := mem_preparationAttempts hne ha
      obtain ⟨message, htold⟩ := Attempt.told_of_not_succeeds hfails
      refine ⟨(Diagnostic.warning a.stage message).located a.path, ?_, rfl, hstage, ?_⟩
      · rw [diagnostics_carryOut ho files hs]
        refine List.mem_append_left _ (List.mem_append_right _ (List.mem_flatMap.2 ⟨a, ?_, ?_⟩))
        · exact List.mem_append_left _ ha
        · rw [htold]
          exact List.mem_singleton_self _
      · exact congrArg some hpath
    · exact .inr hmissing

/-- Whether a run misses a bucket: it is not wanted, no chunk goes there, and on the way to it a
directory is not there yet when buckets are cleared. -/
structure Misses (p : Plan) (names : FileNames) (split : TypeSplit) (files : FileStore)
    (b : Bucket) : Prop where
  unwanted : split ≠ .alphaBuckets
  missing : files.locate (names.bucketFile b) = .error .missing
  unwritten : ∀ chunk ∈ p.chunks,
    (names.pathOf chunk.target).destination files.working ≠
      (names.bucketFile b).destination files.working

/-- **A bucket that a run misses stays as it is.** -/
theorem file_of_misses (ho : o.policy = .files dir split)
    (hs : (make synthesize store known m o).Schedules s) {b : Bucket}
    (h : (make synthesize store known m o).Misses ⟨dir, o.moduleName⟩ split files b)
    (bytes : ByteArray) :
    let plan := make synthesize store known m o
    let l := ((⟨dir, o.moduleName⟩ : FileNames).bucketFile b).destination files.working
    (plan.carryOut files s).2.lookup? l = some (.file bytes) ↔
      files.lookup? l = some (.file bytes) := by
  intro plan l
  set names : FileNames := ⟨dir, o.moduleName⟩ with hnames
  have hready : (plan.ready names split files s.preparations).store = files := by
    rw [ready_eq_prepare h.unwanted]
    exact prepare_of_missing (w := plan.starting names files) h.missing s.preparations
  have hworking : (plan.ready names split files s.preparations).store.working =
      files.working := ready_frame.2
  have hwritten : ChangesOnly {l' | l' ≠ l} (plan.ready names split files s.preparations).store
      ((plan.ready names split files s.preparations).writeAll s.writes).store := by
    refine writeAll_changesOnly fun e he hdest => ?_
    have hchunk : e.1 ∈ plan.chunks := hs.writes.mem_iff.1 (List.mem_map_of_mem he)
    rw [ready_names, hworking] at hdest
    exact h.unwritten e.1 hchunk hdest
  rw [hready] at hwritten
  rw [carryOut_store (layout?_make ho)]
  exact hwritten.file l bytes fun hne => hne rfl

/-- Without an output directory nothing is written. -/
theorem carryOut_of_no_directory (ho : o.outputDir? = none) (files : FileStore) (s : Schedule) :
    let after := (make synthesize store known m o).carryOut files s
    after.2 = files ∧ after.1.files = [] := by
  intro after
  show ((make synthesize store known m o).writeFiles files s).store = files ∧
    ((make synthesize store known m o).writeFiles files s).files = []
  rw [writeFiles_of_no_directory ho]
  exact ⟨rfl, rfl⟩

/-- **A run touches only its own files.** Whatever the files are, in whichever order it does its
work and whichever operations fail: without an output directory nothing changes and no file is
listed. With one, the paths of a run are different files, and every file at another place is there
afterwards, and reads as before. Without alphabetical buckets, a bucket that is there afterwards has
been written by the run, which lists it, or a warning is located at it, or its path misses a
directory that is still to be made. A bucket of an earlier run that is missed in this way stays
where it is unless it is written; but in a file system only a path with steps up can miss what is
there. -/
theorem touches_own_files (synthesize : Synthesizer) (store : FileStore) (known : Registry)
    (m : Module) (o : RunOptions) (hm : ∀ d ∈ m.declarations, '/' ∉ d.displayName.toList)
    (files : FileStore) {s : Schedule} (hs : (make synthesize store known m o).Schedules s) :
    let plan := make synthesize store known m o
    let after := plan.carryOut files s
    (o.outputDir? = none → after.2 = files ∧ after.1.files = []) ∧
    ∀ dir split, o.policy = .files dir split →
      let names : FileNames := ⟨dir, o.moduleName⟩
      let own := plan.ownPaths names
      let place := Path.destination files.working
      (∀ p ∈ own, ∀ q ∈ own, place p = place q → p = q) ∧
      (∀ l bytes, (∀ q ∈ own, l ≠ place q) →
        (after.2.lookup? l = some (.file bytes) ↔ files.lookup? l = some (.file bytes))) ∧
      (∀ p bytes, (∀ q ∈ own, place p ≠ place q) →
        files.readBytes p = .ok bytes → after.2.readBytes p = .ok bytes) ∧
      (split ≠ .alphaBuckets → ∀ b bytes,
        let path := names.bucketFile b
        let missed := files.locate path = .error .missing ∧
          files.lookup? (place path) = some (.file bytes)
        (after.2.lookup? (place path) = some (.file bytes) →
          ((∃ chunk ∈ plan.chunks, names.pathOf chunk.target = path) ∧
            ∃ q ∈ after.1.files, q.same path = true) ∨
          (∃ x ∈ after.1.diagnostics, x.isWarning = true ∧ x.stage = .configure ∧
            x.location? = some path) ∨
          missed) ∧
        (missed → (∀ chunk ∈ plan.chunks, names.pathOf chunk.target ≠ path) →
          after.2.lookup? (place path) = some (.file bytes)) ∧
        (missed → files.Grounded → .parent ∈ path.components)) := by
  intro plan after
  refine ⟨fun ho => carryOut_of_no_directory ho files s, fun dir split ho => ?_⟩
  intro names own place
  have hchanges := carryOut_changesOnly_own ho hs files
  refine ⟨fun p hp q hq => ownPaths_inj ho hm hp hq, fun l bytes hl => ?_, fun p bytes hp => ?_,
    fun hne b bytes => ⟨bucket_after ho hne hm hs b, fun hmissed hchunks => ?_,
      fun hmissed hgrounded => ?_⟩⟩
  · exact hchanges.file l bytes fun ⟨q, hq, hlq⟩ => hl q hq hlq
  · exact hchanges.readBytes fun ⟨q, hq, hpq⟩ => hp q hq hpq
  · refine (file_of_misses ho hs ⟨hne, hmissed.1, fun chunk hc hdest => ?_⟩ bytes).2 hmissed.2
    exact hchunks chunk hc (ownPaths_inj ho hm (.inr ⟨chunk, hc, rfl⟩) (.inl ⟨b, rfl⟩) hdest)
  · by_contra hparent
    have hthere : files.lookup? (place (names.bucketFile b)) ≠ none := by
      rw [hmissed.2]
      simp
    exact hgrounded.locate_ne_missing hparent (names.inFolder_bucketFile b).text_ne_empty hthere
      hmissed.1

/-- A module without declarations. -/
def blank : Module := ⟨"T", "", []⟩

/-- A run over it whose directory is given by way of one that is not there. -/
def detourOptions : RunOptions :=
  { RunOptions.ofModule "T" with outputDir? := some ⟨"n/../o"⟩ }

/-- A store with the directory and a bucket in it that an earlier run has left. -/
def detourStore : FileStore :=
  ⟨.ofList [(["o"], .directory), (["o", "T-A.swift"], .file "old".toUTF8)], []⟩

/-- The plan of the run. -/
def detourPlan : Plan := make (fun _ d => some d.name) detourStore .empty blank detourOptions

/-- The bucket stays, and nothing is told of it. -/
theorem touches_own_files_detour :
    (∀ d ∈ blank.declarations, '/' ∉ d.displayName.toList) ∧
      detourPlan.Schedules detourPlan.inOrder ∧
      let after := detourPlan.carryOut detourStore detourPlan.inOrder
      after.2.lookup? ["o", "T-A.swift"] = some (.file "old".toUTF8) ∧
        after.1.diagnostics = [] ∧
        ¬ ∃ q ∈ after.1.files, q.same ⟨"n/../o/T-A.swift"⟩ = true := by
  have hnames : ∀ d ∈ blank.declarations, '/' ∉ d.displayName.toList :=
    fun d hd => absurd hd List.not_mem_nil
  have hschedules : detourPlan.Schedules detourPlan.inOrder :=
    schedules_map detourPlan (fun _ => .none) fun _ => false
  obtain ⟨-, hfiles⟩ := touches_own_files (fun _ d => some d.name) detourStore .empty blank
    detourOptions hnames detourStore hschedules
  obtain ⟨-, -, -, hbuckets⟩ := hfiles ⟨"n/../o"⟩ .groupedRuns rfl
  obtain ⟨-, hstays, -⟩ := hbuckets (by decide) (Bucket.ofName "A") "old".toUTF8
  have htold : (detourPlan.carryOut detourStore detourPlan.inOrder).1.diagnostics = [] ∧
      ¬ ∃ q ∈ (detourPlan.carryOut detourStore detourPlan.inOrder).1.files,
        q.same ⟨"n/../o/T-A.swift"⟩ = true := by
    decide +kernel
  exact ⟨hnames, hschedules, hstays (by decide +kernel) (by decide +kernel), htold⟩

end Plan

end SwiftBindings
