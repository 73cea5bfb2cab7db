import SwiftBindings.Proofs.Run.Attempts
import SwiftBindings.Proofs.Run.Buckets
import SwiftBindings.Proofs.Run.Sources

/-!
# Runs account for their writes

A run under a schedule attempts one write for each chunk, and with alphabetical buckets one for each
bucket before that. Its result lists the files of the attempts that succeed and tells of those that
fail.

* `Plan.ready`: the writer of a plan once buckets are prepared.
* `Plan.serves_of_mem_chunks`: a chunk of a plan can be sent where it goes.
* `Plan.listed_or_told`: a chunk's file is listed, or something is told of it.
* `Plan.attempts_accounted`: **every attempted write is listed or told of, once.**
-/

namespace SwiftBindings

open FileStore Synthesizer Writer

/-- Whether a schedule does all that a plan asks for, in some order. -/
structure Plan.Schedules (p : Plan) (s : Schedule) : Prop where
  preparations : (s.preparations.map Prod.fst).Perm Bucket.all
  writes : (s.writes.map Prod.fst).Perm p.chunks
  finished : s.finished.Perm Category.all

/-- One thing after the other is an order, whatever the system refuses. -/
theorem Plan.schedules_map (p : Plan) (fault : Bucket → Fault) (refused : Chunk → Bool) :
    p.Schedules ⟨Bucket.all.map fun b => (b, fault b),
      p.chunks.map fun chunk => (chunk, refused chunk), Category.all⟩ := by
  refine ⟨?_, ?_, .refl _⟩
  · rw [List.map_map]
    exact List.Perm.of_eq (List.map_id _)
  · rw [List.map_map]
    exact List.Perm.of_eq (List.map_id _)

/-- A snippet with code is in some group. -/
theorem exists_mem_groups {c : Category} {items : List Snippet} {s : Snippet} (hs : s ∈ items)
    (ht : s.text ≠ "") (split : TypeSplit) : ∃ g ∈ groups c items split, s ∈ g := by
  have hruns : ∀ {β : Type} [DecidableEq β] (key : Snippet → β), ∃ g ∈ runs key items, s ∈ g := by
    intro β _ key
    rw [← flatten_runs key items] at hs
    exact List.mem_flatten.1 hs
  unfold groups
  split
  · split
    · exact ⟨[s], List.mem_map_of_mem hs, List.mem_singleton_self s⟩
    · exact hruns Snippet.initial?
    · obtain ⟨g, hg, hsg⟩ := hruns Snippet.bucket
      refine ⟨g, List.mem_filter.2 ⟨hg, ?_⟩, hsg⟩
      have hblock : blockText g ≠ "" := fun h => ht (blockText_eq_empty_iff.1 h s hsg)
      simpa using hblock
  · exact ⟨items, List.mem_singleton_self items, hs⟩

namespace Plan

variable {synthesize : Synthesizer} {store : FileStore} {known : Registry} {m : Module}
  {o : RunOptions} {dir : Path} {split : TypeSplit} {p : Plan} {names : FileNames}
  {files : FileStore} {ps : List (Bucket × Fault)} {s : Schedule}

/-- The writer of a plan before anything is done. -/
def starting (p : Plan) (names : FileNames) (files : FileStore) : Writer :=
  .start files names p.context.filters.preamble

/-- The writer of a plan once buckets are prepared, and open if types are spread over them. -/
def ready (p : Plan) (names : FileNames) (split : TypeSplit) (files : FileStore)
    (ps : List (Bucket × Fault)) : Writer :=
  let (made, w) := (p.starting names files).prepare (split = .alphaBuckets) ps
  if split = .alphaBuckets then w.openBuckets made else w

theorem writeFiles_eq_ready (h : p.layout? = some (names, split)) (files : FileStore)
    (s : Schedule) :
    p.writeFiles files s =
      ((p.ready names split files s.preparations).writeAll s.writes).closeBuckets := by
  unfold writeFiles ready starting
  rw [h]

/-- The files after a run are those that its last chunk leaves. -/
theorem carryOut_store (h : p.layout? = some (names, split)) (files : FileStore) (s : Schedule) :
    (p.carryOut files s).2 =
      ((p.ready names split files s.preparations).writeAll s.writes).store := by
  show (p.writeFiles files s).store = _
  rw [writeFiles_eq_ready h]
  rfl

theorem ready_frame : (p.ready names split files ps).names = names ∧
    (p.ready names split files ps).store.working = files.working := by
  unfold ready
  cases h : (p.starting names files).prepare (split = .alphaBuckets) ps with
  | mk made w =>
    obtain ⟨hnames, -, hworking⟩ := prepare_frame h
    simp only
    split
    · exact ⟨hnames, hworking⟩
    · exact ⟨hnames, hworking⟩

theorem ready_names : (p.ready names split files ps).names = names := ready_frame.1

/-- Without alphabetical buckets all buckets are cleared before anything is written. -/
theorem ready_eq_prepare (h : split ≠ .alphaBuckets) :
    p.ready names split files ps = ((p.starting names files).prepare false ps).2 := by
  unfold ready
  simp only [h, decide_false, if_false]

/-- What preparing the buckets of a plan attempts. -/
def preparationAttempts (p : Plan) (names : FileNames) (split : TypeSplit) (files : FileStore)
    (ps : List (Bucket × Fault)) : List Attempt :=
  (p.starting names files).preparingAll (split = .alphaBuckets) ps

/-- What writing the chunks of a plan attempts. -/
def writeAttempts (p : Plan) (names : FileNames) (split : TypeSplit) (files : FileStore)
    (s : Schedule) : List Attempt :=
  (p.ready names split files s.preparations).attempts s.writes

/-- **Preparations are accounted for.** Opening the buckets tells nothing. -/
theorem ready_accounts : (p.starting names files).Accounts (p.ready names split files ps)
    (p.preparationAttempts names split files ps) := by
  have h := prepare_accounts (p.starting names files) (split = .alphaBuckets) ps
  unfold ready
  simp only
  split
  · exact ⟨h.diagnostics, h.files⟩
  · exact h

/-- Every bucket that is wanted is attempted once. -/
theorem map_preparationAttempts (h : split = .alphaBuckets) :
    (p.preparationAttempts names split files ps).map (fun a => (a.stage, a.path)) =
      ps.map fun e => (.configure, names.bucketFile e.1) := by
  subst h
  exact preparingAll_true (p.starting names files) ps

/-- Otherwise buckets are only cleared. -/
theorem preparationAttempts_eq (h : split ≠ .alphaBuckets) :
    p.preparationAttempts names split files ps =
      (p.starting names files).preparingAll false ps := by
  unfold preparationAttempts
  rw [decide_eq_false h]

theorem mem_preparationAttempts (h : split ≠ .alphaBuckets) {a : Attempt}
    (ha : a ∈ p.preparationAttempts names split files ps) :
    a.stage = .configure ∧ ¬ a.succeeds = true := by
  rw [preparationAttempts_eq h] at ha
  exact preparingAll_false ha

/-- Every chunk is attempted once. -/
theorem map_writeAttempts (p : Plan) (names : FileNames) (split : TypeSplit) (files : FileStore)
    (s : Schedule) :
    (p.writeAttempts names split files s).map (fun a => (a.stage, a.path)) =
      s.writes.map fun e => (.write, names.pathOf e.1.target) := by
  unfold writeAttempts
  rw [attempts_eq_map, ready_names]

/-- Whatever is attempted while writing is attempted at the path of a chunk. -/
theorem exists_chunk_of_mem_writeAttempts (hs : p.Schedules s) {a : Attempt}
    (ha : a ∈ p.writeAttempts names split files s) :
    ∃ chunk ∈ p.chunks, names.pathOf chunk.target = a.path := by
  have hm := List.mem_map_of_mem (f := fun a : Attempt => (a.stage, a.path)) ha
  rw [map_writeAttempts] at hm
  obtain ⟨e, he, heq⟩ := List.mem_map.1 hm
  exact ⟨e.1, hs.writes.mem_iff.1 (List.mem_map_of_mem he), (Prod.mk.inj heq).2⟩

theorem stage_of_mem_preparationAttempts {a : Attempt}
    (ha : a ∈ p.preparationAttempts names split files ps) : a.stage = .configure := by
  by_cases h : split = .alphaBuckets
  · have hm := List.mem_map_of_mem (f := fun a : Attempt => (a.stage, a.path)) ha
    rw [map_preparationAttempts h] at hm
    obtain ⟨e, -, he⟩ := List.mem_map.1 hm
    exact (Prod.mk.inj he).1.symm
  · exact (mem_preparationAttempts h ha).1

theorem stage_of_mem_writeAttempts {a : Attempt}
    (ha : a ∈ p.writeAttempts names split files s) : a.stage = .write := by
  have hm := List.mem_map_of_mem (f := fun a : Attempt => (a.stage, a.path)) ha
  rw [map_writeAttempts] at hm
  obtain ⟨e, -, he⟩ := List.mem_map.1 hm
  exact (Prod.mk.inj he).1.symm

/-- **A chunk of a plan can be sent where it goes:** buckets are open if chunks go to any. -/
theorem serves_of_mem_chunks (ho : o.policy = .files dir split) {chunk : Chunk}
    (hc : chunk ∈ (make synthesize store known m o).chunks) :
    ((make synthesize store known m o).ready ⟨dir, o.moduleName⟩ split files ps).Serves chunk := by
  intro b hb
  by_cases hs : split = .alphaBuckets
  · unfold ready
    simp only
    rw [if_pos hs]
    exact ⟨rfl, List.not_mem_nil⟩
  · obtain ⟨x, -, rfl⟩ := (fromSources_make ho hs).mem_chunks.1 hc
    simp [Source.chunk] at hb

/-- So can all chunks of a schedule. -/
theorem serves_of_mem_writes (ho : o.policy = .files dir split)
    (hs : (make synthesize store known m o).Schedules s) {e : Chunk × Bool} (he : e ∈ s.writes) :
    ((make synthesize store known m o).ready ⟨dir, o.moduleName⟩ split files
      s.preparations).Serves e.1 :=
  serves_of_mem_chunks ho (hs.writes.mem_iff.1 (List.mem_map_of_mem he))

/-- **The chunks of a plan** are the module's own and those of the groups. -/
theorem mem_chunks_make (ho : o.policy = .files dir split) {chunk : Chunk} :
    chunk ∈ (make synthesize store known m o).chunks ↔
      chunk = ⟨.file (⟨dir, o.moduleName⟩ : FileNames).moduleFile, o.boilerplate ++ m.boilerplate⟩ ∨
      ∃ c, ¬ Fails synthesize (make synthesize store known m o).context m o.generateAll c ∧
        ∃ g ∈ groups c (snippets synthesize (make synthesize store known m o).context m
          o.generateAll c) split, Chunk.ofGroup c split ⟨dir, o.moduleName⟩ g = chunk := by
  unfold chunks
  rw [layout?_make ho]
  simp only [List.mem_cons, List.mem_flatMap]
  refine or_congr Iff.rfl ⟨?_, ?_⟩
  · rintro ⟨c, -, hc⟩
    rw [chunks_make ho] at hc
    simp only at hc
    split at hc
    · simp at hc
    · rename_i hok
      exact ⟨c, hok, List.mem_map.1 hc⟩
  · rintro ⟨c, hok, hg⟩
    refine ⟨c, Category.mem_all c, ?_⟩
    rw [chunks_make ho]
    simp only [if_neg hok]
    exact List.mem_map.2 hg

theorem stage_of_mem_warnings {x : Diagnostic}
    (h : x ∈ (make synthesize store known m o).warnings) :
    x.stage = .configure ∧ x.isError = false := by
  obtain ⟨e, -, rfl⟩ := List.mem_map.1 h
  exact ⟨rfl, rfl⟩

theorem stage_of_mem_diagnostics {c : Category} {x : Diagnostic}
    (h : x ∈ ((make synthesize store known m o).contribution c).diagnostics) :
    x.stage = .generate := by
  by_cases hf : Fails synthesize (make synthesize store known m o).context m o.generateAll c
  · have hc : (make synthesize store known m o).contribution c = .failed c :=
      Contribution.make_of_fails hf _
    rw [hc] at h
    rw [List.mem_singleton.1 h]
    rfl
  · have hc : ((make synthesize store known m o).contribution c).diagnostics = [] :=
      (Contribution.make_diagnostics_eq_nil_iff _).2 hf
    rw [hc] at h
    simp at h

/-- **All that a plan attempts is accounted for.** -/
theorem writeFiles_accounts (ho : o.policy = .files dir split) (files : FileStore)
    (hs : (make synthesize store known m o).Schedules s) :
    let plan := make synthesize store known m o
    (plan.starting ⟨dir, o.moduleName⟩ files).Accounts (plan.writeFiles files s)
      (plan.preparationAttempts ⟨dir, o.moduleName⟩ split files s.preparations ++
        plan.writeAttempts ⟨dir, o.moduleName⟩ split files s) := by
  intro plan
  rw [writeFiles_eq_ready (layout?_make ho)]
  refine (ready_accounts.trans (writeAll_accounts fun e he => ?_)).closeBuckets
  exact serves_of_mem_writes ho hs he

/-- What a run tells: of side files, of its attempts, and of the categories that fail. -/
theorem diagnostics_carryOut (ho : o.policy = .files dir split) (files : FileStore)
    (hs : (make synthesize store known m o).Schedules s) :
    let plan := make synthesize store known m o
    (plan.carryOut files s).1.diagnostics = plan.warnings ++
      (plan.preparationAttempts ⟨dir, o.moduleName⟩ split files s.preparations ++
        plan.writeAttempts ⟨dir, o.moduleName⟩ split files s).flatMap Attempt.told ++
      Category.all.flatMap fun c => (plan.contribution c).diagnostics := by
  intro plan
  have haccounts := (writeFiles_accounts ho files hs).diagnostics
  rw [diagnostics_of_finished hs.finished, haccounts]
  rfl

/-- **What a run tells at the write stage** is told of its chunks. -/
theorem filter_write_diagnostics (ho : o.policy = .files dir split) (files : FileStore)
    (hs : (make synthesize store known m o).Schedules s) :
    let plan := make synthesize store known m o
    (plan.carryOut files s).1.diagnostics.filter (·.stage = .write) =
      (plan.writeAttempts ⟨dir, o.moduleName⟩ split files s).flatMap Attempt.told := by
  intro plan
  have hwarnings : plan.warnings.filter (·.stage = .write) = [] := by
    refine List.filter_eq_nil_iff.2 fun x hx => ?_
    rw [(stage_of_mem_warnings hx).1]
    decide
  have hcategories : (Category.all.flatMap fun c => (plan.contribution c).diagnostics).filter
      (·.stage = .write) = [] := by
    refine List.filter_eq_nil_iff.2 fun x hx => ?_
    obtain ⟨c, -, hx⟩ := List.mem_flatMap.1 hx
    rw [stage_of_mem_diagnostics hx]
    decide
  have hprepared : ((plan.preparationAttempts ⟨dir, o.moduleName⟩ split files
      s.preparations).flatMap Attempt.told).filter (·.stage = .write) = [] := by
    refine Attempt.filter_told_eq_nil fun a ha => ?_
    rw [stage_of_mem_preparationAttempts ha]
    decide
  have hwritten : ((plan.writeAttempts ⟨dir, o.moduleName⟩ split files s).flatMap
      Attempt.told).filter (·.stage = .write) =
        (plan.writeAttempts ⟨dir, o.moduleName⟩ split files s).flatMap Attempt.told := by
    refine List.filter_eq_self.2 fun x hx => ?_
    obtain ⟨a, ha, hx⟩ := List.mem_flatMap.1 hx
    rw [(Attempt.mem_told hx).2.1, stage_of_mem_writeAttempts ha]
    rfl
  rw [diagnostics_carryOut ho files hs, List.filter_append, List.filter_append, List.flatMap_append,
    List.filter_append, hwarnings, hcategories, hprepared, hwritten, List.nil_append,
    List.nil_append, List.append_nil]

theorem filter_write_warnings (ho : o.policy = .files dir split) (files : FileStore)
    (hs : (make synthesize store known m o).Schedules s) :
    let plan := make synthesize store known m o
    (plan.carryOut files s).1.warnings.filter (·.stage = .write) =
      (plan.writeAttempts ⟨dir, o.moduleName⟩ split files s).flatMap Attempt.told := by
  intro plan
  unfold RunResult.warnings
  rw [List.filter_comm, filter_write_diagnostics ho files hs]
  refine List.filter_eq_self.2 fun x hx => ?_
  obtain ⟨a, -, hx⟩ := List.mem_flatMap.1 hx
  exact (Attempt.mem_told hx).1

/-- **At the write stage nothing but warnings is told.** -/
theorem error_notMem_diagnostics (ho : o.policy = .files dir split) (files : FileStore)
    (hs : (make synthesize store known m o).Schedules s) (message : String) :
    .error .write message ∉ ((make synthesize store known m o).carryOut files s).1.diagnostics := by
  intro hmem
  have hx : .error .write message ∈ ((make synthesize store known m o).carryOut files
      s).1.diagnostics.filter (·.stage = .write) := List.mem_filter.2 ⟨hmem, rfl⟩
  rw [filter_write_diagnostics ho files hs] at hx
  obtain ⟨a, -, hx⟩ := List.mem_flatMap.1 hx
  exact absurd (Attempt.mem_told hx).1 (by simp [Diagnostic.error, Diagnostic.isWarning])

/-- **The chunk of a group is attempted,** and its file is listed or something is told of it. -/
theorem listed_or_told (ho : o.policy = .files dir split) (files : FileStore)
    (hs : (make synthesize store known m o).Schedules s) {chunk : Chunk}
    (hc : chunk ∈ (make synthesize store known m o).chunks) :
    let plan := make synthesize store known m o
    let names : FileNames := ⟨dir, o.moduleName⟩
    (∃ q ∈ (plan.carryOut files s).1.files, q.same (names.pathOf chunk.target) = true) ∨
      ∃ x ∈ (plan.carryOut files s).1.diagnostics, x.isWarning = true ∧ x.stage = .write ∧
        x.location? = some (names.pathOf chunk.target) := by
  intro plan names
  -- the write of the chunk is in the log
  obtain ⟨e, he, hchunk⟩ := List.mem_map.1 (hs.writes.mem_iff.2 hc)
  have hm : (Stage.write, names.pathOf chunk.target) ∈
      (plan.writeAttempts names split files s).map fun a => (a.stage, a.path) := by
    rw [map_writeAttempts]
    exact List.mem_map.2 ⟨e, he, by rw [← hchunk]⟩
  obtain ⟨a, ha, hap⟩ := List.mem_map.1 hm
  obtain ⟨hstage, hpath⟩ := Prod.mk.inj hap
  by_cases hok : a.succeeds = true
  · left
    refine ((writeFiles_accounts ho files hs).exists_same_iff _).2 (.inr ?_)
    exact ⟨a, List.mem_append_right _ ha, hok, by rw [hpath, Path.same_iff]⟩
  · right
    obtain ⟨message, hmessage⟩ := Attempt.told_of_not_succeeds hok
    have hx : (Diagnostic.warning a.stage message).located a.path ∈
        (plan.carryOut files s).1.diagnostics.filter (·.stage = .write) := by
      rw [filter_write_diagnostics ho files hs]
      exact List.mem_flatMap.2 ⟨a, ha, by rw [hmessage]; exact List.mem_singleton_self _⟩
    refine ⟨_, (List.mem_filter.1 hx).1, rfl, hstage, ?_⟩
    rw [← hpath]
    rfl

/-- **Every attempted write is accounted for.** Whatever the files hold, whichever operations fail
and in whichever order a run does its work: it attempts one write for each chunk, and with
alphabetical buckets one for each bucket before that. An attempt that succeeds is listed in the
files of the result, which lists nothing else; of one that fails a warning is told at its stage and
its path, and nothing else is told of writing. So the code of a category that does not fail is in a
listed file, or something is told of the file that it goes to. Every chunk that goes to a bucket
finds it open when its turn comes, since buckets are opened before all chunks are written and closed
after that; so no chunk is turned away. -/
theorem attempts_accounted (synthesize : Synthesizer) (store : FileStore) (known : Registry)
    (m : Module) (o : RunOptions) {dir : Path} {split : TypeSplit}
    (ho : o.policy = .files dir split) (files : FileStore) {s : Schedule}
    (hs : (make synthesize store known m o).Schedules s) :
    let plan := make synthesize store known m o
    let names : FileNames := ⟨dir, o.moduleName⟩
    let prepared := plan.preparationAttempts names split files s.preparations
    let written := plan.writeAttempts names split files s
    let result := (plan.carryOut files s).1
    (written.map fun a => (a.stage, a.path)).Perm
      (plan.chunks.map fun chunk => (.write, names.pathOf chunk.target)) ∧
    (split = .alphaBuckets → (prepared.map fun a => (a.stage, a.path)).Perm
      (Bucket.all.map fun b => (.configure, names.bucketFile b))) ∧
    (split ≠ .alphaBuckets → ∀ a ∈ prepared, a.stage = .configure ∧ ¬ a.succeeds = true) ∧
    result.diagnostics = plan.warnings ++ (prepared ++ written).flatMap Attempt.told ++
      Category.all.flatMap (fun c => (plan.contribution c).diagnostics) ∧
    result.files.Sorted ∧
    (∀ p, (∃ q ∈ result.files, q.same p = true) ↔
      ∃ a ∈ prepared ++ written, a.succeeds = true ∧ a.path.same p = true) ∧
    (result.warnings.filter (·.stage = .write)).length =
      (written.filter (!·.succeeds)).length ∧
    (∀ c, ¬ Fails synthesize plan.context m o.generateAll c →
      ∀ d ∈ plan.context.selected m o.generateAll c, code synthesize plan.context d ≠ "" →
        let gs := groups c (snippets synthesize plan.context m o.generateAll c) split
        (∃ g ∈ gs, snippet synthesize plan.context d ∈ g) ∧
        ∀ g ∈ gs, snippet synthesize plan.context d ∈ g →
          let p := names.pathOf (groupTarget c split names g)
          (∃ q ∈ result.files, q.same p = true) ∨
            ∃ x ∈ result.diagnostics, x.isWarning = true ∧ x.stage = .write ∧
              x.location? = some p) ∧
    (∀ done e rest, s.writes = done ++ e :: rest →
      ((plan.ready names split files s.preparations).writeAll done).Serves e.1) ∧
    (plan.writeFiles files s).closed = Bucket.all ∧
    ∀ b : Bucket,
      .error .write ("no worker for bucket '" ++ String.singleton b.marker ++ "'") ∉
        result.diagnostics ∧
      .error .write ("bucket '" ++ String.singleton b.marker ++ "' is closed") ∉
        result.diagnostics := by
  intro plan names prepared written result
  have haccounts := writeFiles_accounts ho files hs
  refine ⟨?_, fun h => ?_, fun h a ha => mem_preparationAttempts h ha,
    diagnostics_carryOut ho files hs,
    haccounts.sorted List.Pairwise.nil, fun p => ?_, ?_, fun c hok d hd hne => ⟨?_, ?_⟩,
    fun done e rest hwrites => ?_, ?_, ?_⟩
  · rw [map_writeAttempts]
    have hperm := hs.writes.map fun chunk => (Stage.write, names.pathOf chunk.target)
    rwa [List.map_map] at hperm
  · rw [map_preparationAttempts h]
    have hperm := hs.preparations.map fun b => (Stage.configure, names.bucketFile b)
    rwa [List.map_map] at hperm
  · have hfiles := haccounts.exists_same_iff p
    have hnone : ¬ ∃ q ∈ (plan.starting names files).files, q.same p = true := by
      rintro ⟨q, hq, -⟩
      exact absurd hq List.not_mem_nil
    rw [or_iff_right hnone] at hfiles
    exact hfiles
  · rw [filter_write_warnings ho files hs, Attempt.length_flatMap_told]
  · refine exists_mem_groups (List.mem_map_of_mem hd) hne split
  · intro g hg _
    have hmem := (mem_chunks_make ho).2 (.inr ⟨c, hok, g, hg, rfl⟩)
    have hlisted := listed_or_told ho files hs hmem
    exact hlisted
  · have he : e ∈ s.writes := by
      rw [hwrites]
      exact List.mem_append_right _ List.mem_cons_self
    exact (serves_of_mem_writes ho hs he).writeAll done
  · rw [writeFiles_eq_ready (layout?_make ho)]
    rfl
  · exact fun b => ⟨error_notMem_diagnostics ho files hs _, error_notMem_diagnostics ho files hs _⟩

/-- A module whose only record has no name of a letter. -/
def digits : Module := ⟨"Test", "", [⟨"2D", none, none, .record []⟩]⟩

/-- A run over it that spreads types over buckets. -/
def digitOptions : RunOptions :=
  { RunOptions.ofModule "Test" with outputDir? := some ⟨"out"⟩, alphaNames := true }

/-- The plan of the run, declarations being written by their names. -/
def digitPlan : Plan := make (fun _ d => some d.name) ⟨.empty, []⟩ .empty digits digitOptions

/-- A store with a directory where the catch-all bucket is to be. -/
def digitStore : FileStore :=
  ⟨.ofList [(["out"], .directory), (["out", "Test-@.swift"], .directory)], []⟩

/-- The schedule that does one thing after the other, with no bucket cleared and no file written
that has no code. -/
def digitSchedule : Schedule :=
  ⟨Bucket.all.map fun b => (b, .removal),
    digitPlan.chunks.map fun chunk => (chunk, chunk.content = ""), Category.all⟩

theorem digitPlan_schedules : digitPlan.Schedules digitSchedule :=
  schedules_map digitPlan (fun _ => .removal) fun chunk => chunk.content = ""

/-- Nothing can be written for the record, which is told, as of the eight files without code. -/
theorem attempts_accounted_digits :
    digitOptions.policy = .files ⟨"out"⟩ .alphaBuckets ∧ digitPlan.Schedules digitSchedule ∧
      let result := (digitPlan.carryOut digitStore digitSchedule).1
      (result.warnings.filter (·.stage = .write)).length = 9 ∧
      ¬ ∃ q ∈ result.files, q.same ⟨"out/Test-@.swift"⟩ = true := by
  have hpolicy : digitOptions.policy = .files ⟨"out"⟩ .alphaBuckets := rfl
  obtain ⟨-, -, -, -, -, hfiles, hcount, -⟩ := attempts_accounted (fun _ d => some d.name)
    ⟨.empty, []⟩ .empty digits digitOptions hpolicy digitStore digitPlan_schedules
  refine ⟨hpolicy, digitPlan_schedules, hcount.trans (by decide +kernel), fun h => ?_⟩
  exact absurd ((hfiles _).1 h) (by decide +kernel)

end Plan

end SwiftBindings
