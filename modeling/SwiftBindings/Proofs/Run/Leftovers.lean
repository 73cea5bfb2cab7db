import SwiftBindings.Proofs.Filters.Loading
import SwiftBindings.Proofs.Run.OtherFiles

/-!
# Runs do not depend on what earlier runs have left

A run clears the bucket files before it writes, and it overwrites all others, so what its own files
hold before makes no difference to what it leaves, nor which of them are there. The exception are
buckets that the run misses: it takes them for absent as their directory cannot be reached yet, and
by the time it has written they can be.

* `Plan.missed`: where the buckets are that a run misses.
* `Plan.carryOut_changesOnly_missed`: **two runs that succeed** leave the same but for these.
* `Plan.carryOut_again`: **a run that is made again** removes what it has missed before, and leaves
  all else as it is.
* `Plan.history_forgotten`: **the result of a run, and the files after it, do not depend on what its
  own files were before,** but for buckets that it misses.
-/

namespace SwiftBindings

open FileStore Writer

namespace Plan

variable {synthesize : Synthesizer} {store : FileStore} {known : Registry} {m : Module}
  {o : RunOptions} {dir : Path} {split : TypeSplit} {p : Plan} {names : FileNames}
  {files files₁ files₂ : FileStore} {s : Schedule} {b : Bucket} {L : Set Location}

/-- The places of the buckets that a run misses. -/
def missed (p : Plan) (names : FileNames) (split : TypeSplit) (files : FileStore) : Set Location :=
  {l | ∃ b, p.Misses names split files b ∧ l = (names.bucketFile b).destination files.working}

/-! ## Buckets that are missed -/

/-- **In a run that succeeds** a bucket that is not wanted is reached or missed. -/
theorem Succeeds.locate_bucketFile (h : p.Succeeds names split files s) (hs : p.Schedules s)
    (hne : split ≠ .alphaBuckets) (b : Bucket) :
    (∃ l, files.locate (names.bucketFile b) = .ok l) ∨
      files.locate (names.bucketFile b) = .error .missing := by
  have hb : b ∈ s.preparations.map Prod.fst := hs.preparations.mem_iff.2 (Bucket.mem_all b)
  refine locate_of_preparingAll (w := p.starting names files) (fun a ha => ?_) hb
  rw [← preparationAttempts_eq hne] at ha
  exact h a (List.mem_append_left _ ha)

/-- If one bucket can be reached, none is missed. -/
theorem missed_eq_empty {l : Location} (h : files.locate (names.bucketFile b) = .ok l) :
    p.missed names split files = ∅ := by
  refine Set.eq_empty_of_forall_notMem fun _ ⟨b', hb', _⟩ => ?_
  exact (names.inFolder_bucketFile b).locate_ne_missing (names.inFolder_bucketFile b') h hb'.missing

/-- Runs that succeed on stores with the same directories miss the same buckets. -/
theorem Misses.of_agreeOff (h : p.Misses names split files₁ b) (hagree : AgreeOff L files₁ files₂)
    (hs : p.Schedules s) (h₂ : p.Succeeds names split files₂ s) :
    p.Misses names split files₂ b := by
  refine ⟨h.unwanted, ?_, by rw [hagree.working]; exact h.unwritten⟩
  rcases h₂.locate_bucketFile hs h.unwanted b with ⟨l, hl⟩ | hmissing
  · have hthere := hagree.locate_iff.1 hl
    rw [h.missing] at hthere
    cases hthere
  · exact hmissing

theorem missed_eq (hagree : AgreeOff L files₁ files₂) (hs : p.Schedules s)
    (h₁ : p.Succeeds names split files₁ s) (h₂ : p.Succeeds names split files₂ s) :
    p.missed names split files₂ = p.missed names split files₁ := by
  ext l
  constructor
  · rintro ⟨b, hb, rfl⟩
    exact ⟨b, hb.of_agreeOff hagree.symm hs h₁, by rw [hagree.working]⟩
  · rintro ⟨b, hb, rfl⟩
    exact ⟨b, hb.of_agreeOff hagree hs h₂, by rw [hagree.working]⟩

/-- No chunk goes to a bucket that is missed. -/
theorem destination_notMem_missed {chunk : Chunk} (hc : chunk ∈ p.chunks) :
    (names.pathOf chunk.target).destination files.working ∉ p.missed names split files :=
  fun ⟨_, hb, h⟩ => hb.unwritten chunk hc h

/-- If all entries are in directories, only a path with steps up misses a bucket that is there. -/
theorem exists_parent_of_mem_missed (h : files.Grounded) {l : Location}
    (hl : l ∈ p.missed names split files) (hthere : files.lookup? l ≠ none) :
    ∃ b, .parent ∈ (names.bucketFile b).components := by
  obtain ⟨b, hb, rfl⟩ := hl
  refine ⟨b, ?_⟩
  by_contra hparent
  exact h.locate_ne_missing hparent (names.inFolder_bucketFile b).text_ne_empty hthere hb.missing

/-- **A run succeeds** exactly if nothing is told of its files. -/
theorem succeeds_iff (ho : o.policy = .files dir split)
    (hs : (make synthesize store known m o).Schedules s) :
    let plan := make synthesize store known m o
    plan.Succeeds ⟨dir, o.moduleName⟩ split files s ↔
      (plan.carryOut files s).1.diagnostics =
        plan.warnings ++ Category.all.flatMap fun c => (plan.contribution c).diagnostics := by
  intro plan
  rw [diagnostics_carryOut ho files hs, List.append_assoc, List.append_cancel_left_eq,
    List.append_left_eq_self, List.flatMap_eq_nil_iff]
  refine forall₂_congr fun a _ => ⟨Attempt.told_of_succeeds, fun htold => ?_⟩
  by_contra hfails
  obtain ⟨message, hmessage⟩ := Attempt.told_of_not_succeeds hfails
  rw [htold] at hmessage
  cases hmessage

/-! ## Two runs -/

/-- **Two runs that succeed on stores that differ in the run's own files** end with the same result,
and a file that is different after them is a bucket that the first one has missed. -/
theorem carryOut_changesOnly_missed (ho : o.policy = .files dir split)
    (hs : (make synthesize store known m o).Schedules s)
    (h : ChangesOnly
      ((make synthesize store known m o).ownPlaces ⟨dir, o.moduleName⟩ files₁.working) files₁
      files₂)
    (h₁ : (make synthesize store known m o).Succeeds ⟨dir, o.moduleName⟩ split files₁ s)
    (h₂ : (make synthesize store known m o).Succeeds ⟨dir, o.moduleName⟩ split files₂ s) :
    let plan := make synthesize store known m o
    (plan.carryOut files₂ s).1 = (plan.carryOut files₁ s).1 ∧
      ChangesOnly (plan.missed ⟨dir, o.moduleName⟩ split files₁) (plan.carryOut files₁ s).2
        (plan.carryOut files₂ s).2 := by
  intro plan
  set names : FileNames := ⟨dir, o.moduleName⟩
  obtain ⟨D', hreplays, hD'⟩ := exists_replays ho h hs h₁ h₂
  obtain ⟨hresult, hstores⟩ := carryOut_of_replays hreplays
  refine ⟨hresult, hstores.mono fun l hl => ?_⟩
  obtain ⟨hchunks, halpha, hother⟩ := hD' l hl
  have hbucket : l ∈ plan.ownPlaces names files₁.working →
      ∃ b, l = (names.bucketFile b).destination files₁.working := by
    rintro ⟨q, ⟨b, rfl⟩ | ⟨chunk, hc, rfl⟩, rfl⟩
    · exact ⟨b, rfl⟩
    · exact absurd rfl (hchunks chunk hc)
  by_cases hsplit : split = .alphaBuckets
  · obtain ⟨hD, hbuckets⟩ := halpha hsplit
    obtain ⟨b, hb⟩ := hbucket hD
    exact absurd hb (hbuckets b)
  · obtain ⟨hD, hunreached⟩ := hother hsplit
    obtain ⟨b, rfl⟩ : ∃ b, l = (names.bucketFile b).destination files₁.working := by
      rcases hD with hD | ⟨b, hb⟩
      · exact hbucket hD
      · exact ⟨b, by rw [← h.working]; exact locate_eq_destination hb⟩
    refine ⟨b, ⟨hsplit, ?_, fun chunk hc heq => hchunks chunk hc heq.symm⟩, rfl⟩
    rcases h₁.locate_bucketFile hs hsplit b with ⟨l, hl⟩ | hmissing
    · rw [locate_eq_destination hl] at hl
      exact absurd hl (hunreached b)
    · exact hmissing

/-- **Two runs that succeed** leave the same files, but for buckets that both miss. -/
theorem carryOut_agreeOff (ho : o.policy = .files dir split)
    (hs : (make synthesize store known m o).Schedules s)
    (h : AgreeOff ((make synthesize store known m o).ownPlaces ⟨dir, o.moduleName⟩ files₁.working)
      files₁ files₂)
    (h₁ : (make synthesize store known m o).Succeeds ⟨dir, o.moduleName⟩ split files₁ s)
    (h₂ : (make synthesize store known m o).Succeeds ⟨dir, o.moduleName⟩ split files₂ s) :
    let plan := make synthesize store known m o
    (plan.carryOut files₂ s).1 = (plan.carryOut files₁ s).1 ∧
      AgreeOff (plan.missed ⟨dir, o.moduleName⟩ split files₁) (plan.carryOut files₁ s).2
        (plan.carryOut files₂ s).2 := by
  intro plan
  obtain ⟨hresult, hforward⟩ := carryOut_changesOnly_missed ho hs h.changesOnly h₁ h₂
  have hsymm := h.symm
  rw [← h.working] at hsymm
  obtain ⟨-, hback⟩ := carryOut_changesOnly_missed ho hs hsymm.changesOnly h₂ h₁
  rw [missed_eq h hs h₁ h₂] at hback
  exact ⟨hresult, .of_changesOnly hforward hback⟩

/-- What a run misses it leaves as it is. -/
theorem file_of_mem_missed (ho : o.policy = .files dir split)
    (hs : (make synthesize store known m o).Schedules s) {l : Location}
    (hl : l ∈ (make synthesize store known m o).missed ⟨dir, o.moduleName⟩ split files)
    (bytes : ByteArray) :
    ((make synthesize store known m o).carryOut files s).2.lookup? l = some (.file bytes) ↔
      files.lookup? l = some (.file bytes) := by
  obtain ⟨b, hb, rfl⟩ := hl
  exact file_of_misses ho hs hb bytes

/-- **If what is missed is the same before two runs,** everything is the same after them. -/
theorem carryOut_agreeOff_empty (ho : o.policy = .files dir split)
    (hs : (make synthesize store known m o).Schedules s)
    (h : AgreeOff ((make synthesize store known m o).ownPlaces ⟨dir, o.moduleName⟩ files₁.working)
      files₁ files₂)
    (h₁ : (make synthesize store known m o).Succeeds ⟨dir, o.moduleName⟩ split files₁ s)
    (h₂ : (make synthesize store known m o).Succeeds ⟨dir, o.moduleName⟩ split files₂ s)
    (hsame : ∀ l ∈ (make synthesize store known m o).missed ⟨dir, o.moduleName⟩ split files₁,
      files₂.lookup? l = files₁.lookup? l) :
    let plan := make synthesize store known m o
    AgreeOff ∅ (plan.carryOut files₁ s).2 (plan.carryOut files₂ s).2 := by
  intro plan
  obtain ⟨-, hafter⟩ := carryOut_agreeOff ho hs h h₁ h₂
  refine ⟨hafter.working, hafter.directory, fun l _ => Option.ext fun e => ?_⟩
  by_cases hl : l ∈ plan.missed ⟨dir, o.moduleName⟩ split files₁
  · cases e with
    | directory => exact hafter.directory l
    | file bytes =>
      have hl₂ : l ∈ plan.missed ⟨dir, o.moduleName⟩ split files₂ := by
        rw [missed_eq h hs h₁ h₂]
        exact hl
      rw [file_of_mem_missed ho hs hl₂, hsame l hl, file_of_mem_missed ho hs hl]
  · rw [hafter.entry l hl]

/-! ## A run and the next one -/

/-- After a run that succeeds its buckets are not missed any more. -/
theorem locate_bucketFile_ne_missing (ho : o.policy = .files dir split)
    (hs : (make synthesize store known m o).Schedules s)
    (h : (make synthesize store known m o).Succeeds ⟨dir, o.moduleName⟩ split files s)
    (b : Bucket) :
    ((make synthesize store known m o).carryOut files s).2.locate
      ((⟨dir, o.moduleName⟩ : FileNames).bucketFile b) ≠ .error .missing := by
  set names : FileNames := ⟨dir, o.moduleName⟩
  -- the module's file is there, in the same folder
  have hmodule : ⟨.file names.moduleFile, o.boilerplate ++ m.boilerplate⟩ ∈
      (make synthesize store known m o).chunks := (mem_chunks_make ho).2 (.inl rfl)
  obtain ⟨bytes, hbytes⟩ := exists_readBytes ho hs h _ hmodule
  obtain ⟨l, hl, -⟩ := readBytes_eq_ok_iff.1 hbytes
  exact names.inFolder_moduleFile.locate_ne_missing (names.inFolder_bucketFile b) hl

/-- **A bucket that a run has missed** is removed when the run is made again. -/
theorem not_file_again (ho : o.policy = .files dir split)
    (hs : (make synthesize store known m o).Schedules s)
    (h : (make synthesize store known m o).Succeeds ⟨dir, o.moduleName⟩ split files s) :
    let plan := make synthesize store known m o
    let after := plan.carryOut files s
    plan.Succeeds ⟨dir, o.moduleName⟩ split after.2 s →
      ∀ l ∈ plan.missed ⟨dir, o.moduleName⟩ split files, ∀ bytes,
        (plan.carryOut after.2 s).2.lookup? l ≠ some (.file bytes) := by
  rintro plan after hok l ⟨b, hb, rfl⟩ bytes hfile
  set names : FileNames := ⟨dir, o.moduleName⟩
  have hworking : after.2.working = files.working := (carryOut_changesOnly_own ho hs files).working
  rw [carryOut_store (layout?_make ho)] at hfile
  rcases exists_of_writeAll (fun e he => serves_of_mem_writes ho hs he) hfile with
    ⟨a, ha, -, hdest⟩ | hready
  · -- no chunk is written there
    obtain ⟨chunk, hc, hpath⟩ := exists_chunk_of_mem_writeAttempts hs ha
    rw [ready_frame.2, hworking, ← hpath] at hdest
    exact hb.unwritten chunk hc hdest
  · rw [ready_eq_prepare hb.unwanted] at hready
    have hprepared : b ∈ s.preparations.map Prod.fst :=
      hs.preparations.mem_iff.2 (Bucket.mem_all b)
    rcases exists_of_prepare (w := plan.starting names after.2) hprepared (by rw [← hworking]; rfl)
      hready with ⟨a, ha, -⟩ | ⟨hmissing, -⟩
    · rw [← preparationAttempts_eq hb.unwanted] at ha
      exact (mem_preparationAttempts hb.unwanted ha).2 (hok a (List.mem_append_left _ ha))
    · exact locate_bucketFile_ne_missing ho hs h b hmissing

/-- **A run that is made again** ends alike, and all files stay as they are but for the buckets that
it has missed before: these are gone. -/
theorem carryOut_again (ho : o.policy = .files dir split)
    (hs : (make synthesize store known m o).Schedules s)
    (h : (make synthesize store known m o).Succeeds ⟨dir, o.moduleName⟩ split files s) :
    let plan := make synthesize store known m o
    let names : FileNames := ⟨dir, o.moduleName⟩
    let missed := plan.missed names split files
    let after := plan.carryOut files s
    plan.Succeeds names split after.2 s →
      let again := plan.carryOut after.2 s
      again.1 = after.1 ∧
      (∀ chunk ∈ plan.chunks, ∃ bytes,
        after.2.readBytes (names.pathOf chunk.target) = .ok bytes ∧
          again.2.readBytes (names.pathOf chunk.target) = .ok bytes) ∧
      (∀ l ∉ missed, ∀ bytes,
        (again.2.lookup? l = some (.file bytes) ↔ after.2.lookup? l = some (.file bytes))) ∧
      ∀ l ∈ missed, ∀ bytes, again.2.lookup? l ≠ some (.file bytes) := by
  intro plan names missed after hok again
  have hchanges := carryOut_changesOnly_own ho hs files
  obtain ⟨hresult, hstores⟩ := carryOut_changesOnly_missed ho hs hchanges h hok
  refine ⟨hresult, fun chunk hc => ?_, fun l hl bytes => hstores.file l bytes hl,
    not_file_again ho hs h hok⟩
  obtain ⟨bytes, hbytes⟩ := exists_readBytes ho hs h chunk hc
  refine ⟨bytes, hbytes, hstores.readBytes ?_ hbytes⟩
  rw [hchanges.working]
  exact destination_notMem_missed hc

/-- All files of a run are Swift files, whatever the names of types hold. -/
theorem isSwift_of_mem_ownPlaces (ho : o.policy = .files dir split) {w l : Location}
    (hl : l ∈ (make synthesize store known m o).ownPlaces ⟨dir, o.moduleName⟩ w) : IsSwift l := by
  obtain ⟨q, ⟨b, rfl⟩ | ⟨chunk, hc, rfl⟩, rfl⟩ := hl
  · exact FileNames.isSwift_partFile _ _ w
  · rcases (mem_chunks_make ho).1 hc with rfl | ⟨c, -, g, -, rfl⟩
    · exact FileNames.isSwift_moduleFile _ w
    · rw [Chunk.ofGroup, pathOf_groupTarget]
      exact FileNames.isSwift_partFile _ _ w

/-- **What the files of a run were before makes no difference to it,** but for buckets that it
misses. Let two stores differ only in which files are at the places of the run's own and in what
these hold, be it a text or not, and let a plan succeed on both, in the same order. Then the results
are the same, and so are all files afterwards unless they were different before and are buckets that
both runs miss; each run leaves these as they were. No bucket is missed if the path of one leads
somewhere, and in a file system only a path with steps up can miss one that is there. The files of
all chunks are there and do not differ, and with alphabetical buckets each bucket holds what this
run has written to it. If the plan is carried out once more and succeeds, its result is the same
again, the buckets that were missed are gone, and all else stays as it is. The plans of runs on the
two stores are the same if all side files can be read or are not there, and so is the plan of the
second run if in addition side files could be reached before the first. -/
theorem history_forgotten (synthesize : Synthesizer) (store : FileStore) (known : Registry)
    (m : Module) (o : RunOptions) {dir : Path} {split : TypeSplit}
    (ho : o.policy = .files dir split) {s : Schedule}
    (hs : (make synthesize store known m o).Schedules s) {files₁ files₂ : FileStore}
    (hagree : AgreeOff
      ((make synthesize store known m o).ownPlaces ⟨dir, o.moduleName⟩ files₁.working) files₁
      files₂)
    (h₁ : (make synthesize store known m o).Succeeds ⟨dir, o.moduleName⟩ split files₁ s)
    (h₂ : (make synthesize store known m o).Succeeds ⟨dir, o.moduleName⟩ split files₂ s) :
    let plan := make synthesize store known m o
    let names : FileNames := ⟨dir, o.moduleName⟩
    let missed := plan.missed names split files₁
    let after₁ := plan.carryOut files₁ s
    let after₂ := plan.carryOut files₂ s
    after₂.1 = after₁.1 ∧
    (∀ l ∉ missed, after₂.2.lookup? l = after₁.2.lookup? l) ∧
    (∀ l ∈ missed, ∀ bytes,
      (after₁.2.lookup? l = some (.file bytes) ↔ files₁.lookup? l = some (.file bytes)) ∧
      (after₂.2.lookup? l = some (.file bytes) ↔ files₂.lookup? l = some (.file bytes))) ∧
    ((∀ l ∈ missed, files₂.lookup? l = files₁.lookup? l) →
      (∀ l, after₂.2.lookup? l = after₁.2.lookup? l) ∧ ∀ q, after₂.2.stat q = after₁.2.stat q) ∧
    ((∃ b l, files₁.locate (names.bucketFile b) = .ok l) → missed = ∅) ∧
    (files₁.Grounded → ∀ l ∈ missed, files₁.lookup? l ≠ none →
      ∃ b, .parent ∈ (names.bucketFile b).components) ∧
    (∀ chunk ∈ plan.chunks, ∃ bytes, after₁.2.readBytes (names.pathOf chunk.target) = .ok bytes ∧
      after₂.2.readBytes (names.pathOf chunk.target) = .ok bytes) ∧
    (split = .alphaBuckets → ∀ b, after₁.2.readBytes (names.bucketFile b) =
      .ok (plan.context.filters.preamble ++ String.join
        ((s.writes.filter fun e => e.1.target = .bucket b).map (·.1.content))).toUTF8) ∧
    (plan.Succeeds names split after₁.2 s →
      let again := plan.carryOut after₁.2 s
      again.1 = after₁.1 ∧
      (∀ chunk ∈ plan.chunks, ∃ bytes,
        after₁.2.readBytes (names.pathOf chunk.target) = .ok bytes ∧
          again.2.readBytes (names.pathOf chunk.target) = .ok bytes) ∧
      (∀ l ∉ missed, ∀ bytes,
        (again.2.lookup? l = some (.file bytes) ↔ after₁.2.lookup? l = some (.file bytes))) ∧
      ∀ l ∈ missed, ∀ bytes, again.2.lookup? l ≠ some (.file bytes)) ∧
    ((make synthesize files₁ known m o).warnings = [] →
      ((make synthesize files₂ known m o).warnings = [] →
        make synthesize files₂ known m o = make synthesize files₁ known m o) ∧
      ((make synthesize after₁.2 known m o).warnings = [] →
        (∀ f : SideFile, ∃ l, files₁.locate (f.path o.configDir o.moduleName) = .ok l) →
          make synthesize after₁.2 known m o = make synthesize files₁ known m o)) := by
  intro plan names missed after₁ after₂
  obtain ⟨hresult, hafter⟩ := carryOut_agreeOff ho hs hagree h₁ h₂
  have hmissed : plan.missed names split files₂ = missed := missed_eq hagree hs h₁ h₂
  have hchanges := carryOut_changesOnly_own ho hs files₁
  refine ⟨hresult, hafter.entry, fun l hl bytes => ⟨?_, ?_⟩, fun hsame => ?_,
    fun ⟨b, l, hl⟩ => missed_eq_empty hl, fun hgrounded l => exists_parent_of_mem_missed hgrounded,
    fun chunk hc => ?_, fun hsplit b => ?_, carryOut_again ho hs h₁,
    fun hw => ⟨fun hw' => ?_, fun hw' hreach => ?_⟩⟩
  · exact file_of_mem_missed ho hs hl bytes
  · exact file_of_mem_missed ho hs (hmissed ▸ hl) bytes
  · have hall := carryOut_agreeOff_empty ho hs hagree h₁ h₂ hsame
    exact ⟨fun l => hall.entry l (Set.notMem_empty l), hall.stat⟩
  · obtain ⟨bytes, hbytes⟩ := exists_readBytes ho hs h₁ chunk hc
    refine ⟨bytes, hbytes, hafter.changesOnly.readBytes ?_ hbytes⟩
    rw [hchanges.working]
    exact destination_notMem_missed hc
  · subst hsplit
    exact bucket_holds_writes ho hs h₁ b
  · exact make_eq hagree.changesOnly (fun l hl => isSwift_of_mem_ownPlaces ho hl)
      (fun f l => hagree.locate_iff.1) hw hw'
  · refine make_eq hchanges (fun l hl => isSwift_of_mem_ownPlaces ho hl) (fun f l hl => ?_) hw hw'
    obtain ⟨l', hl'⟩ := hreach f
    rw [hchanges.grows.locate hl'] at hl
    rw [hl', hl]

/-- The store without the bucket that an earlier run has left. -/
def bareStore : FileStore := ⟨.ofList [(["o"], .directory)], []⟩

/-- The bucket survives a run that takes a detour, and is gone after the next one. -/
theorem history_forgotten_detour :
    detourOptions.policy = .files ⟨"n/../o"⟩ .groupedRuns ∧
      detourPlan.Schedules detourPlan.inOrder ∧
      AgreeOff (detourPlan.ownPlaces ⟨⟨"n/../o"⟩, "T"⟩ detourStore.working) detourStore bareStore ∧
      detourPlan.Succeeds ⟨⟨"n/../o"⟩, "T"⟩ .groupedRuns detourStore detourPlan.inOrder ∧
      detourPlan.Succeeds ⟨⟨"n/../o"⟩, "T"⟩ .groupedRuns bareStore detourPlan.inOrder ∧
      let after := detourPlan.carryOut detourStore detourPlan.inOrder
      let afterBare := detourPlan.carryOut bareStore detourPlan.inOrder
      after.2.lookup? ["o", "T-A.swift"] = some (.file "old".toUTF8) ∧
        afterBare.2.lookup? ["o", "T-A.swift"] = none ∧
        (detourPlan.carryOut after.2 detourPlan.inOrder).2.lookup? ["o", "T-A.swift"] ≠
          some (.file "old".toUTF8) := by
  set after := detourPlan.carryOut detourStore detourPlan.inOrder
  set afterBare := detourPlan.carryOut bareStore detourPlan.inOrder
  have hpolicy : detourOptions.policy = .files ⟨"n/../o"⟩ .groupedRuns := rfl
  have hschedules : detourPlan.Schedules detourPlan.inOrder :=
    schedules_map detourPlan (fun _ => .none) fun _ => false
  have hstore : detourStore = bareStore.setFile ["o", "T-A.swift"] "old".toUTF8 := rfl
  have hagree : AgreeOff (detourPlan.ownPlaces ⟨⟨"n/../o"⟩, "T"⟩ detourStore.working) detourStore
      bareStore := by
    rw [hstore]
    refine (agreeOff_setFile (by decide +kernel) _).symm.mono (Set.singleton_subset_iff.2 ?_)
    exact ⟨_, .inl ⟨Bucket.ofName "A", rfl⟩, by decide +kernel⟩
  -- in none of the three runs anything is told of a file
  have hnone : (detourPlan.warnings ++
      Category.all.flatMap fun c => (detourPlan.contribution c).diagnostics) = [] := by
    decide +kernel
  obtain ⟨htold₁, htold⟩ : after.1.diagnostics = [] ∧
      (detourPlan.carryOut after.2 detourPlan.inOrder).1.diagnostics = [] := by
    decide +kernel
  obtain ⟨htold₂, hbare⟩ : afterBare.1.diagnostics = [] ∧
      afterBare.2.lookup? ["o", "T-A.swift"] = none := by
    decide +kernel
  have h₁ : detourPlan.Succeeds ⟨⟨"n/../o"⟩, "T"⟩ .groupedRuns detourStore detourPlan.inOrder :=
    (succeeds_iff hpolicy hschedules).2 (htold₁.trans hnone.symm)
  have h₂ : detourPlan.Succeeds ⟨⟨"n/../o"⟩, "T"⟩ .groupedRuns bareStore detourPlan.inOrder :=
    (succeeds_iff hpolicy hschedules).2 (htold₂.trans hnone.symm)
  have hmissed : ["o", "T-A.swift"] ∈
      detourPlan.missed ⟨⟨"n/../o"⟩, "T"⟩ .groupedRuns detourStore :=
    ⟨Bucket.ofName "A", ⟨by decide, by decide +kernel, by decide +kernel⟩, by decide +kernel⟩
  obtain ⟨-, -, hkept, -, -, -, -, -, hnext, -⟩ := history_forgotten (fun _ d => some d.name)
    detourStore .empty blank detourOptions hpolicy hschedules hagree h₁ h₂
  obtain ⟨-, -, -, hgone⟩ := hnext ((succeeds_iff hpolicy hschedules).2 (htold.trans hnone.symm))
  exact ⟨hpolicy, hschedules, hagree, h₁, h₂, (hkept _ hmissed _).1.2 (by decide +kernel), hbare,
    hgone _ hmissed _⟩

end Plan

end SwiftBindings
