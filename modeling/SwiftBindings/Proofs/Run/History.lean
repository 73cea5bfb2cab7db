import SwiftBindings.Proofs.Run.AlphaBuckets
import SwiftBindings.Proofs.Run.Directory
import SwiftBindings.Proofs.Run.Replay

/-!
# One plan on two stores

A plan is carried out on two stores that differ in some files, and nothing fails. Then the two runs
can be followed side by side: what they write is the same afterwards, and what they remove is gone.

* `Plan.Succeeds`, `Plan.ownPaths`, `Plan.ownPlaces`: runs in which nothing fails, and the files
  that are a run's own.
* `Plan.exists_replays`: **the two runs side by side,** and where their files may still differ.
* `Plan.bucket_holds_writes`: a bucket holds what this run has written to it, and nothing else.
* `Plan.exists_readBytes`, `Plan.carryOut_changesOnly_own`: the files that a run leaves, and those
  that it leaves alone.
-/

namespace SwiftBindings

open FileStore Delivery Writer

namespace Plan

variable {synthesize : Synthesizer} {store : FileStore} {known : Registry} {m : Module}
  {o : RunOptions} {dir : Path} {split : TypeSplit} {p : Plan} {names : FileNames}
  {files files₁ files₂ : FileStore} {ps : List (Bucket × Fault)} {s : Schedule} {D : Set Location}

/-- Whether all that a plan attempts succeeds. -/
def Succeeds (p : Plan) (names : FileNames) (split : TypeSplit) (files : FileStore) (s : Schedule) :
    Prop :=
  ∀ a ∈ p.preparationAttempts names split files s.preparations ++
    p.writeAttempts names split files s, a.succeeds = true

instance (p : Plan) (names : FileNames) (split : TypeSplit) (files : FileStore) (s : Schedule) :
    Decidable (p.Succeeds names split files s) :=
  inferInstanceAs (Decidable (∀ a ∈ _, _))

/-- The paths that are a run's own: those of its chunks and of the buckets. -/
def ownPaths (p : Plan) (names : FileNames) : Set Path :=
  {q | (∃ b, q = names.bucketFile b) ∨ ∃ chunk ∈ p.chunks, q = names.pathOf chunk.target}

/-- The places that these paths lead to. -/
def ownPlaces (p : Plan) (names : FileNames) (w : Location) : Set Location :=
  {l | ∃ q ∈ p.ownPaths names, l = q.destination w}

/-! ## Two runs side by side -/

/-- **Two writers with their buckets prepared,** if types are spread over buckets. -/
theorem ready_replays (h : ChangesOnly D files₁ files₂) (hps : (ps.map Prod.fst).Perm Bucket.all)
    (h₁ : ∀ a ∈ p.preparationAttempts names .alphaBuckets files₁ ps, a.succeeds = true)
    (h₂ : ∀ a ∈ p.preparationAttempts names .alphaBuckets files₂ ps, a.succeeds = true) :
    Replays (D \ {l | ∃ b, l = (names.bucketFile b).destination files₁.working})
      (p.ready names .alphaBuckets files₁ ps) (p.ready names .alphaBuckets files₂ ps) := by
  have hstart : Replays D (p.starting names files₁) (p.starting names files₂) :=
    ⟨rfl, h, fun b hb => absurd hb List.not_mem_nil, fun b hb => absurd hb List.not_mem_nil⟩
  have hprepared := hstart.prepare h₁ h₂
  have hlocations : (p.starting names files₁).bucketLocations (ps.map Prod.fst) =
      {l | ∃ b, l = (names.bucketFile b).destination files₁.working} := by
    ext l
    refine ⟨fun ⟨b, _, hl⟩ => ⟨b, hl⟩, fun ⟨b, hl⟩ => ⟨b, ?_, hl⟩⟩
    exact hps.mem_iff.2 (Bucket.mem_all b)
  rw [hlocations] at hprepared
  have hready : ∀ files, (∀ a ∈ p.preparationAttempts names .alphaBuckets files ps,
      a.succeeds = true) → p.ready names .alphaBuckets files ps =
        ((p.starting names files).prepare true ps).2.openBuckets (ps.map Prod.fst) := by
    intro files hok
    rw [← prepare_of_succeeds hok]
    rfl
  -- all buckets have just been made
  have heq : (p.starting names files₁).prepare true ps = (_, _) := rfl
  obtain ⟨-, -, hread, -⟩ := prepare_spec (hps.nodup_iff.2 Bucket.nodup_all) heq
  obtain ⟨hnames, -, hworking⟩ := prepare_frame heq
  rw [prepare_of_succeeds h₁] at hread
  rw [hready files₁ h₁, hready files₂ h₂]
  refine hprepared.openBuckets (fun b hb => ?_) fun b _ hD => hD.2 ⟨b, ?_⟩
  · exact ⟨_, by rw [← hread b hb, ← hnames]; rfl⟩
  · rw [hnames, hworking]
    rfl

/-- **Otherwise buckets are removed.** -/
theorem ready_replays_of_ne (h : ChangesOnly D files₁ files₂) (hne : split ≠ .alphaBuckets)
    (hps : (ps.map Prod.fst).Perm Bucket.all)
    (h₁ : ∀ a ∈ p.preparationAttempts names split files₁ ps, a.succeeds = true)
    (h₂ : ∀ a ∈ p.preparationAttempts names split files₂ ps, a.succeeds = true) :
    Replays ((D ∪ {l | ∃ b, files₂.locate (names.bucketFile b) = .ok l}) \
        {l | ∃ b, files₁.locate (names.bucketFile b) = .ok l})
      (p.ready names split files₁ ps) (p.ready names split files₂ ps) := by
  rw [preparationAttempts_eq hne] at h₁ h₂
  obtain ⟨hw₁, hclears₁⟩ := prepare_clears h₁
  obtain ⟨hw₂, hclears₂⟩ := prepare_clears h₂
  have hlocations : ∀ files : FileStore,
      {l | ∃ e ∈ ps, files.locate (names.bucketFile e.1) = .ok l} =
        {l | ∃ b, files.locate (names.bucketFile b) = .ok l} := by
    intro files
    ext l
    refine ⟨fun ⟨e, _, hl⟩ => ⟨e.1, hl⟩, fun ⟨b, hl⟩ => ?_⟩
    obtain ⟨e, he, rfl⟩ := List.mem_map.1 (hps.mem_iff.2 (Bucket.mem_all b))
    exact ⟨e, he, hl⟩
  have hstores := hclears₁.changesOnly h hclears₂ fun l ⟨e, he, hl⟩ => ⟨e, he, h.grows.locate hl⟩
  rw [ready_eq_prepare hne, ready_eq_prepare hne, ← hlocations files₁, ← hlocations files₂]
  have hclosed : ((p.starting names files₁).prepare false ps).2.buckets? = none := by
    rw [hw₁]
    rfl
  refine ⟨?_, hstores, fun b hb => ?_, fun b hb => ?_⟩
  · rw [hw₂, hw₁]
    rfl
  · rw [hclosed] at hb
    exact absurd hb List.not_mem_nil
  · rw [hclosed] at hb
    exact absurd hb List.not_mem_nil

/-- **Two runs side by side.** Where their files may still differ in the end, no chunk goes, and no
bucket is that was made or cleared. -/
theorem exists_replays (ho : o.policy = .files dir split) (h : ChangesOnly D files₁ files₂)
    (hs : (make synthesize store known m o).Schedules s)
    (h₁ : (make synthesize store known m o).Succeeds ⟨dir, o.moduleName⟩ split files₁ s)
    (h₂ : (make synthesize store known m o).Succeeds ⟨dir, o.moduleName⟩ split files₂ s) :
    let plan := make synthesize store known m o
    let names : FileNames := ⟨dir, o.moduleName⟩
    ∃ D', Replays D' (plan.writeFiles files₁ s) (plan.writeFiles files₂ s) ∧ ∀ l ∈ D',
      (∀ chunk ∈ plan.chunks, l ≠ (names.pathOf chunk.target).destination files₁.working) ∧
      (split = .alphaBuckets →
        l ∈ D ∧ ∀ b, l ≠ (names.bucketFile b).destination files₁.working) ∧
      (split ≠ .alphaBuckets →
        (l ∈ D ∨ ∃ b, files₂.locate (names.bucketFile b) = .ok l) ∧
          ∀ b, files₁.locate (names.bucketFile b) ≠ .ok l) := by
  intro plan names
  have hprepared₁ := fun a ha => h₁ a (List.mem_append_left _ ha)
  have hprepared₂ := fun a ha => h₂ a (List.mem_append_left _ ha)
  -- the chunks are written from where the preparations end
  have hwritten : ∀ {D₁}, Replays D₁ (plan.ready names split files₁ s.preparations)
      (plan.ready names split files₂ s.preparations) →
      ∃ D', Replays D' (plan.writeFiles files₁ s) (plan.writeFiles files₂ s) ∧ ∀ l ∈ D', l ∈ D₁ ∧
        ∀ chunk ∈ plan.chunks, l ≠ (names.pathOf chunk.target).destination files₁.working := by
    intro D₁ hready
    have hall := (hready.writeAll (fun e he => serves_of_mem_writes ho hs he)
      (fun a ha => h₁ a (List.mem_append_right _ ha))
      fun a ha => h₂ a (List.mem_append_right _ ha)).closeBuckets
    have hworking : (plan.ready names split files₁ s.preparations).store.working =
        files₁.working := ready_frame.2
    rw [writeFiles_eq_ready (layout?_make ho), writeFiles_eq_ready (layout?_make ho)]
    refine ⟨_, hall, fun l ⟨hl, hout⟩ => ⟨hl, fun chunk hc heq => hout ?_⟩⟩
    obtain ⟨e, he, rfl⟩ := List.mem_map.1 (hs.writes.mem_iff.2 hc)
    exact ⟨e, he, by rw [ready_names, hworking]; exact heq⟩
  by_cases hsplit : split = .alphaBuckets
  · subst hsplit
    obtain ⟨D', hreplays, hD'⟩ := hwritten (ready_replays h hs.preparations hprepared₁ hprepared₂)
    refine ⟨D', hreplays, fun l hl => ⟨(hD' l hl).2, fun _ => ?_, fun hne => absurd rfl hne⟩⟩
    obtain ⟨hD, hout⟩ := (hD' l hl).1
    exact ⟨hD, fun b hb => hout ⟨b, hb⟩⟩
  · obtain ⟨D', hreplays, hD'⟩ :=
      hwritten (ready_replays_of_ne h hsplit hs.preparations hprepared₁ hprepared₂)
    refine ⟨D', hreplays, fun l hl => ⟨(hD' l hl).2, fun he => absurd he hsplit, fun _ => ?_⟩⟩
    obtain ⟨hD, hout⟩ := (hD' l hl).1
    exact ⟨hD, fun b hb => hout ⟨b, hb⟩⟩

/-- Two runs side by side end with the same result, and their files differ no more than their
writers' do. -/
theorem carryOut_of_replays (h : Replays D (p.writeFiles files₁ s) (p.writeFiles files₂ s)) :
    (p.carryOut files₂ s).1 = (p.carryOut files₁ s).1 ∧
      ChangesOnly D (p.carryOut files₁ s).2 (p.carryOut files₂ s).2 := by
  have hfiles : (p.writeFiles files₂ s).files = (p.writeFiles files₁ s).files := by rw [h.same]
  have hdiagnostics :
      (p.writeFiles files₂ s).diagnostics = (p.writeFiles files₁ s).diagnostics := by rw [h.same]
  refine ⟨?_, h.stores⟩
  unfold carryOut
  simp only [hfiles, hdiagnostics]

/-! ## Buckets -/

/-- With alphabetical buckets, a chunk that goes to a file of its own goes to no bucket's. -/
theorem destination_ne_bucketFile (ho : o.policy = .files dir .alphaBuckets) {chunk : Chunk}
    (hc : chunk ∈ (make synthesize store known m o).chunks) {q : Path}
    (hq : chunk.target = .file q) (w : Location) (b : Bucket) :
    q.destination w ≠ ((⟨dir, o.moduleName⟩ : FileNames).bucketFile b).destination w := by
  rcases (mem_chunks_make ho).1 hc with rfl | ⟨c, -, g, -, rfl⟩
  · rw [← Target.file.inj hq]
    exact FileNames.destination_moduleFile_ne_bucketFile b
  · exact ofGroup_ne_bucketFile hq w b

/-- **A bucket holds what this run has written to it,** and nothing that was there before. -/
theorem bucket_holds_writes (ho : o.policy = .files dir .alphaBuckets)
    (hs : (make synthesize store known m o).Schedules s)
    (h : (make synthesize store known m o).Succeeds ⟨dir, o.moduleName⟩ .alphaBuckets files s)
    (b : Bucket) :
    let plan := make synthesize store known m o
    let names : FileNames := ⟨dir, o.moduleName⟩
    (plan.carryOut files s).2.readBytes (names.bucketFile b) =
      .ok (plan.context.filters.preamble ++ String.join
        ((s.writes.filter fun e => e.1.target = .bucket b).map (·.1.content))).toUTF8 := by
  intro plan names
  set w := plan.opened names files s.preparations
  obtain ⟨ms, hms, hholds, hnames, hpreamble⟩ := opened_holds plan names files hs.preparations
  -- who sends a chunk makes no difference
  set ds : List Delivery := s.writes.map fun e => ⟨none, e.1, e.2⟩ with hds
  have hentries : ds.map Delivery.entry = s.writes := by
    rw [hds, List.map_map]
    exact List.map_id _
  have hmem : ∀ e ∈ s.writes, e.1 ∈ plan.chunks := fun e he =>
    hs.writes.mem_iff.1 (List.mem_map_of_mem he)
  have hfile : ∀ d ∈ ds, ∀ q, d.chunk.target = .file q → ∀ l b,
      q.destination l ≠ (w.names.bucketFile b).destination l := by
    intro d hd q hq l b
    obtain ⟨e, he, rfl⟩ := List.mem_map.1 hd
    rw [hnames]
    exact destination_ne_bucketFile ho (hmem e he) hq l b
  obtain ⟨ms', hms', hh⟩ := hholds.writeAll hfile
  -- everything is delivered, as nothing is told
  have hserves : ∀ e ∈ s.writes, w.Serves e.1 := fun e he => serves_of_mem_writes ho hs he
  have htold : (w.attempts s.writes).flatMap Attempt.told = [] :=
    List.flatMap_eq_nil_iff.2 fun a ha =>
      Attempt.told_of_succeeds (h a (List.mem_append_right _ ha))
  have hself : w.delivered ds = ds := by
    refine delivered_eq_self ?_
    rw [hentries, (writeAll_accounts hserves).diagnostics, htold, List.append_nil]
  -- and every bucket is made
  have hmade : w.buckets? = some (s.preparations.map Prod.fst) := by
    rw [← prepare_of_succeeds fun a ha => h a (List.mem_append_left _ ha)]
    rfl
  have hb : b ∈ ms' := by
    refine (hms' b).2 (.inl ?_)
    rw [← Option.some.inj (hmade.symm.trans hms)]
    exact hs.preparations.mem_iff.2 (Bucket.mem_all b)
  have hheld := hh.held b hb
  rw [hself, hentries, writeAll_names, writeAll_preamble, hnames, hpreamble, String.empty_append]
    at hheld
  have hcontent : contentOf b ds =
      String.join ((s.writes.filter fun e => e.1.target = .bucket b).map (·.1.content)) := by
    unfold contentOf
    rw [hds, List.filter_map, List.map_map]
    rfl
  rw [carryOut_store (layout?_make ho), ← hcontent]
  exact hheld

/-! ## What a run leaves -/

/-- The files of all chunks are there after a run in which nothing fails. -/
theorem exists_readBytes (ho : o.policy = .files dir split)
    (hs : (make synthesize store known m o).Schedules s)
    (h : (make synthesize store known m o).Succeeds ⟨dir, o.moduleName⟩ split files s) :
    let plan := make synthesize store known m o
    ∀ chunk ∈ plan.chunks, ∃ bytes, (plan.carryOut files s).2.readBytes
      ((⟨dir, o.moduleName⟩ : FileNames).pathOf chunk.target) = .ok bytes := by
  intro plan chunk hc
  have hready : (plan.ready ⟨dir, o.moduleName⟩ split files s.preparations).Readable := by
    have hprepared := fun a ha => h a (List.mem_append_left _ ha)
    have hsame : ChangesOnly ∅ files files := .refl ∅ files
    by_cases hsplit : split = .alphaBuckets
    · subst hsplit
      exact (ready_replays hsame hs.preparations hprepared hprepared).readable
    · exact (ready_replays_of_ne hsame hsplit hs.preparations hprepared hprepared).readable
  obtain ⟨-, hwritten⟩ := hready.writeAll (fun e he => serves_of_mem_writes ho hs he)
    fun a ha => h a (List.mem_append_right _ ha)
  obtain ⟨e, he, rfl⟩ := List.mem_map.1 (hs.writes.mem_iff.2 hc)
  obtain ⟨bytes, hbytes⟩ := hwritten e he
  rw [ready_names] at hbytes
  refine ⟨bytes, ?_⟩
  rw [carryOut_store (layout?_make ho)]
  exact hbytes

/-- A run changes no files but its own. -/
theorem carryOut_changesOnly_own (ho : o.policy = .files dir split)
    (hs : (make synthesize store known m o).Schedules s) (files : FileStore) :
    let plan := make synthesize store known m o
    ChangesOnly (plan.ownPlaces ⟨dir, o.moduleName⟩ files.working) files
      (plan.carryOut files s).2 := by
  intro plan
  refine carryOut_changesOnly ho files hs (fun b => ?_) fun chunk hc => ?_
  · exact ⟨_, .inl ⟨b, rfl⟩, rfl⟩
  · exact ⟨_, .inr ⟨chunk, hc, rfl⟩, rfl⟩

end Plan

end SwiftBindings
