import SwiftBindings.Proofs.Run.Buckets
import SwiftBindings.Proofs.Run.Sources

/-!
# Runs with alphabetical buckets

A run that spreads types over buckets prepares all 27 of them, and then its deliveries come in some
interleaving, any of which the system may refuse. Main statement:

* `alphaBuckets_hold_deliveries`: **a bucket that was prepared or written holds the preamble and
  then the deliveries to it that succeeded, those of each category in the category's order. If
  nothing fails, that is one block for each selected type with code.**
-/

namespace SwiftBindings

open FileStore Delivery Synthesizer Writer

namespace Plan

variable {synthesize : Synthesizer} {store : FileStore} {known : Registry} {m : Module}
  {o : RunOptions} {dir : Path}

/-- The writer of a plan once its buckets are prepared. -/
def opened (p : Plan) (names : FileNames) (files : FileStore) (ps : List (Bucket × Fault)) :
    Writer :=
  let (made, w) := (Writer.start files names p.context.filters.preamble).prepare true ps
  w.openBuckets made

theorem writeFiles_alphaBuckets {p : Plan} {names : FileNames}
    (hp : p.layout? = some (names, .alphaBuckets)) (files : FileStore) (s : Schedule) :
    p.writeFiles files s =
      ((p.opened names files s.preparations).writeAll s.writes).closeBuckets := by
  unfold writeFiles opened
  rw [hp]
  rfl

/-- Prepared buckets hold the preamble alone. -/
theorem opened_holds (p : Plan) (names : FileNames) (files : FileStore)
    {ps : List (Bucket × Fault)} (hps : (ps.map Prod.fst).Perm Bucket.all) :
    ∃ ms, (p.opened names files ps).buckets? = some ms ∧
      (p.opened names files ps).Holds ms (fun _ => "") ∧
      (p.opened names files ps).names = names ∧
      (p.opened names files ps).preamble = p.context.filters.preamble := by
  unfold opened
  cases hp : (Writer.start files names p.context.filters.preamble).prepare true ps with
  | mk made w =>
    obtain ⟨hn, hpre, -⟩ := prepare_frame hp
    obtain ⟨-, -, hmade, -⟩ := prepare_spec (hps.nodup_iff.2 Bucket.nodup_all) hp
    refine ⟨made, rfl, ⟨rfl, rfl, fun b hb => ?_, fun _ _ => rfl⟩, hn, hpre⟩
    have hb := hmade b hb
    simp only [openBuckets, hn, hpre, String.append_empty]
    exact hb

/-- A delivery of a plan is one of its sender's chunks. -/
theorem Delivers.chunk_mem {p : Plan} {ds : List Delivery} (h : p.Delivers ds) {d : Delivery}
    (hd : d ∈ ds) : d.chunk ∈ p.chunksOf d.sender? := by
  rw [← (h.complete d.sender?).mem_iff]
  exact mem_stream.2 (List.mem_map.2 ⟨d, hd, rfl⟩)

/-- A group whose chunk goes to a file of its own has none of the buckets' files. -/
theorem ofGroup_ne_bucketFile {c : Category} {n : FileNames} {g : List Snippet} {q : Path}
    (hq : (Chunk.ofGroup c .alphaBuckets n g).target = .file q) (l : Location) (b : Bucket) :
    q.destination l ≠ (n.bucketFile b).destination l := by
  simp only [Chunk.ofGroup, groupTarget] at hq
  split at hq
  · rename_i suffix hsuffix
    rw [← Target.file.inj hq]
    exact FileNames.destination_suffix_ne_bucketFile hsuffix b
  · simp at hq

/-- With alphabetical buckets, what is not sent to a bucket goes to a file that is none. -/
theorem file_ne_bucketFile (ho : o.policy = .files dir .alphaBuckets) {ds : List Delivery}
    (hds : (make synthesize store known m o).Delivers ds) {d : Delivery} (hd : d ∈ ds) {p : Path}
    (hp : d.chunk.target = .file p) (l : Location) (b : Bucket) :
    p.destination l ≠ ((⟨dir, o.moduleName⟩ : FileNames).bucketFile b).destination l := by
  have hm := hds.chunk_mem hd
  cases hs : d.sender? with
  | none =>
    rw [hs, chunksOf, layout?_make ho] at hm
    rw [List.mem_singleton.1 hm, Target.file.injEq] at hp
    rw [← hp]
    exact FileNames.destination_moduleFile_ne_bucketFile b
  | some c =>
    rw [hs, chunksOf, chunks_make ho] at hm
    simp only at hm
    split at hm
    · simp at hm
    · obtain ⟨g, -, hg⟩ := List.mem_map.1 hm
      rw [← hg] at hp
      exact ofGroup_ne_bucketFile hp l b

/-! ## Blocks -/

/-- The chunks of a category that go to a bucket come from the groups of the bucket. -/
theorem filter_ofGroup (c : Category) (names : FileNames) (b : Bucket) (gs : List (List Snippet)) :
    (gs.map (Chunk.ofGroup c .alphaBuckets names)).filter (fun chunk => chunk.target = .bucket b) =
      (if c.isType then gs.filter fun g => (g.headD default).bucket = b else []).map
        (Chunk.ofGroup c .alphaBuckets names) := by
  rw [List.filter_map]
  congr 1
  cases hs : c.fileSuffix? with
  | some suffix =>
    have hc : c.isType = false := by
      rw [← Bool.not_eq_true, ← Category.fileSuffix?_eq_none_iff, hs]; simp
    simp [hc, Function.comp_def, Chunk.ofGroup, groupTarget, hs]
  | none =>
    have hc : c.isType = true := Category.fileSuffix?_eq_none_iff.1 hs
    simp [hc, Function.comp_def, Chunk.ofGroup, groupTarget, hs]

/-- What a bucket gets if all is delivered, group by group. A category that fails has no groups. -/
theorem exists_groups (ho : o.policy = .files dir .alphaBuckets)
    {ds : List Delivery} (hds : (make synthesize store known m o).Delivers ds) (b : Bucket) :
    ∃ gs : List (Category × List Snippet),
      contentOf b ds = String.join (gs.map fun e => blockText e.2) ∧
      ∀ c, stream c gs =
        if c.isType ∧
            ¬ Fails synthesize (make synthesize store known m o).context m o.generateAll c then
          (groups c (((make synthesize store known m o).context.selected m o.generateAll c).map
            (snippet synthesize (make synthesize store known m o).context)) .alphaBuckets).filter
              fun g => (g.headD default).bucket = b
        else [] := by
  set plan := make synthesize store known m o with hplan
  set sent := (ds.filter (goesTo b)).map fun d => (d.sender?, d.chunk) with hsent
  -- the module's own file goes to no bucket
  have hnone : stream none sent = [] := by
    rw [List.eq_nil_iff_forall_not_mem]
    intro chunk hm
    obtain ⟨d, hd, he⟩ := List.mem_map.1 (mem_stream.1 hm)
    obtain ⟨hd, hg⟩ := List.mem_filter.1 hd
    have hc := hds.chunk_mem hd
    rw [(Prod.mk.inj he).1, chunksOf, layout?_make ho] at hc
    rw [goesTo, List.mem_singleton.1 hc] at hg
    simp at hg
  obtain ⟨labelled, hl, hstream⟩ := exists_labels sent hnone
  have hsources : ∀ c, stream c labelled =
      (if c.isType ∧ ¬ Fails synthesize plan.context m o.generateAll c then
        (groups c ((plan.context.selected m o.generateAll c).map
          (snippet synthesize plan.context)) .alphaBuckets).filter
            fun g => (g.headD default).bucket = b
      else []).map (Chunk.ofGroup c .alphaBuckets ⟨dir, o.moduleName⟩) := by
    intro c
    have hord := hds.ordered b c
    rw [chunks_make ho] at hord
    by_cases hc : Fails synthesize plan.context m o.generateAll c
    · simp only [← hplan, if_pos hc] at hord
      rw [hstream c, if_neg fun h => h.2 hc]
      exact hord
    · simp only [← hplan, if_neg hc] at hord
      simp only [hc, not_false_iff, and_true]
      rw [hstream c, ← filter_ofGroup]
      exact hord
  obtain ⟨gs, hgs, hstr⟩ := exists_map_of_stream_eq_map _ labelled _ hsources
  refine ⟨gs, ?_, hstr⟩
  have hcontent : contentOf b ds = String.join (sent.map fun e => e.2.content) := by
    rw [hsent, List.map_map]; rfl
  rw [hcontent, hl, hgs, List.map_map, List.map_map]
  congr 1
  refine List.map_congr_left fun e he => ?_
  -- only types have groups here
  have hm : e.2 ∈ stream e.1 gs := mem_stream.2 he
  rw [hstr e.1] at hm
  split at hm
  · rename_i ht
    simp [Chunk.ofGroup, groupText, ht.1]
  · simp at hm

theorem join_flatMap {α : Type} (l : List α) (f : α → List String) :
    String.join (l.flatMap f) = String.join (l.map fun a => String.join (f a)) := by
  induction l with
  | nil => rfl
  | cons a rest ih => rw [List.flatMap_cons, String.join_append, ih, List.map_cons, String.join_cons]

/-- **What a bucket gets if all is delivered:** one block for each selected type with code whose
name belongs there, unless its category fails. -/
theorem exists_working_blocks (ho : o.policy = .files dir .alphaBuckets)
    {ds : List Delivery} (hds : (make synthesize store known m o).Delivers ds) (b : Bucket) :
    ∃ blocks : List (Category × Declaration),
      contentOf b ds = String.join (blocks.map fun e =>
        code synthesize (make synthesize store known m o).context e.2 ++ "\n\n") ∧
      ∀ c, stream c blocks =
        if c.isType ∧
            ¬ Fails synthesize (make synthesize store known m o).context m o.generateAll c then
          ((make synthesize store known m o).context.selected m o.generateAll c).filter fun d =>
            Bucket.ofName d.displayName = b ∧
              code synthesize (make synthesize store known m o).context d ≠ ""
        else [] := by
  obtain ⟨gs, hcontent, hgs⟩ := exists_groups ho hds b
  set ctx := (make synthesize store known m o).context
  -- the snippets with code, under the labels of their groups
  set snippets : List (Category × Snippet) :=
    gs.flatMap fun e => (e.2.filter (·.text ≠ "")).map fun s => (e.1, s) with hsn
  have hstream : ∀ c, stream c snippets =
      (if c.isType ∧ ¬ Fails synthesize ctx m o.generateAll c then
        (ctx.selected m o.generateAll c).filter fun d =>
          Bucket.ofName d.displayName = b ∧ code synthesize ctx d ≠ ""
        else []).map (snippet synthesize ctx) := by
    intro c
    have hcut := stream_flatMap c (fun _ (g : List Snippet) => g.filter (·.text ≠ "")) gs
    rw [hsn, hcut, hgs c]
    split
    · rename_i hc
      rw [List.flatMap_def, ← List.filter_flatten, flatten_filter_groups_bucket hc.1,
        List.filter_map]
      rfl
    · rfl
  obtain ⟨blocks, hb, hblocks⟩ := exists_map_of_stream_eq_map _ snippets _ hstream
  refine ⟨blocks, ?_, hblocks⟩
  have hjoin : contentOf b ds = String.join (snippets.map fun e => e.2.text ++ "\n\n") := by
    rw [hcontent, hsn, List.map_flatMap, join_flatMap]
    congr 1
    refine List.map_congr_left fun e _ => ?_
    rw [blockText_eq, List.map_map]
    rfl
  rw [hjoin, hb, List.map_map]
  rfl

/-- If no category fails, these are the blocks of all selected types. -/
theorem exists_blocks (ho : o.policy = .files dir .alphaBuckets)
    (hok : ∀ c, ¬ Fails synthesize (make synthesize store known m o).context m o.generateAll c)
    {ds : List Delivery} (hds : (make synthesize store known m o).Delivers ds) (b : Bucket) :
    ∃ blocks : List (Category × Declaration),
      contentOf b ds = String.join (blocks.map fun e =>
        code synthesize (make synthesize store known m o).context e.2 ++ "\n\n") ∧
      ∀ c, stream c blocks =
        if c.isType then
          ((make synthesize store known m o).context.selected m o.generateAll c).filter fun d =>
            Bucket.ofName d.displayName = b ∧
              code synthesize (make synthesize store known m o).context d ≠ ""
        else [] := by
  obtain ⟨blocks, hcontent, hblocks⟩ := exists_working_blocks ho hds b
  refine ⟨blocks, hcontent, fun c => ?_⟩
  rw [hblocks c]
  simp only [hok c, not_false_iff, and_true]

/-- A run that tells nothing but the warnings about side files has no category that fails, has made
all buckets and has delivered everything. -/
theorem of_diagnostics_eq_warnings (ho : o.policy = .files dir .alphaBuckets) (files : FileStore)
    {ps : List (Bucket × Fault)} (hps : (ps.map Prod.fst).Perm Bucket.all) {ds : List Delivery}
    {finished : List Category} (hf : finished.Perm Category.all)
    (h : ((make synthesize store known m o).carryOut files
      ⟨ps, ds.map Delivery.entry, finished⟩).1.diagnostics =
        (make synthesize store known m o).warnings) :
    let plan := make synthesize store known m o
    let w := plan.opened ⟨dir, o.moduleName⟩ files ps
    (∀ c, ¬ Fails synthesize plan.context m o.generateAll c) ∧
      (∀ b, b ∈ w.buckets?.getD []) ∧ w.delivered ds = ds := by
  intro plan w
  rw [diagnostics_of_finished hf, List.append_assoc, List.append_right_eq_self,
    List.append_eq_nil_iff, writeFiles_alphaBuckets (layout?_make ho)] at h
  obtain ⟨hw : (w.writeAll (ds.map Delivery.entry)).diagnostics = [], hcs⟩ := h
  rw [List.flatMap_eq_nil_iff] at hcs
  have hopen : w.diagnostics = [] :=
    List.prefix_nil.1 (hw ▸ writeAll_diagnostics w (ds.map Delivery.entry))
  refine ⟨fun c => ?_, fun b => ?_, delivered_eq_self (hw.trans hopen.symm)⟩
  · exact (Contribution.make_diagnostics_eq_nil_iff _).1 (hcs c (Category.mem_all c))
  · have hn : (ps.map Prod.fst).Nodup := hps.nodup_iff.2 Bucket.nodup_all
    cases hp : (Writer.start files ⟨dir, o.moduleName⟩ plan.context.filters.preamble).prepare true ps with
    | mk made w₁ =>
      obtain ⟨-, -, -, hall⟩ := prepare_spec hn hp
      have hw₁ : w = w₁.openBuckets made := by
        show plan.opened _ files ps = _
        unfold opened; rw [hp]
      rw [hw₁] at hopen ⊢
      exact hall rfl hopen b (hps.mem_iff.2 (Bucket.mem_all b))

/-- **A bucket holds what was delivered to it.** In a run with alphabetical buckets, whatever its
buckets held before, whichever preparations and writes the system refuses and in whichever order the
chunks of the categories come: a bucket that was prepared or written holds the preamble and then the
deliveries to it that succeeded, each category's in the category's order. If nothing fails, these
are one block for each selected type with code, and all buckets are there. -/
theorem alphaBuckets_hold_deliveries (synthesize : Synthesizer) (store : FileStore)
    (known : Registry) (m : Module) (o : RunOptions) {dir : Path}
    (ho : o.policy = .files dir .alphaBuckets) (files : FileStore) {ps : List (Bucket × Fault)}
    (hps : (ps.map Prod.fst).Perm Bucket.all) {ds : List Delivery}
    (hds : (make synthesize store known m o).Delivers ds) {finished : List Category}
    (hf : finished.Perm Category.all) :
    let plan := make synthesize store known m o
    let names : FileNames := ⟨dir, o.moduleName⟩
    let preamble := plan.context.filters.preamble
    let w := plan.opened names files ps
    let after := plan.carryOut files ⟨ps, ds.map Delivery.entry, finished⟩
    (∀ b, (b ∈ w.buckets?.getD [] ∨ ∃ d ∈ w.delivered ds, d.goesTo b) →
      after.2.readBytes (names.bucketFile b) =
        .ok (preamble ++ contentOf b (w.delivered ds)).toUTF8) ∧
    (∀ b c, (chunksFrom (some c) ((w.delivered ds).filter (goesTo b))).Sublist
      (plan.contribution c).chunks) ∧
    (after.1.diagnostics = plan.warnings → ∀ b, ∃ blocks : List (Category × Declaration),
      after.2.readBytes (names.bucketFile b) = .ok (preamble ++ String.join
        (blocks.map fun e => code synthesize plan.context e.2 ++ "\n\n")).toUTF8 ∧
      ∀ c, stream c blocks =
        if c.isType then
          (plan.context.selected m o.generateAll c).filter fun d =>
            Bucket.ofName d.displayName = b ∧ code synthesize plan.context d ≠ ""
        else []) := by
  intro plan names preamble w after
  have hstore : after.2 = (w.writeAll (ds.map Delivery.entry)).store := by
    show (plan.writeFiles files _).store = _
    rw [writeFiles_alphaBuckets (layout?_make ho)]
    rfl
  -- the invariant holds once the buckets are prepared, and the deliveries keep it
  obtain ⟨ms, hms, hholds, hwn, hwp⟩ := opened_holds plan names files hps
  have hfile : ∀ d ∈ ds, ∀ p, d.chunk.target = .file p → ∀ l b,
      p.destination l ≠ (w.names.bucketFile b).destination l := by
    intro d hd p hp l b
    rw [hwn]
    exact file_ne_bucketFile ho hds hd hp l b
  obtain ⟨ms', hmem, hh⟩ := hholds.writeAll hfile
  have hread : ∀ b, (b ∈ w.buckets?.getD [] ∨ ∃ d ∈ w.delivered ds, d.goesTo b) →
      after.2.readBytes (names.bucketFile b) =
        .ok (preamble ++ contentOf b (w.delivered ds)).toUTF8 := by
    intro b hb
    rw [hms, Option.getD_some] at hb
    have := hh.held b ((hmem b).2 hb)
    rw [hstore]
    simpa [hwn, hwp] using this
  refine ⟨hread, fun b c => ?_, fun hd b => ?_⟩
  · refine (chunksFrom_sublist ((delivered_sublist w ds).filter _)).trans ?_
    rw [hds.ordered b c]
    exact List.filter_sublist
  · obtain ⟨hok, hall, hself⟩ := of_diagnostics_eq_warnings ho files hps hf hd
    obtain ⟨blocks, hcontent, hblocks⟩ := exists_blocks ho hok hds b
    refine ⟨blocks, ?_, hblocks⟩
    rw [hread b (Or.inl (hall b)), hself, hcontent]

/-- A module whose three types share a bucket. -/
def actors : Module :=
  ⟨"Test", "",
    [⟨"Ant", none, none, .record []⟩, ⟨"Apple", none, none, .class_ none []⟩,
      ⟨"Action", none, none, .interface []⟩]⟩

/-- A run over it that spreads types over buckets. -/
def actorOptions : RunOptions :=
  { RunOptions.ofModule "Test" with outputDir? := some ⟨"out"⟩, alphaNames := true }

/-- A store with a preamble and what an earlier run left in the bucket. -/
def actorStore : FileStore :=
  ⟨.ofList [(["Test.preamble"], .file "// made\n".toUTF8), (["out"], .directory),
    (["out", "Test-A.swift"], .file "old".toUTF8)], []⟩

/-- The plan of the run, declarations being written by their names. -/
def actorPlan : Plan := make (fun _ d => some d.name) actorStore .empty actors actorOptions

/-- No bucket can be cleared. -/
def actorPreparations : List (Bucket × Fault) :=
  Bucket.all.map fun b => (b, .removal)

/-- The class comes first and then the record; all else is refused. -/
def actorDeliveries : List Delivery :=
  [⟨some .class_, ⟨.bucket (Bucket.ofName "A"), "Apple\n\n"⟩, false⟩,
    ⟨some .interface, ⟨.bucket (Bucket.ofName "A"), "Action\n\n"⟩, true⟩,
    ⟨some .record, ⟨.bucket (Bucket.ofName "A"), "Ant\n\n"⟩, false⟩] ++
  (actorPlan.deliveries.filter fun d => !d.goesTo (Bucket.ofName "A")).map fun d =>
    { d with refused := true }

theorem actorPlan_delivers : actorPlan.Delivers actorDeliveries := by
  refine ⟨fun sender? => ?_, fun b c => ?_⟩
  · have h : ∀ k ∈ none :: Category.all.map some,
        (chunksFrom k actorDeliveries).Perm (actorPlan.chunksOf k) := by decide +kernel
    exact h sender? (mem_senders sender?)
  · have h : ∀ b ∈ Bucket.all, ∀ c ∈ Category.all,
        chunksFrom (some c) (actorDeliveries.filter (goesTo b)) =
          (actorPlan.contribution c).chunks.filter fun chunk => chunk.target = .bucket b := by
      decide +kernel
    exact h b (Bucket.mem_all b) c (Category.mem_all c)

theorem alphaBuckets_hold_deliveries_actors :
    actorOptions.policy = .files ⟨"out"⟩ .alphaBuckets ∧
      (actorPreparations.map Prod.fst).Perm Bucket.all ∧ actorPlan.Delivers actorDeliveries ∧
      Category.all.Perm Category.all ∧
      (actorPlan.carryOut actorStore
        ⟨actorPreparations, actorDeliveries.map Delivery.entry, Category.all⟩).2.readBytes
          ⟨"out/Test-A.swift"⟩ = .ok "// made\nApple\n\nAnt\n\n".toUTF8 := by
  have hp : (actorPreparations.map Prod.fst).Perm Bucket.all := by decide +kernel
  have hsome : ∃ d ∈ (actorPlan.opened ⟨⟨"out"⟩, "Test"⟩ actorStore actorPreparations).delivered
      actorDeliveries, d.goesTo (Bucket.ofName "A") := by decide +kernel
  have h := (alphaBuckets_hold_deliveries (fun _ d => some d.name) actorStore .empty actors
    actorOptions rfl actorStore hp actorPlan_delivers (.refl _)).1 (Bucket.ofName "A") (Or.inr hsome)
  have hpath : (⟨⟨"out"⟩, "Test"⟩ : FileNames).bucketFile (Bucket.ofName "A") =
      ⟨"out/Test-A.swift"⟩ := by decide +kernel
  have htext : actorPlan.context.filters.preamble ++ contentOf (Bucket.ofName "A")
      ((actorPlan.opened ⟨⟨"out"⟩, "Test"⟩ actorStore actorPreparations).delivered
        actorDeliveries) = "// made\nApple\n\nAnt\n\n" := by decide +kernel
  rw [← hpath, ← htext]
  exact ⟨rfl, hp, actorPlan_delivers, .refl _, h⟩

end Plan

end SwiftBindings
