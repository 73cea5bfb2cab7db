import SwiftBindings.Proofs.Run.History
import SwiftBindings.Proofs.Run.Knowledge
import SwiftBindings.Proofs.Run.Unified

/-!
# Categories that fail

A synthesizer may break off on a declaration. Its category then fails as a whole, with all that has
been made of it, and the run goes on with the others.

* `Plan.contribution_congr`: what a category contributes depends on what the synthesizer makes of
  its own selected declarations, and on nothing else that it does.
* `Plan.stage_of_mem_writeFiles`: writing tells nothing that could be taken for such a failure.
* `Plan.exists_bucket_blocks`: what the buckets hold.
* `Plan.stats_carryOut`, `Plan.unified_carryOut`, `Plan.chunks_of_layout`: counts, text and chunks
  come from the categories that do not fail.
* `Plan.failing_categories_isolated`: **a category that fails leaves one error, and all others are
  as if it had not been there.**
-/

namespace SwiftBindings

open FileStore Synthesizer Writer

/-- A synthesizer that never breaks off: without an answer it makes empty code. -/
def Synthesizer.completed (synthesize : Synthesizer) : Synthesizer :=
  fun ctx d => some (code synthesize ctx d)

/-- Where nothing fails it makes the same. -/
theorem Synthesizer.completed_eq {synthesize : Synthesizer} {ctx : Context} {m : Module}
    {all : Bool} {c : Category} (h : ¬ Fails synthesize ctx m all c) :
    ∀ d ∈ ctx.selected m all c, synthesize.completed ctx d = synthesize ctx d := by
  intro d hd
  obtain ⟨text, htext⟩ := Option.ne_none_iff_exists'.1 fun hnone => h ⟨d, hd, hnone⟩
  unfold completed code
  rw [htext]
  rfl

namespace Plan

variable {synthesize other : Synthesizer} {store files : FileStore} {known : Registry} {m : Module}
  {o : RunOptions} {dir : Path} {c : Category} {s : Schedule}

/-- **What a category contributes depends on its own declarations.** Synthesizers that make the same
of those that are selected may differ in everything else. -/
theorem contribution_congr
    (h : ∀ d ∈ (make synthesize store known m o).context.selected m o.generateAll c,
      other (make synthesize store known m o).context d =
        synthesize (make synthesize store known m o).context d) :
    (make other store known m o).contribution c =
      (make synthesize store known m o).contribution c := by
  have hcontext : (make other store known m o).context =
      (make synthesize store known m o).context := by
    rw [context_make, context_make]
  rw [contribution_make, contribution_make, hcontext]
  exact Contribution.make_congr rfl h _

/-- A category that fails contributes its error and nothing else. -/
theorem contribution_of_fails
    (h : Fails synthesize (make synthesize store known m o).context m o.generateAll c) :
    (make synthesize store known m o).contribution c = .failed c := by
  rw [contribution_make]
  exact Contribution.make_of_fails h _

/-- Buckets are prepared in the same way whatever the synthesizer does. -/
theorem opened_eq_opened (names : FileNames) (files : FileStore) (ps : List (Bucket × Fault)) :
    (make other store known m o).opened names files ps =
      (make synthesize store known m o).opened names files ps := by
  unfold opened
  rw [context_make, context_make]

/-- **Writing tells nothing of the generate stage.** -/
theorem stage_of_mem_writeFiles (hs : (make synthesize store known m o).Schedules s)
    {x : Diagnostic} (hx : x ∈ ((make synthesize store known m o).writeFiles files s).diagnostics) :
    x.stage ≠ .generate := by
  cases ho : o.outputDir? with
  | none =>
    rw [writeFiles_of_no_directory ho] at hx
    exact absurd hx List.not_mem_nil
  | some dir =>
    obtain ⟨split, hpolicy⟩ : ∃ split, o.policy = .files dir split := by
      unfold RunOptions.policy
      rw [ho]
      exact ⟨_, rfl⟩
    rw [(writeFiles_accounts hpolicy files hs).diagnostics] at hx
    -- the writer starts with nothing told
    have hx := (List.mem_append.1 hx).resolve_left List.not_mem_nil
    obtain ⟨a, ha, hx⟩ := List.mem_flatMap.1 hx
    rw [(Attempt.mem_told hx).2.1]
    rcases List.mem_append.1 ha with ha | ha
    · rw [stage_of_mem_preparationAttempts ha]
      decide
    · rw [stage_of_mem_writeAttempts ha]
      decide

/-- **What is told at the generate stage** is one error for each category that fails. -/
theorem filter_generate_diagnostics (hs : (make synthesize store known m o).Schedules s) :
    let plan := make synthesize store known m o
    (plan.carryOut files s).1.diagnostics.filter (·.stage = .generate) =
      (Category.all.filter fun c => Fails synthesize plan.context m o.generateAll c).map fun c =>
        .error .generate (c.name ++ ": synthesis failed") := by
  intro plan
  have hwarnings : plan.warnings.filter (·.stage = .generate) = [] := by
    refine List.filter_eq_nil_iff.2 fun x hx => ?_
    rw [(stage_of_mem_warnings hx).1]
    decide
  have hwriting : (plan.writeFiles files s).diagnostics.filter (·.stage = .generate) = [] := by
    refine List.filter_eq_nil_iff.2 fun x hx => ?_
    simpa using stage_of_mem_writeFiles hs hx
  have hcategories : (Category.all.flatMap fun c => (plan.contribution c).diagnostics).filter
      (·.stage = .generate) = Category.all.flatMap fun c => (plan.contribution c).diagnostics := by
    refine List.filter_eq_self.2 fun x hx => ?_
    obtain ⟨c, -, hx⟩ := List.mem_flatMap.1 hx
    rw [stage_of_mem_diagnostics hx]
    rfl
  rw [diagnostics_of_finished hs.finished, List.filter_append, List.filter_append, hwarnings,
    hwriting, hcategories]
  simp only [plan, contribution_make, Contribution.make_diagnostics, flatMap_ite_singleton]
  rfl

/-- **What the buckets hold.** If all that is attempted succeeds, every bucket is there, with one
block for each selected type with code in it whose category does not fail. -/
theorem exists_bucket_blocks (ho : o.policy = .files dir .alphaBuckets)
    (hs : (make synthesize store known m o).Schedules s)
    (hok : (make synthesize store known m o).Succeeds ⟨dir, o.moduleName⟩ .alphaBuckets files s)
    {ds : List Delivery} (hds : (make synthesize store known m o).Delivers ds)
    (hwrites : s.writes = ds.map Delivery.entry) (b : Bucket) :
    let plan := make synthesize store known m o
    ∃ blocks : List (Category × Declaration),
      (plan.carryOut files s).2.readBytes ((⟨dir, o.moduleName⟩ : FileNames).bucketFile b) =
        .ok (plan.context.filters.preamble ++ String.join
          (blocks.map fun e => code synthesize plan.context e.2 ++ "\n\n")).toUTF8 ∧
      ∀ c, stream c blocks =
        if c.isType ∧ ¬ Fails synthesize plan.context m o.generateAll c then
          (plan.context.selected m o.generateAll c).filter fun d =>
            Bucket.ofName d.displayName = b ∧ code synthesize plan.context d ≠ ""
        else [] := by
  intro plan
  obtain ⟨blocks, hcontent, hblocks⟩ := exists_working_blocks ho hds b
  refine ⟨blocks, ?_, hblocks⟩
  have hsent : contentOf b ds =
      String.join ((s.writes.filter fun e => e.1.target = .bucket b).map (·.1.content)) := by
    unfold contentOf
    rw [hwrites, List.filter_map, List.map_map]
    rfl
  rw [bucket_holds_writes ho hs hok b, ← hsent, hcontent]

/-! ## What the working categories come to -/

/-- A field that is void of a failed contribution can be left out for the categories that fail. -/
theorem field_contribution {β : Type} (field : Contribution → β) {void : β}
    (hvoid : ∀ c, field (.failed c) = void) (c : Category) :
    field ((make synthesize store known m o).contribution c) =
      if Fails synthesize (make synthesize store known m o).context m o.generateAll c then void
      else field ((make synthesize store known m o).contribution c) := by
  split
  · rename_i hc
    rw [contribution_of_fails hc, hvoid c]
  · rfl

/-- **The counts of a run,** and what it elides, come from the categories that do not fail. -/
theorem stats_carryOut (hs : (make synthesize store known m o).Schedules s) (files : FileStore) :
    let plan := make synthesize store known m o
    let fails := Fails synthesize plan.context m o.generateAll
    let working := Category.all.filter fun c => ¬ fails c
    let stats := (plan.carryOut files s).1.stats
    stats.generated =
      (Category.all.map fun c => (c, if fails c then 0 else (plan.contribution c).generated)) ∧
    stats.blacklisted =
      (working.map fun c => (plan.contribution c).blacklisted).foldr (· + ·) 0 ∧
    stats.elided = working.flatMap fun c => (plan.contribution c).elided := by
  intro plan fails working stats
  have hstats : stats = statsOf (Category.all.map plan.contribution) := by
    rw [← arrange_contributions hs.finished]
    rfl
  refine ⟨?_, ?_, ?_⟩
  · rw [hstats, statsOf, List.map_map]
    refine List.map_congr_left fun c _ => ?_
    have hcategory : (plan.contribution c).category = c := Contribution.make_category _
    rw [← field_contribution (·.generated) (fun _ => rfl) c, Function.comp_apply, hcategory]
  · have hmap : (Category.all.map plan.contribution).map (·.blacklisted) =
        Category.all.map fun c => if fails c then 0 else (plan.contribution c).blacklisted := by
      rw [List.map_map]
      exact List.map_congr_left fun c _ => field_contribution (·.blacklisted) (fun _ => rfl) c
    rw [hstats, ← foldr_add_ite_zero, ← hmap]
    rfl
  · rw [hstats, statsOf, List.flatMap_map, ← flatMap_ite_nil]
    exact List.flatMap_congr fun c _ => field_contribution (·.elided) (fun _ => rfl) c

/-- **The unified text of a run** is that of the categories that do not fail. -/
theorem unified_carryOut (hs : (make synthesize store known m o).Schedules s) (files : FileStore) :
    let plan := make synthesize store known m o
    (plan.carryOut files s).1.unified = plan.unifiedText
      ((Category.all.filter fun c => ¬ Fails synthesize plan.context m o.generateAll c).map
        plan.contribution) := by
  intro plan
  have hunified : (plan.carryOut files s).1.unified =
      plan.unifiedText (Category.all.map plan.contribution) := by
    rw [← arrange_contributions hs.finished]
    rfl
  rw [hunified]
  unfold unifiedText
  split
  · rw [List.map_map, List.map_map, ← filter_ite_empty]
    congr 2
    refine congrArg _ (List.map_congr_left fun c _ => ?_)
    exact field_contribution (·.unified) (fun _ => rfl) c
  · rfl

/-- **The chunks of a plan** are the module's own and those of the categories that do not fail. -/
theorem chunks_of_layout {names : FileNames} {split : TypeSplit}
    (h : (make synthesize store known m o).layout? = some (names, split)) :
    let plan := make synthesize store known m o
    plan.chunks = ⟨.file names.moduleFile, plan.opening⟩ ::
      (Category.all.filter fun c => ¬ Fails synthesize plan.context m o.generateAll c).flatMap
        fun c => (plan.contribution c).chunks := by
  intro plan
  unfold chunks
  rw [h, ← flatMap_ite_nil]
  exact congrArg _ (List.flatMap_congr fun c _ => field_contribution (·.chunks) (fun _ => rfl) c)

/-- **Categories that fail are isolated.** Whatever the synthesizer breaks off on, and in whichever
order a run does its work: of each category that fails one error is told at the generate stage, in
processing order, and nothing else is. It contributes no counts, no code and no chunks, so that these
come from the others alone. What another category contributes is the same for every synthesizer that
makes the same of its selected declarations, and there is one that does so for all of them and never
breaks off. Alphabetical buckets are prepared as with any synthesizer, and if all that is attempted
succeeds they hold the blocks of the categories that do not fail. -/
theorem failing_categories_isolated (synthesize : Synthesizer) (store : FileStore)
    (known : Registry) (m : Module) (o : RunOptions) (files : FileStore) {s : Schedule}
    (hs : (make synthesize store known m o).Schedules s) :
    let plan := make synthesize store known m o
    let ctx := plan.context
    let fails := Fails synthesize ctx m o.generateAll
    let working := Category.all.filter fun c => ¬ fails c
    let after := plan.carryOut files s
    after.1.diagnostics.filter (·.stage = .generate) =
      ((Category.all.filter fun c => fails c).map fun c =>
        .error .generate (c.name ++ ": synthesis failed")) ∧
    (∀ c, fails c → plan.contribution c = .failed c) ∧
    after.1.stats.generated =
      (Category.all.map fun c => (c, if fails c then 0 else (plan.contribution c).generated)) ∧
    after.1.stats.blacklisted =
      (working.map fun c => (plan.contribution c).blacklisted).foldr (· + ·) 0 ∧
    after.1.stats.elided = (working.flatMap fun c => (plan.contribution c).elided) ∧
    after.1.unified = plan.unifiedText (working.map plan.contribution) ∧
    (∀ names split, plan.layout? = some (names, split) → plan.chunks =
      ⟨.file names.moduleFile, plan.opening⟩ :: working.flatMap fun c => (plan.contribution c).chunks) ∧
    (∀ (other : Synthesizer) c,
      (∀ d ∈ ctx.selected m o.generateAll c, other ctx d = synthesize ctx d) →
        (make other store known m o).contribution c = plan.contribution c) ∧
    (∃ other : Synthesizer, (∀ ctx d, other ctx d ≠ none) ∧ ∀ c, ¬ fails c →
      ∀ d ∈ ctx.selected m o.generateAll c, other ctx d = synthesize ctx d) ∧
    ∀ dir, o.policy = .files dir .alphaBuckets →
      let names : FileNames := ⟨dir, o.moduleName⟩
      (∀ other : Synthesizer, (make other store known m o).opened names files s.preparations =
        plan.opened names files s.preparations) ∧
      (plan.Succeeds names .alphaBuckets files s → ∀ ds, plan.Delivers ds →
        s.writes = ds.map Delivery.entry → ∀ b, ∃ blocks : List (Category × Declaration),
          after.2.readBytes (names.bucketFile b) = .ok (ctx.filters.preamble ++ String.join
            (blocks.map fun e => code synthesize ctx e.2 ++ "\n\n")).toUTF8 ∧
          ∀ c, stream c blocks =
            if c.isType ∧ ¬ fails c then
              (ctx.selected m o.generateAll c).filter fun d =>
                Bucket.ofName d.displayName = b ∧ code synthesize ctx d ≠ ""
            else []) := by
  intro plan ctx fails working after
  obtain ⟨hgenerated, hblacklisted, helided⟩ := stats_carryOut hs files
  refine ⟨filter_generate_diagnostics hs, fun c => contribution_of_fails, hgenerated, hblacklisted,
    helided, unified_carryOut hs files, fun names split => chunks_of_layout,
    fun other c hother => contribution_congr hother, ?_, fun dir ho => ⟨?_, ?_⟩⟩
  · exact ⟨synthesize.completed, fun ctx d => by simp [completed], fun c hc => completed_eq hc⟩
  · exact fun other => opened_eq_opened _ files s.preparations
  · exact fun hok ds hds hwrites b => exists_bucket_blocks ho hs hok hds hwrites b

/-- A module with two records and a class that share a bucket. -/
def crops : Module :=
  ⟨"T", "", [⟨"Apple", none, none, .record []⟩, ⟨"Axe", none, none, .record []⟩,
    ⟨"Ant", none, none, .class_ none []⟩]⟩

/-- Declarations written by their names, but the second record cannot be made. -/
def cropNames : Synthesizer := fun _ d => if d.name = "Axe" then none else some d.name

/-- A run over them that spreads types over buckets. -/
def cropOptions : RunOptions :=
  { RunOptions.ofModule "T" with outputDir? := some ⟨"o"⟩, alphaNames := true }

/-- A store with the output directory. -/
def cropStore : FileStore := ⟨.ofList [(["o"], .directory)], []⟩

/-- The plan of the run. -/
def cropPlan : Plan := make cropNames cropStore .empty crops cropOptions

/-- The first record is lost with the second, and the class stays. -/
theorem failing_categories_isolated_crops :
    cropPlan.Schedules cropPlan.inOrder ∧
      (cropPlan.carryOut cropStore cropPlan.inOrder).1.diagnostics.filter (·.stage = .generate) =
        [.error .generate "record: synthesis failed"] ∧
      ∃ blocks : List (Category × Declaration),
        (cropPlan.carryOut cropStore cropPlan.inOrder).2.readBytes ⟨"o/T-A.swift"⟩ =
          .ok (cropPlan.context.filters.preamble ++ String.join
            (blocks.map fun e => code cropNames cropPlan.context e.2 ++ "\n\n")).toUTF8 ∧
        stream .record blocks = [] ∧ (stream .class_ blocks).map (·.name) = ["Ant"] := by
  have hschedules : cropPlan.Schedules cropPlan.inOrder :=
    schedules_map cropPlan (fun _ => .none) fun _ => false
  obtain ⟨htold, -, -, -, -, -, -, -, -, hbuckets⟩ := failing_categories_isolated cropNames cropStore
    .empty crops cropOptions cropStore hschedules
  obtain ⟨-, hblocks⟩ := hbuckets ⟨"o"⟩ rfl
  have hok : cropPlan.Succeeds ⟨⟨"o"⟩, "T"⟩ .alphaBuckets cropStore cropPlan.inOrder := by
    decide +kernel
  have hwrites : cropPlan.inOrder.writes = cropPlan.deliveries.map Delivery.entry := by
    decide +kernel
  obtain ⟨blocks, hread, hstream⟩ :=
    hblocks hok cropPlan.deliveries (delivers_inOrder cropPlan) hwrites (Bucket.ofName "A")
  refine ⟨hschedules, htold.trans (by decide +kernel), blocks, hread, ?_, ?_⟩
  · exact (hstream .record).trans (by decide +kernel)
  · rw [hstream .class_]
    decide +kernel

end Plan

end SwiftBindings
