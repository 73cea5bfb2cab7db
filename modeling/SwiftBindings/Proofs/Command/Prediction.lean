import SwiftBindings.Command.Check
import SwiftBindings.Command.Generate
import SwiftBindings.Proofs.Filters.Split
import SwiftBindings.Proofs.Run.Knowledge
import SwiftBindings.Proofs.Run.Unified
import SwiftBindings.Proofs.Swift.Skeletons

/-!
# A check predicts a generation

A check counts what is selected, and a generation counts what it has written. Both settle the
filters of a module in the same way, and what is selected does not depend on what is known; every
selected declaration has a skeleton that is not empty. So the counts agree for every module, and so
do the warnings, as long as no files are written between one module and the next.

* `run_skeletons`: what a run without an output directory counts and tells.
* `Predicts`: a check and a result that agree.
* `check_predicts_generate`: **they agree for every input that can be loaded.**
-/

namespace SwiftBindings

open Swift (skeletons)

variable {store : FileStore} {known : Registry} {m : Module}

/-! ## Runs over one module -/

/-- All selected declarations have texts. -/
theorem length_texts_skeletons (ctx : Context) (m : Module) (all : Bool) (c : Category) :
    (Synthesizer.texts skeletons ctx m all c).length = (ctx.selected m all c).length := by
  unfold Synthesizer.texts
  rw [List.filter_eq_self.2, List.length_map]
  refine List.forall_mem_map.2 fun d _ => ?_
  exact decide_eq_true (Swift.skeleton_ne_empty ctx d)

/-- **What a run without an output directory counts and tells.** No file changes. -/
theorem run_skeletons (store : FileStore) (known : Registry) (m : Module) {o : RunOptions}
    (ho : o.outputDir? = none) :
    let filters := (Filters.load store o.configDir o.moduleName).1
    let selection := fun c => Selection.select m c filters o.generateAll
    let result := (run skeletons [] store known m o).1
    result.stats.generated = (Category.all.map fun c => (c, (selection c).declarations.length)) ∧
      result.stats.blacklisted =
        (Category.all.map fun c => (selection c).blacklisted).foldr (· + ·) 0 ∧
      result.stats.elided = (Category.all.flatMap fun c => (selection c).elided) ∧
      result.diagnostics =
        (Filters.load store o.configDir o.moduleName).2.map FileError.sideFileWarning ∧
      (run skeletons [] store known m o).2 = store := by
  intro filters selection result
  have hfilters : (Plan.make skeletons store known m o).context.filters = filters :=
    Plan.filters_make
  obtain ⟨-, -, hstats, hdiagnostics, hstore⟩ := Plan.carryOut_unified skeletons store known m ho
    (s := (Plan.make skeletons store known m o).inOrder) (.refl _)
  -- no category fails, so nothing is told of one and none is left out of the counts
  have hfails := fun c =>
    Swift.not_fails_skeletons (Plan.make skeletons store known m o).context m o.generateAll c
  have hresult : result.stats = Plan.statsOf (Plan.unifiedContributions skeletons
      (Plan.make skeletons store known m o).context m o.generateAll) := hstats
  rw [hresult]
  refine ⟨?_, ?_, ?_, hdiagnostics.trans ?_, hstore⟩
  · simp only [Plan.statsOf, Plan.unifiedContributions, List.map_map, Function.comp_def,
      Contribution.make_generated, Contribution.make_category, if_neg (hfails _),
      length_texts_skeletons]
    unfold Context.selected
    rw [hfilters]
  · simp only [Plan.statsOf, Plan.unifiedContributions, List.map_map, Function.comp_def,
      Contribution.make_blacklisted, if_neg (hfails _), hfilters]
    rfl
  · simp only [Plan.statsOf, Plan.unifiedContributions, List.flatMap_map,
      Contribution.make_elided, if_neg (hfails _), hfilters]
    rfl
  · simp only [Plan.unifiedContributions, List.flatMap_map, Contribution.make_diagnostics,
      if_neg (hfails _)]
    rw [List.flatMap_eq_nil_iff.2 fun _ _ => rfl, List.append_nil]
    unfold Plan.make Context.resolve
    rfl

/-- A check of a module and the result of a run over it that agree. -/
structure Predicts (m : Module) (check : ModuleCheck) (result : RunResult) : Prop where
  moduleName : check.moduleName = result.moduleName
  /-- Of every category, as many declarations are selected as there are texts. -/
  categories : check.categories.map (fun n => (n.category, n.selected)) = result.stats.generated
  selected : check.selected = (ModuleSummary.ofResult result).generated
  /-- Every declaration is written, blacklisted or elided. -/
  declared : check.declared = (ModuleSummary.ofResult result).generated +
    (ModuleSummary.ofResult result).blacklisted + (ModuleSummary.ofResult result).elided.length
  declarations : check.declared = m.declarations.length
  warnings : check.warnings = (ModuleSummary.ofResult result).warnings

/-- The check of a module in terms of its filters. -/
theorem checkModule_categories (store : FileStore) (dir : Path) (known : Registry) (all : Bool)
    (moduleName : String) (m : Module) :
    (checkModule store dir known all moduleName m).categories =
      Category.all.map (CategoryCount.of m (Filters.load store dir moduleName).1 all) := rfl

/-- What is told of side files are warnings, and a check tells all of them. -/
theorem checkModule_warnings (store : FileStore) (dir : Path) (known : Registry) (all : Bool)
    (moduleName : String) (m : Module) :
    (checkModule store dir known all moduleName m).warnings =
      (Filters.load store dir moduleName).2.map fun e => e.sideFileWarning.describe := by
  unfold checkModule Context.resolve
  simp only
  generalize (Filters.load store dir moduleName).2 = errors
  induction errors with
  | nil => rfl
  | cons e rest ih =>
    rw [List.map_cons, List.map_cons, ← ih]
    rfl

/-- **The check of a module** predicts a run without an output directory. -/
theorem predicts_run (store : FileStore) (known : Registry) (m : Module) {o : RunOptions}
    (ho : o.outputDir? = none) :
    Predicts m (checkModule store o.configDir known o.generateAll o.moduleName m)
      (run skeletons [] store known m o).1 := by
  obtain ⟨hgenerated, hblacklisted, helided, hdiagnostics, -⟩ := run_skeletons store known m ho
  have hname : (run skeletons [] store known m o).1.moduleName = o.moduleName := rfl
  generalize (run skeletons [] store known m o).1 = result at *
  have hwarnings := checkModule_warnings store o.configDir known o.generateAll o.moduleName m
  have hcategories := checkModule_categories store o.configDir known o.generateAll o.moduleName m
  have hcheck : (checkModule store o.configDir known o.generateAll o.moduleName m).moduleName =
      o.moduleName := rfl
  generalize checkModule store o.configDir known o.generateAll o.moduleName m = check at *
  -- from here on both are known by their counts under one set of rules
  generalize (Filters.load store o.configDir o.moduleName).1 = filters at *
  have hdeclared : check.declared = m.declarations.length := by
    rw [← Module.sum_length_of, ModuleCheck.declared, hcategories, List.map_map]
    rfl
  have hcounts := fun c => Selection.length_add m c filters o.generateAll
  constructor
  case moduleName => rw [hname, hcheck]
  case categories =>
    rw [hcategories, hgenerated, List.map_map]
    rfl
  case selected =>
    rw [ModuleCheck.selected, hcategories, ModuleSummary.ofResult, RunStats.total, hgenerated,
      List.map_map, List.map_map]
    rfl
  case declared =>
    -- the three counts of every category add up, and so do their sums over the ten categories
    rw [hdeclared, ← Module.sum_length_of, ModuleSummary.ofResult, RunStats.total, hgenerated,
      hblacklisted, helided]
    simp only [Category.all, List.map_cons, List.map_nil, List.foldr_cons, List.foldr_nil,
      List.flatMap_cons, List.flatMap_nil, List.length_append, List.length_nil, ← hcounts]
    omega
  case declarations => exact hdeclared
  case warnings =>
    rw [hwarnings, ModuleSummary.ofResult, RunResult.warnings, hdiagnostics, List.filter_eq_self.2,
      List.map_map]
    · rfl
    · exact List.forall_mem_map.2 fun e _ => rfl

/-! ## All inputs -/

/-- Descriptions that can all be loaded, each with its module. -/
theorem exists_loaded {paths : List Path} (h : ∀ p ∈ paths, ∃ m, loadModule store p = .ok m) :
    ∃ loaded : List (Path × Module), loaded.map Prod.fst = paths ∧
      ∀ e ∈ loaded, loadModule store e.1 = .ok e.2 := by
  induction paths with
  | nil => exact ⟨[], rfl, by simp⟩
  | cons p rest ih =>
    obtain ⟨m, hm⟩ := h p List.mem_cons_self
    obtain ⟨loaded, hpaths, hloaded⟩ := ih fun q hq => h q (List.mem_cons_of_mem _ hq)
    exact ⟨(p, m) :: loaded, by rw [List.map_cons, hpaths],
      List.forall_mem_cons.2 ⟨hm, hloaded⟩⟩

theorem loadRegistryInto_of_loaded {loaded : List (Path × Module)}
    (h : ∀ e ∈ loaded, loadModule store e.1 = .ok e.2) (r : Registry) :
    loadRegistryInto store r (loaded.map Prod.fst) =
      .ok (loaded.foldl (fun r e => r.preload e.2) r) := by
  induction loaded generalizing r with
  | nil => rfl
  | cons e rest ih =>
    obtain ⟨he, hrest⟩ := List.forall_mem_cons.1 h
    rw [List.map_cons, loadRegistryInto, he]
    exact ih hrest (r.preload e.2)

/-- The checks of descriptions that can be loaded. -/
theorem checkFiles_of_loaded {loaded : List (Path × Module)}
    (h : ∀ e ∈ loaded, loadModule store e.1 = .ok e.2) (dir : Path) (known : Registry)
    (all : Bool) :
    checkFiles store dir known all (loaded.map Prod.fst) =
      .ok (loaded.map fun e => checkModule store dir known all e.1.moduleName e.2) := by
  induction loaded with
  | nil => rfl
  | cons e rest ih =>
    obtain ⟨he, hrest⟩ := List.forall_mem_cons.1 h
    rw [List.map_cons, checkFiles, he]
    simp only [ih hrest]
    rfl

/-- The runs over descriptions that can be loaded. Without an output directory each of them leaves
the files to the next as it found them. -/
theorem generateFiles_of_loaded {loaded : List (Path × Module)}
    (h : ∀ e ∈ loaded, loadModule store e.1 = .ok e.2) {inputs : Inputs}
    (ho : inputs.outputDir? = none) (o : GenerateOptions) (known : Registry) :
    (generateFiles inputs o known store (loaded.map Prod.fst)).report =
      .ok ⟨loaded.map fun e =>
        .ofResult (generateModule store known e.2 (o.runOptions inputs e.1)).1⟩ := by
  induction loaded with
  | nil => rfl
  | cons e rest ih =>
    obtain ⟨he, hrest⟩ := List.forall_mem_cons.1 h
    -- the rest is read from the files that this one was read from
    have hstore : (generateModule store known e.2 (o.runOptions inputs e.1)).2 = store :=
      (run_skeletons store known e.2 (o := o.runOptions inputs e.1) ho).2.2.2.2
    rw [List.map_cons, generateFiles, he]
    simp only [hstore, ih hrest]
    rfl

/-- **A check predicts a generation.** For inputs that can all be loaded, without an output
directory, both commands report of the same modules in the same order. Of each module the check says
how many declarations of every category get a text, and so how many do in all, that all the others
are blacklisted or elided, and the same warnings. -/
theorem check_predicts_generate (store : FileStore) (inputs : Inputs) (manifest? : Option Path)
    (o : GenerateOptions) (ho : inputs.outputDir? = none)
    (hprerequisites : ∀ p ∈ inputs.prerequisites, ∃ m, loadModule store p = .ok m)
    (hirFiles : ∀ p ∈ inputs.irFiles, ∃ m, loadModule store p = .ok m) :
    ∃ (known : Registry) (loaded : List (Path × Module)),
      loadRegistry store inputs.prerequisites = .ok known ∧
      loaded.map Prod.fst = inputs.irFiles ∧
      let checkOf := fun e : Path × Module =>
        checkModule store inputs.configDir known o.generateAll e.1.moduleName e.2
      let resultOf := fun e : Path × Module =>
        (generateModule store known e.2 (o.runOptions inputs e.1)).1
      check store inputs manifest? o.generateAll = .ok ⟨manifest?, loaded.map checkOf⟩ ∧
      (generate store inputs o).report =
        .ok ⟨loaded.map fun e => ModuleSummary.ofResult (resultOf e)⟩ ∧
      ∀ e ∈ loaded, loadModule store e.1 = .ok e.2 ∧ Predicts e.2 (checkOf e) (resultOf e) := by
  obtain ⟨before, hbefore, hloadedBefore⟩ := exists_loaded hprerequisites
  obtain ⟨loaded, hpaths, hloaded⟩ := exists_loaded hirFiles
  obtain ⟨known, hknown⟩ : ∃ known, loadRegistry store inputs.prerequisites = .ok known := by
    rw [loadRegistry, ← hbefore, loadRegistryInto_of_loaded hloadedBefore]
    exact ⟨_, rfl⟩
  refine ⟨known, loaded, hknown, hpaths, ?_, ?_, fun e he => ⟨hloaded e he,
    predicts_run store known e.2 (o := o.runOptions inputs e.1) ho⟩⟩
  · unfold check
    rw [hknown, ← hpaths]
    simp only [checkFiles_of_loaded hloaded]
  · unfold generate
    rw [hknown, ← hpaths]
    exact generateFiles_of_loaded hloaded ho o known

/-- A module with three records. -/
def drawing : Module :=
  ⟨"", "", [⟨"Pen", none, none, .record []⟩, ⟨"Ink", none, none, .record []⟩,
    ⟨"PenPrivate", none, none, .record []⟩]⟩

/-- A store with its description, a blacklist and the description of an empty module. -/
def drawingStore : FileStore :=
  ⟨.ofList [(["Base.json"], .file "\x7b\x7d".toUTF8),
    (["Draw.json"], .file ("\x7b\"declarations\":[\x7b\"name\":\"Pen\",\"kind\":\"record\"\x7d," ++
      "\x7b\"name\":\"Ink\",\"kind\":\"record\"\x7d," ++
      "\x7b\"name\":\"PenPrivate\",\"kind\":\"record\"\x7d]\x7d").toUTF8),
    (["Draw.blacklist"], .file "Ink\n".toUTF8)], []⟩

/-- The module with three records, the empty one being known. -/
def drawingInputs : Inputs := ⟨⟨"."⟩, [⟨"Draw.json"⟩], [⟨"Base.json"⟩], none, none, false⟩

/-- Both commands report of the one module, and count its three records. -/
theorem check_predicts_generate_drawing :
    drawingInputs.outputDir? = none ∧
      (∀ p ∈ drawingInputs.prerequisites, ∃ m, loadModule drawingStore p = .ok m) ∧
      (∀ p ∈ drawingInputs.irFiles, ∃ m, loadModule drawingStore p = .ok m) ∧
      ∃ module summary,
        check drawingStore drawingInputs none false = .ok ⟨none, [module]⟩ ∧
        (generate drawingStore drawingInputs default).report = .ok ⟨[summary]⟩ ∧
        module.declared = 3 ∧
        summary.generated + summary.blacklisted + summary.elided.length = 3 := by
  have hbase : loadModule drawingStore ⟨"Base.json"⟩ = .ok ⟨"", "", []⟩ := by decide +kernel
  have hdraw : loadModule drawingStore ⟨"Draw.json"⟩ = .ok drawing := by decide +kernel
  have hprerequisites : ∀ p ∈ drawingInputs.prerequisites, ∃ m, loadModule drawingStore p = .ok m :=
    List.forall_mem_singleton.2 ⟨_, hbase⟩
  have hirFiles : ∀ p ∈ drawingInputs.irFiles, ∃ m, loadModule drawingStore p = .ok m :=
    List.forall_mem_singleton.2 ⟨_, hdraw⟩
  obtain ⟨known, loaded, -, hpaths, hcheck, hgenerate, hpredicts⟩ := check_predicts_generate
    drawingStore drawingInputs none default rfl hprerequisites hirFiles
  obtain ⟨e, rest, rfl, hpath, hrest⟩ := List.map_eq_cons_iff.1 hpaths
  obtain rfl := List.map_eq_nil_iff.1 hrest
  obtain ⟨hload, hpredicts⟩ := hpredicts e List.mem_cons_self
  have hmodule : e.2 = drawing := by
    rw [hpath, hdraw] at hload
    exact (Except.ok.inj hload).symm
  have hdeclared := hpredicts.declarations
  rw [hmodule] at hdeclared
  exact ⟨rfl, hprerequisites, hirFiles, _, _, hcheck, hgenerate, hdeclared,
    hpredicts.declared.symm.trans hdeclared⟩

end SwiftBindings
