import Mathlib.Data.List.Induction
import SwiftBindings.Proofs.Run.Contribution
import SwiftBindings.Run.Basic

/-!
# Runs without an output directory

The code of a run without an output directory is one text. Categories are worked on side by side
and finish in any order, but what they contribute is arranged before it is put together.

* `RunResult.diagnostics_afterSteps`: each step sees what the steps before it left, and adds one
  error if it fails.
* `unified_run`: **the result of such a run, category by category in processing order**, of which
  the order of finishing is no part.
-/

namespace SwiftBindings

open Synthesizer

/-- What a step has to tell of a result. -/
def PostStep.error? (step : PostStep) (r : RunResult) : Option Diagnostic :=
  (step.run r).map fun reasons => .error .postProcess (": ".intercalate (step.name :: reasons))

namespace RunResult

theorem afterStep_eq (r : RunResult) (step : PostStep) :
    r.afterStep step = { r with diagnostics := r.diagnostics ++ (step.error? r).toList } := by
  unfold afterStep PostStep.error?
  cases step.run r <;> simp

theorem afterSteps_append (r : RunResult) (steps more : List PostStep) :
    r.afterSteps (steps ++ more) = (r.afterSteps steps).afterSteps more := List.foldl_append

/-- Steps change nothing but the diagnostics. -/
theorem afterSteps_eq (r : RunResult) (steps : List PostStep) :
    r.afterSteps steps = { r with diagnostics := (r.afterSteps steps).diagnostics } := by
  induction steps generalizing r with
  | nil => rfl
  | cons step rest ih =>
    have h : r.afterSteps (step :: rest) = (r.afterStep step).afterSteps rest := rfl
    rw [h]
    conv_lhs => rw [ih]
    generalize ((r.afterStep step).afterSteps rest).diagnostics = ds
    rw [afterStep_eq]

@[simp] theorem unified_afterSteps (r : RunResult) (steps : List PostStep) :
    (r.afterSteps steps).unified = r.unified := by rw [afterSteps_eq]

@[simp] theorem report?_afterSteps (r : RunResult) (steps : List PostStep) :
    (r.afterSteps steps).report? = r.report? := by rw [afterSteps_eq]

@[simp] theorem stats_afterSteps (r : RunResult) (steps : List PostStep) :
    (r.afterSteps steps).stats = r.stats := by rw [afterSteps_eq]

/-- **Each step that fails adds one error**, in order; a step sees what those before it left. -/
theorem diagnostics_afterSteps (r : RunResult) (steps : List PostStep) :
    (r.afterSteps steps).diagnostics = r.diagnostics ++
      steps.zipIdx.filterMap fun e => e.1.error? (r.afterSteps (steps.take e.2)) := by
  induction steps using List.reverseRecOn with
  | nil => simp [afterSteps]
  | append_singleton steps step ih =>
    -- the steps before see the same as without the last one
    have hbefore : steps.zipIdx.filterMap
          (fun e => e.1.error? (r.afterSteps ((steps ++ [step]).take e.2))) =
        steps.zipIdx.filterMap fun e => e.1.error? (r.afterSteps (steps.take e.2)) := by
      refine List.filterMap_congr fun e he => ?_
      have hlt : e.2 < steps.length := by simpa using (List.mem_zipIdx he).2.1
      rw [List.take_append_of_le_length (by omega)]
    have hlast : ([step].zipIdx steps.length).filterMap
          (fun e => e.1.error? (r.afterSteps ((steps ++ [step]).take e.2))) =
        (step.error? (r.afterSteps steps)).toList := by
      simp only [List.zipIdx_singleton, List.filterMap_cons, List.filterMap_nil,
        List.take_left]
      cases step.error? (r.afterSteps steps) <;> rfl
    have hstep : r.afterSteps (steps ++ [step]) = (r.afterSteps steps).afterStep step :=
      afterSteps_append r steps [step]
    rw [hstep, afterStep_eq, List.zipIdx_append, List.filterMap_append, hbefore, Nat.zero_add,
      hlast, ← List.append_assoc, ← ih]

end RunResult

variable {synthesize : Synthesizer} {ctx : Context} {m : Module} {all : Bool} {c : Category}

/-- The texts of a category: the code of its selected declarations that have any, in order. -/
def Synthesizer.texts (synthesize : Synthesizer) (ctx : Context) (m : Module) (all : Bool)
    (c : Category) : List String :=
  ((ctx.selected m all c).map (code synthesize ctx)).filter (· ≠ "")

namespace Contribution

theorem map_text_snippets (synthesize : Synthesizer) (ctx : Context) (ds : List Declaration) :
    ((ds.map (snippet synthesize ctx)).map (·.text)).filter (· ≠ "") =
      (ds.map (code synthesize ctx)).filter (· ≠ "") := by
  rw [List.map_map]; rfl

theorem make_unified :
    (make synthesize ctx m all none c).unified =
      if Fails synthesize ctx m all c then ""
      else "\n\n".intercalate (texts synthesize ctx m all c) := by
  by_cases h : Fails synthesize ctx m all c
  · rw [make_of_fails h, if_pos h]; rfl
  · rw [make_of_not_fails h, if_neg h]
    simp only [joinSimple, map_text_snippets]
    rfl

theorem make_generated (layout? : Option (FileNames × TypeSplit)) :
    (make synthesize ctx m all layout? c).generated =
      if Fails synthesize ctx m all c then 0 else (texts synthesize ctx m all c).length := by
  by_cases h : Fails synthesize ctx m all c
  · rw [make_of_fails h, if_pos h]; rfl
  · rw [make_of_not_fails h, if_neg h]
    simp only [texts, ← map_text_snippets]
    rw [List.filter_map (f := fun s : Snippet => s.text), List.length_map]
    rfl

theorem make_blacklisted (layout? : Option (FileNames × TypeSplit)) :
    (make synthesize ctx m all layout? c).blacklisted =
      if Fails synthesize ctx m all c then 0
      else (Selection.select m c ctx.filters all).blacklisted := by
  by_cases h : Fails synthesize ctx m all c
  · rw [make_of_fails h, if_pos h]; rfl
  · rw [make_of_not_fails h, if_neg h]

theorem make_elided (layout? : Option (FileNames × TypeSplit)) :
    (make synthesize ctx m all layout? c).elided =
      if Fails synthesize ctx m all c then []
      else (Selection.select m c ctx.filters all).elided := by
  by_cases h : Fails synthesize ctx m all c
  · rw [make_of_fails h, if_pos h]; rfl
  · rw [make_of_not_fails h, if_neg h]

theorem make_diagnostics (layout? : Option (FileNames × TypeSplit)) :
    (make synthesize ctx m all layout? c).diagnostics =
      if Fails synthesize ctx m all c then [.error .generate (c.name ++ ": synthesis failed")]
      else [] := by
  by_cases h : Fails synthesize ctx m all c
  · rw [make_of_fails h, if_pos h]; rfl
  · rw [make_of_not_fails h, if_neg h]

end Contribution

section Dropping

variable {α β : Type} (l : List α) (p : α → Prop) [DecidablePred p]

theorem flatMap_ite_nil (f : α → List β) :
    (l.flatMap fun a => if p a then [] else f a) = (l.filter fun a => ¬ p a).flatMap f := by
  induction l with
  | nil => rfl
  | cons a rest ih =>
    rw [List.flatMap_cons, ih]
    by_cases h : p a <;> simp [h]

theorem flatMap_ite_singleton (f : α → β) :
    (l.flatMap fun a => if p a then [f a] else []) = (l.filter fun a => p a).map f := by
  induction l with
  | nil => rfl
  | cons a rest ih =>
    rw [List.flatMap_cons, ih]
    by_cases h : p a <;> simp [h]

theorem foldr_add_ite_zero (f : α → Nat) :
    (l.map fun a => if p a then 0 else f a).foldr (· + ·) 0 =
      ((l.filter fun a => ¬ p a).map f).foldr (· + ·) 0 := by
  induction l with
  | nil => rfl
  | cons a rest ih =>
    rw [List.map_cons, List.foldr_cons, ih]
    by_cases h : p a <;> simp [h]

theorem filter_ite_empty (f : α → String) :
    (l.map fun a => if p a then "" else f a).filter (· ≠ "") =
      ((l.filter fun a => ¬ p a).map f).filter (· ≠ "") := by
  induction l with
  | nil => rfl
  | cons a rest ih =>
    rw [List.map_cons, List.filter_cons, ih]
    by_cases h : p a <;> simp [h, List.filter_cons]

end Dropping

namespace Plan

variable {store files : FileStore} {known : Registry} {o : RunOptions} {s : Schedule}

/-- What the categories contribute to a run without an output directory, in processing order. -/
def unifiedContributions (synthesize : Synthesizer) (ctx : Context) (m : Module) (all : Bool) :
    List Contribution :=
  Category.all.map (Contribution.make synthesize ctx m all none)

/-- Without an output directory there is no layout. -/
theorem layout?_of_no_directory (ho : o.outputDir? = none) :
    (make synthesize store known m o).layout? = none := by
  show layoutOf o.moduleName o.policy = none
  unfold RunOptions.policy
  rw [ho]
  rfl

/-- Without an output directory nothing is written, and nothing is told of writing. -/
theorem writeFiles_of_no_directory (ho : o.outputDir? = none) :
    (make synthesize store known m o).writeFiles files s =
      .start files ⟨⟨""⟩, o.moduleName⟩
        (make synthesize store known m o).context.filters.preamble := by
  unfold writeFiles
  rw [layout?_of_no_directory ho]
  rfl

/-- A run without an output directory writes nothing, and arranges what the categories contribute
in whatever order they finish. -/
theorem carryOut_unified (synthesize : Synthesizer) (store : FileStore) (known : Registry)
    (m : Module) {o : RunOptions} (ho : o.outputDir? = none) {s : Schedule}
    (hf : s.finished.Perm Category.all) :
    let p := make synthesize store known m o
    let cs := unifiedContributions synthesize p.context m o.generateAll
    p.layout? = none ∧ (p.carryOut store s).1.unified = p.unifiedText cs ∧
      (p.carryOut store s).1.stats = statsOf cs ∧
      (p.carryOut store s).1.diagnostics = p.warnings ++ cs.flatMap (·.diagnostics) ∧
      (p.carryOut store s).2 = store := by
  intro p cs
  have hlayout : p.layout? = none := layout?_of_no_directory ho
  have hcs : Contribution.arrange (s.finished.map p.contribution) = cs := by
    rw [arrange_contributions hf]
    show Category.all.map (Contribution.make synthesize p.context m o.generateAll _) = _
    rw [show layoutOf o.moduleName o.policy = none from hlayout]
    rfl
  unfold carryOut
  rw [hcs, writeFiles_of_no_directory ho]
  refine ⟨hlayout, rfl, rfl, ?_, rfl⟩
  show p.warnings ++ [] ++ _ = _
  rw [List.append_nil]

end Plan

/-- **A run without an output directory does not depend on the order in which categories finish.**
Its code is the boilerplate, the preamble and the texts of the categories that do not fail, its
counts are theirs, and it tells of the side files, of each category that fails and of each step that
fails, in this order. No file changes. -/
theorem unified_run (synthesize : Synthesizer) (steps : List PostStep) (store : FileStore)
    (known : Registry) (m : Module) (o : RunOptions) (ho : o.outputDir? = none) {s : Schedule}
    (hf : s.finished.Perm Category.all) :
    let plan := Plan.make synthesize store known m o
    let ctx := plan.context
    let fails := Fails synthesize ctx m o.generateAll
    let working := Category.all.filter fun c => ¬ fails c
    let made := (plan.carryOut store s).1
    let result := made.afterSteps steps
    result.unified = o.boilerplate ++ m.boilerplate ++ ctx.filters.preamble ++
        "\n\n".intercalate ((working.map fun c =>
          "\n\n".intercalate (texts synthesize ctx m o.generateAll c)).filter (· ≠ "")) ∧
      result.stats.generated = (Category.all.map fun c =>
        (c, if fails c then 0 else (texts synthesize ctx m o.generateAll c).length)) ∧
      result.stats.blacklisted = (working.map fun c =>
        (Selection.select m c ctx.filters o.generateAll).blacklisted).foldr (· + ·) 0 ∧
      result.stats.elided = (working.flatMap fun c =>
        (Selection.select m c ctx.filters o.generateAll).elided) ∧
      result.diagnostics =
        (Filters.load store o.configDir o.moduleName).2.map FileError.sideFileWarning ++
        ((Category.all.filter fun c => fails c).map fun c =>
          Diagnostic.error .generate (c.name ++ ": synthesis failed")) ++
        steps.zipIdx.filterMap (fun e => e.1.error? (made.afterSteps (steps.take e.2))) ∧
      (plan.carryOut store s).2 = store := by
  intro plan ctx fails working made result
  obtain ⟨hlayout, hunified, hstats, hdiagnostics, hstore⟩ :=
    Plan.carryOut_unified synthesize store known m ho hf
  refine ⟨?_, ?_, ?_, ?_, ?_, hstore⟩
  · rw [RunResult.unified_afterSteps, hunified, Plan.unifiedText, hlayout]
    simp only [Plan.unifiedContributions, List.map_map, Function.comp_def,
      Contribution.make_unified, filter_ite_empty]
    rfl
  · rw [RunResult.stats_afterSteps, hstats]
    simp only [Plan.statsOf, Plan.unifiedContributions, List.map_map, Function.comp_def,
      Contribution.make_generated, Contribution.make_category]
    rfl
  · rw [RunResult.stats_afterSteps, hstats]
    simp only [Plan.statsOf, Plan.unifiedContributions, List.map_map, Function.comp_def,
      Contribution.make_blacklisted, foldr_add_ite_zero]
    rfl
  · rw [RunResult.stats_afterSteps, hstats]
    simp only [Plan.statsOf, Plan.unifiedContributions, List.flatMap_map,
      Contribution.make_elided, flatMap_ite_nil]
    rfl
  · rw [RunResult.diagnostics_afterSteps, hdiagnostics]
    simp only [Plan.unifiedContributions, List.flatMap_map, Contribution.make_diagnostics,
      flatMap_ite_singleton]
    rfl

/-- A module with a function, an alias and two records. -/
def tools : Module :=
  ⟨"Test", "// tools\n",
    [⟨"draw", none, none, .function ⟨[], none⟩⟩, ⟨"Ink", none, none, .alias "int"⟩,
      ⟨"Pen", none, none, .record []⟩, ⟨"Brush", none, none, .record []⟩]⟩

/-- Declarations written by their names, but functions cannot be made. -/
def toolNames : Synthesizer := fun _ d => if d.category = .function then none else some d.name

/-- Two steps: one fails, and one fails if it is told of two errors. -/
def toolSteps : List PostStep :=
  [⟨"lint", fun _ => some ["not found"]⟩,
    ⟨"count", fun r => if r.errors.length = 2 then some ["two"] else none⟩]

/-- The last category finishes first. -/
def toolSchedule : Schedule := ⟨[], [], Category.all.reverse⟩

theorem unified_run_tools :
    (RunOptions.ofModule "Test").outputDir? = none ∧ toolSchedule.finished.Perm Category.all ∧
      let made := ((Plan.make toolNames ⟨.empty, []⟩ .empty tools (.ofModule "Test")).carryOut
        ⟨.empty, []⟩ toolSchedule).1
      (made.afterSteps toolSteps).unified = "// tools\nInk\n\nPen\n\nBrush" ∧
        (made.afterSteps toolSteps).diagnostics =
          [.error .generate "function: synthesis failed", .error .postProcess "lint: not found",
            .error .postProcess "count: two"] := by
  have hf : toolSchedule.finished.Perm Category.all := List.reverse_perm _
  obtain ⟨hunified, -, -, -, hdiagnostics, -⟩ := unified_run toolNames toolSteps ⟨.empty, []⟩ .empty
    tools (.ofModule "Test") rfl hf
  refine ⟨rfl, hf, hunified.trans ?_, hdiagnostics.trans ?_⟩
  · decide +kernel
  · decide +kernel

end SwiftBindings
