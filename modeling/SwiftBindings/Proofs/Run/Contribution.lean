import Mathlib.Data.List.Nodup
import Mathlib.Tactic.Common
import SwiftBindings.Proofs.Layout.Groups
import SwiftBindings.Run.Basic

/-!
# What a category contributes

A category fails if the code of one of its selected declarations cannot be made. Otherwise all it
contributes is a matter of its selected declarations in order.

* `make_of_fails`, `make_of_not_fails`: the contribution of a category.
* `make_congr`: it depends on what is selected and on the code of that, and on nothing else.
* `arrange_map`: contributions are arranged alike whatever order they come in.
* `Plan.arrange_contributions`, `Plan.diagnostics_of_finished`: so are those of a run, and what it
  tells.
-/

namespace SwiftBindings

variable {synthesize : Synthesizer} {ctx : Context} {m : Module} {all : Bool} {c : Category}

/-- The code of a declaration, if it can be made. -/
def Synthesizer.code (synthesize : Synthesizer) (ctx : Context) (d : Declaration) : String :=
  (synthesize ctx d).getD ""

/-- The snippet of a declaration. -/
def Synthesizer.snippet (synthesize : Synthesizer) (ctx : Context) (d : Declaration) : Snippet :=
  ⟨d.displayName, Synthesizer.code synthesize ctx d⟩

/-- The declarations of a category that code is made for. -/
def Context.selected (ctx : Context) (m : Module) (all : Bool) (c : Category) : List Declaration :=
  (Selection.select m c ctx.filters all).declarations

theorem Context.mem_of_mem_selected {d : Declaration} (h : d ∈ ctx.selected m all c) :
    d ∈ m.declarations := (List.mem_filter.1 (List.mem_filter.1 h).1).1

/-- Whether the code of a category cannot be made. -/
def Synthesizer.Fails (synthesize : Synthesizer) (ctx : Context) (m : Module) (all : Bool)
    (c : Category) : Prop :=
  ∃ d ∈ ctx.selected m all c, synthesize ctx d = none

instance : Decidable (Synthesizer.Fails synthesize ctx m all c) :=
  inferInstanceAs (Decidable (∃ d ∈ _, _))

open Synthesizer

namespace Contribution

theorem snippets?_eq (ds : List Declaration) :
    snippets? synthesize ctx ds =
      if ∃ d ∈ ds, synthesize ctx d = none then none else some (ds.map (snippet synthesize ctx)) := by
  unfold snippets?
  induction ds with
  | nil => simp
  | cons d rest ih =>
    rw [List.mapM_cons, ih]
    cases hd : synthesize ctx d with
    | none => simp [hd]
    | some text =>
      have hs : snippet synthesize ctx d = ⟨d.displayName, text⟩ := by
        simp [snippet, code, hd]
      by_cases h : ∃ d ∈ rest, synthesize ctx d = none
      · rw [if_pos h, if_pos (by simpa [hd] using h)]
        rfl
      · rw [if_neg h, if_neg (by simpa [hd] using h), List.map_cons, hs]
        rfl

/-- **A category that fails** contributes its error and nothing else. -/
theorem make_of_fails (h : Fails synthesize ctx m all c)
    (layout? : Option (FileNames × TypeSplit)) :
    make synthesize ctx m all layout? c = failed c := by
  have hs : snippets? synthesize ctx (Selection.select m c ctx.filters all).declarations = none := by
    rw [snippets?_eq]; exact if_pos h
  unfold make
  simp only [hs]

/-- **A category that does not fail** contributes what its selected declarations give. -/
theorem make_of_not_fails (h : ¬ Fails synthesize ctx m all c)
    (layout? : Option (FileNames × TypeSplit)) :
    make synthesize ctx m all layout? c =
      let items := (ctx.selected m all c).map (snippet synthesize ctx)
      { category := c
        generated := (items.filter (·.text ≠ "")).length
        blacklisted := (Selection.select m c ctx.filters all).blacklisted
        elided := (Selection.select m c ctx.filters all).elided
        unified := match layout? with
          | none => joinSimple items
          | some _ => ""
        chunks := match layout? with
          | none => []
          | some (names, split) => partition c items split names
        diagnostics := [] } := by
  have hs : snippets? synthesize ctx (Selection.select m c ctx.filters all).declarations =
      some ((ctx.selected m all c).map (snippet synthesize ctx)) := by
    rw [snippets?_eq]; exact if_neg h
  unfold make
  dsimp only
  split
  · rename_i hnone
    rw [hs] at hnone
    simp at hnone
  · rename_i items hsome
    rw [hs, Option.some.injEq] at hsome
    subst hsome
    rfl

@[simp] theorem make_category (layout? : Option (FileNames × TypeSplit)) :
    (make synthesize ctx m all layout? c).category = c := by
  by_cases h : Fails synthesize ctx m all c
  · rw [make_of_fails h]; rfl
  · rw [make_of_not_fails h]

theorem snippets?_congr {other : Synthesizer} {ctx' : Context} {ds : List Declaration}
    (h : ∀ d ∈ ds, other ctx' d = synthesize ctx d) :
    snippets? other ctx' ds = snippets? synthesize ctx ds := by
  unfold snippets?
  induction ds with
  | nil => rfl
  | cons d rest ih =>
    rw [List.mapM_cons, List.mapM_cons, h d List.mem_cons_self,
      ih fun d' hd' => h d' (List.mem_cons_of_mem _ hd')]

/-- **A category contributes the same** if the same is selected and the same code is made of it. -/
theorem make_congr {other : Synthesizer} {ctx' : Context} {m' : Module}
    (hselect : Selection.select m' c ctx'.filters all = Selection.select m c ctx.filters all)
    (hcode : ∀ d ∈ ctx.selected m all c, other ctx' d = synthesize ctx d)
    (layout? : Option (FileNames × TypeSplit)) :
    make other ctx' m' all layout? c = make synthesize ctx m all layout? c := by
  have hsnippets : snippets? other ctx' (Selection.select m c ctx.filters all).declarations =
      snippets? synthesize ctx (Selection.select m c ctx.filters all).declarations :=
    snippets?_congr hcode
  unfold make
  simp only [hselect, hsnippets]

/-- The chunks of a category are those of the groups of its snippets. -/
theorem make_chunks (names : FileNames) (split : TypeSplit) :
    (make synthesize ctx m all (some (names, split)) c).chunks =
      if Fails synthesize ctx m all c then []
      else (groups c ((ctx.selected m all c).map (snippet synthesize ctx)) split).map
        (Chunk.ofGroup c split names) := by
  by_cases h : Fails synthesize ctx m all c
  · rw [make_of_fails h, if_pos h]; rfl
  · rw [make_of_not_fails h, if_neg h]
    exact partition_eq_map ..

/-- Only a category that fails tells anything. -/
theorem make_diagnostics_eq_nil_iff (layout? : Option (FileNames × TypeSplit)) :
    (make synthesize ctx m all layout? c).diagnostics = [] ↔ ¬ Fails synthesize ctx m all c := by
  by_cases h : Fails synthesize ctx m all c
  · rw [make_of_fails h]; simp [failed, h]
  · rw [make_of_not_fails h]; simp [h]

/-- **The order in which categories finish does not matter.** -/
theorem arrange_map {finished : List Category} (hf : finished.Perm Category.all)
    {f : Category → Contribution} (hc : ∀ c, (f c).category = c) :
    arrange (finished.map f) = Category.all.map f := by
  have hn : finished.Nodup := hf.nodup_iff.2 (by decide)
  -- every category is there once, so it is all there is of its kind
  have hone : ∀ c, (finished.map f).filter (·.category = c) = [f c] := by
    intro c
    rw [List.filter_map]
    have hcomp : ((fun x : Contribution => decide (x.category = c)) ∘ f) =
        fun c' => decide (c' = c) := by
      funext c'; simp [hc]
    rw [hcomp, List.filter_eq, List.count_eq_one_of_mem hn (hf.mem_iff.2 (Category.mem_all c))]
    rfl
  unfold arrange
  simp only [hone]
  exact List.map_eq_flatMap.symm

end Contribution

namespace Plan

variable {store : FileStore} {known : Registry} {o : RunOptions} {s : Schedule}

/-- What the categories contribute is arranged in processing order, in whatever order they finish. -/
theorem arrange_contributions (hf : s.finished.Perm Category.all) :
    Contribution.arrange (s.finished.map (make synthesize store known m o).contribution) =
      Category.all.map (make synthesize store known m o).contribution :=
  Contribution.arrange_map hf fun _ => Contribution.make_category _

/-- What a run tells: of side files, of writing, and of the categories that fail. -/
theorem diagnostics_of_finished (hf : s.finished.Perm Category.all) (files : FileStore) :
    let plan := make synthesize store known m o
    (plan.carryOut files s).1.diagnostics =
      plan.warnings ++ (plan.writeFiles files s).diagnostics ++
        Category.all.flatMap fun c => (plan.contribution c).diagnostics := by
  intro plan
  show plan.warnings ++ (plan.writeFiles files s).diagnostics ++
    (Contribution.arrange (s.finished.map plan.contribution)).flatMap (·.diagnostics) = _
  rw [arrange_contributions hf, List.flatMap_map]

end Plan

end SwiftBindings
