import SwiftBindings.Proofs.Filters.Hiding
import SwiftBindings.Proofs.Run.Accounting
import SwiftBindings.Proofs.Run.Knowledge
import SwiftBindings.Proofs.Swift.Dependence
import SwiftBindings.Proofs.Swift.Skeletons

/-!
# Runs over modules with hidden declarations

A blacklisted declaration is entered into the registry and looked at when private records are told,
and still it gives away no more than its name, its category and, if it is a class, its fields. Of
the registry, skeletons ask only which names are those of records, and what is selected depends on
nothing else of what is hidden.

* `Plan.make_eq_withContext`: plans over modules that are the same but for the blacklist are the
  same but for what is known.
* `Plan.carryOut_withContext`: what is known makes no difference once a plan is made.
* `Plan.hidden_declarations`: **so runs over such modules write the same and tell the same.**
-/

namespace SwiftBindings

namespace Plan

open Swift (skeletons)

variable {p : Plan} {store : FileStore} {known : Registry} {m m' : Module} {o : RunOptions}

/-- A plan is carried out without asking what is known. -/
theorem carryOut_withContext {ctx : Context} (h : ctx.filters = p.context.filters)
    (files : FileStore) (s : Schedule) :
    ({ p with context := ctx } : Plan).carryOut files s = p.carryOut files s := by
  unfold carryOut writeFiles unifiedText layout?
  simp only [h]

/-- A skeleton is the same in contexts of modules that are the same but for what is hidden. -/
theorem skeleton_context_make {hidden : String → Bool} (h : m.SameBut hidden m') (d : Declaration) :
    Swift.skeleton (make skeletons store known m' o).context d =
      Swift.skeleton (make skeletons store known m o).context d := by
  refine Swift.skeleton_congr ⟨?_, fun name => ?_⟩ d
  · rw [filters_make, filters_make]
  · rw [context_make, context_make]
    exact h.isSome_knownIn?_preload _ .records name

/-- **Plans over modules that are the same but for the blacklist** are the same but for what is
known. -/
theorem make_eq_withContext
    (h : m.SameBut (Filters.load store o.configDir o.moduleName).1.isBlacklisted m') :
    make skeletons store known m' o =
      { make skeletons store known m o with
        context := (make skeletons store known m' o).context } := by
  -- the contexts differ, but in nothing that is asked of them
  have hcontribution : (make skeletons store known m' o).contribution =
      (make skeletons store known m o).contribution := by
    funext c
    have hselect : Selection.select m' c (make skeletons store known m' o).context.filters
          o.generateAll =
        Selection.select m c (make skeletons store known m o).context.filters o.generateAll := by
      rw [filters_make, filters_make]
      exact h.select_eq c o.generateAll
    rw [contribution_make, contribution_make]
    exact Contribution.make_congr hselect (fun d _ => congrArg some (skeleton_context_make h d)) _
  have hopening : o.boilerplate ++ m'.boilerplate = o.boilerplate ++ m.boilerplate := by
    rw [h.boilerplate]
  unfold make at hcontribution ⊢
  simp only at hcontribution ⊢
  rw [hcontribution, hopening]

/-- **Blacklisted declarations give away no more than their outline.** Runs over modules that are
the same but for what declarations on the blacklist say plan the same chunks, so they have the same
orders of writing, and in each of them, from whatever files and with whatever the system refuses,
they make the same code, the same files with the same contents, the same counts, the same report and
the same diagnostics. So do whole runs with any steps after them. -/
theorem hidden_declarations (store : FileStore) (known : Registry) (o : RunOptions) {m m' : Module}
    (h : m.SameBut (Filters.load store o.configDir o.moduleName).1.isBlacklisted m') :
    let plan := make skeletons store known m o
    let plan' := make skeletons store known m' o
    plan'.chunks = plan.chunks ∧
      (∀ s, plan'.Schedules s ↔ plan.Schedules s) ∧
      (∀ files s, plan'.carryOut files s = plan.carryOut files s) ∧
      ∀ steps, run skeletons steps store known m' o = run skeletons steps store known m o := by
  intro plan plan'
  have hplan : plan' = { plan with context := plan'.context } := make_eq_withContext h
  have hchunks : plan'.chunks = plan.chunks := by
    rw [hplan]
    rfl
  have hcarry : ∀ files s, plan'.carryOut files s = plan.carryOut files s := by
    intro files s
    have hfilters : plan'.context.filters = plan.context.filters :=
      filters_make.trans filters_make.symm
    rw [hplan, carryOut_withContext hfilters]
  have horder : plan'.inOrder = plan.inOrder := by
    unfold inOrder
    rw [hchunks]
  refine ⟨hchunks, fun s => ?_, hcarry, fun steps => ?_⟩
  · exact ⟨fun hs => ⟨hs.preparations, hchunks ▸ hs.writes, hs.finished⟩,
      fun hs => ⟨hs.preparations, hchunks.symm ▸ hs.writes, hs.finished⟩⟩
  · show ((plan'.carryOut store plan'.inOrder).1.afterSteps steps,
        (plan'.carryOut store plan'.inOrder).2) =
      ((plan.carryOut store plan.inOrder).1.afterSteps steps, (plan.carryOut store plan.inOrder).2)
    rw [horder, hcarry]

/-- A module with a class and its private record, a record and an alias of that. -/
def inkwell (pen ink : Declaration) : Module :=
  ⟨"T", "", [pen, ⟨"PenPrivate", none, none, .record []⟩, ink, ⟨"Dye", none, none, .alias "Ink"⟩]⟩

/-- A side file in which the class and the record are on the blacklist. -/
def inkwellStore : FileStore := ⟨.ofList [(["T.blacklist"], .file "Pen\nInk\n".toUTF8)], []⟩

/-- The class and the record are written nowhere, but the private record is told by the fields of
the class, and the alias by what is known of the record. -/
theorem hidden_declarations_inkwell :
    let fields : List Field := [⟨"priv", "PenPrivate", false⟩]
    let m := inkwell ⟨"Pen", none, none, .class_ none fields⟩ ⟨"Ink", none, none, .record []⟩
    let m' := inkwell ⟨"Pen", some "Quill", some "struct pen", .class_ (some "Tool") fields⟩
      ⟨"Ink", some "Dyestuff", some "struct ink", .record [⟨"hue", "int", false⟩]⟩
    m.SameBut (Filters.load inkwellStore ⟨"."⟩ "T").1.isBlacklisted m' ∧ m' ≠ m ∧
      (run skeletons [] inkwellStore .empty m' (.ofModule "T")).1.unified =
        "public typealias Dye = InkRef\n\npublic struct PenPrivate \x7b\n\x7d" := by
  intro fields m m'
  have hsame : m.SameBut (Filters.load inkwellStore ⟨"."⟩ "T").1.isBlacklisted m' := by
    have hpen : (Filters.load inkwellStore ⟨"."⟩ "T").1.isBlacklisted "Pen" = true := by
      decide +kernel
    have hink : (Filters.load inkwellStore ⟨"."⟩ "T").1.isBlacklisted "Ink" = true := by
      decide +kernel
    exact ⟨rfl, .cons (.inr ⟨hpen, rfl, rfl, fun _ => rfl⟩) (.cons (.inl rfl)
      (.cons (.inr ⟨hink, rfl, rfl, by decide⟩) (.cons (.inl rfl) .nil)))⟩
  obtain ⟨-, -, -, hrun⟩ := hidden_declarations inkwellStore .empty (.ofModule "T") hsame
  refine ⟨hsame, by decide, ?_⟩
  rw [hrun []]
  decide +kernel

end Plan

end SwiftBindings
