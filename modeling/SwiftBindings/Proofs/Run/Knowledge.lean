import SwiftBindings.Proofs.Registry.Lookup
import SwiftBindings.Proofs.Run.Contribution
import SwiftBindings.Run.Basic

/-!
# What generation knows

Before any code is made, the names on the whitelist are forgotten and the module's own declarations
are entered. What is known is settled then, so every declaration is written against one registry.

* `Plan.make_congr_synthesizer`: a synthesizer is asked in this one context only, and only about
  the module's own declarations.
* `Plan.known_names`: **what is known of each name in this context.**
-/

namespace SwiftBindings

namespace Plan

variable {synthesize other : Synthesizer} {store : FileStore} {known : Registry} {m : Module}
  {o : RunOptions}

/-- The context of a plan: forgotten names come back if the module declares them itself. -/
theorem context_make (synthesize : Synthesizer) (store : FileStore) (known : Registry) (m : Module)
    (o : RunOptions) :
    (make synthesize store known m o).context =
      let filters := (Filters.load store o.configDir o.moduleName).1
      ⟨o.moduleName, (known.evictAll filters.whitelist).2.preload m, filters⟩ := by
  unfold make Context.resolve Context.declare
  rfl

/-- The rules of a plan do not depend on its module. -/
theorem filters_make : (make synthesize store known m o).context.filters =
    (Filters.load store o.configDir o.moduleName).1 := by
  rw [context_make]

/-- What a category contributes to a plan is made in the context of the plan. -/
theorem contribution_make (synthesize : Synthesizer) (store : FileStore) (known : Registry)
    (m : Module) (o : RunOptions) (c : Category) :
    (make synthesize store known m o).contribution c =
      Contribution.make synthesize (make synthesize store known m o).context m o.generateAll
        (layoutOf o.moduleName o.policy) c := by
  unfold make
  rfl

/-- **A synthesizer is asked in one context,** about declarations of the module alone: two that
answer alike there make the same plan. -/
theorem make_congr_synthesizer
    (h : ∀ d ∈ m.declarations, other (make synthesize store known m o).context d =
      synthesize (make synthesize store known m o).context d) :
    make other store known m o = make synthesize store known m o := by
  have hcontribution : (make other store known m o).contribution =
      (make synthesize store known m o).contribution := by
    funext c
    rw [contribution_make, contribution_make]
    exact Contribution.make_congr rfl (fun d hd => h d (Context.mem_of_mem_selected hd)) _
  unfold make at hcontribution ⊢
  simp only at hcontribution ⊢
  rw [hcontribution]

/-- What the context of a plan has of a name in a table of its registry. -/
theorem knownIn?_make (p : Registry.Part) (name : String) :
    (make synthesize store known m o).context.registry.knownIn? p name =
      ((m.last? p.holds name).map .ofDeclaration).or
        (if name ∈ (Filters.load store o.configDir o.moduleName).1.whitelist then none
          else known.knownIn? p name) := by
  rw [context_make, Registry.knownIn?_preload, Registry.knownIn?_evictAll]

/-- **What generation knows.** Of a name, the registry has as a record what the last record or class
of this name in the module says; without one, what was known before, unless the name is on the
whitelist. The same goes for data types with all declarations but functions, and for functions. So a
name is known exactly if the module declares it, or it was known and is not on the whitelist. And
this is what every call of the synthesizer sees: nothing changes if it is called in this one context
whatever context it is given. -/
theorem known_names (synthesize : Synthesizer) (store : FileStore) (known : Registry) (m : Module)
    (o : RunOptions) :
    let ctx := (make synthesize store known m o).context
    let whitelist := (Filters.load store o.configDir o.moduleName).1.whitelist
    (∀ name,
      ctx.registry.record? name =
        ((m.last? (fun c => c = .record ∨ c = .class_) name).map .ofDeclaration).or
          (if name ∈ whitelist then none else known.record? name) ∧
      ctx.registry.dataType? name =
        ((m.last? (fun c => c ≠ .function) name).map .ofDeclaration).or
          (if name ∈ whitelist then none else known.dataType? name) ∧
      ctx.registry.function? name =
        ((m.last? (fun c => c = .function) name).map .ofDeclaration).or
          (if name ∈ whitelist then none else known.function? name) ∧
      (ctx.registry.isKnown name = true ↔
        (∃ d ∈ m.declarations, d.name = name) ∨
          known.isKnown name = true ∧ name ∉ whitelist)) ∧
    make (fun _ d => synthesize ctx d) store known m o = make synthesize store known m o := by
  intro ctx whitelist
  refine ⟨fun name => ⟨knownIn?_make .records name, knownIn?_make .dataTypes name,
    knownIn?_make .functions name, ?_⟩, make_congr_synthesizer fun d _ => rfl⟩
  show ((known.evictAll whitelist).2.preload m).isKnown name = true ↔ _
  rw [Registry.isKnown_preload, Registry.isKnown_evictAll]

end Plan

end SwiftBindings
