import Mathlib.Tactic.Common
import SwiftBindings.Swift.Skeleton

/-!
# What a skeleton depends on

The skeleton of a declaration is written from the declaration, from the filters and from which names
are known as records. What else is known of a name, and whether it is known as anything else, makes
no difference to it.

* `Context.WritesAlike`: two contexts that agree on all this.
* `skeleton_congr`: **a declaration has one skeleton in both.**
-/

namespace SwiftBindings

/-- Two contexts with the same filters, in which the same names are known as records. -/
structure Context.WritesAlike (ctx ctx' : Context) : Prop where
  filters : ctx'.filters = ctx.filters
  records : ∀ name, (ctx'.registry.record? name).isSome = (ctx.registry.record? name).isSome

namespace Swift

variable {ctx ctx' : Context}

theorem qualifiedName_congr (h : ctx.WritesAlike ctx') :
    qualifiedName ctx' = qualifiedName ctx := by
  funext name
  unfold qualifiedName
  rw [h.filters]

/-- Of what is known, a type name asks only whether a name is that of a record. -/
theorem typeName_congr (h : ctx.WritesAlike ctx') : typeName ctx' = typeName ctx := by
  funext name
  unfold typeName
  rw [h.records, qualifiedName_congr h]

theorem returnType_congr (h : ctx.WritesAlike ctx') : returnType ctx' = returnType ctx := by
  funext s
  unfold returnType
  rw [typeName_congr h]

theorem constantLine_congr (h : ctx.WritesAlike ctx') : constantLine ctx' = constantLine ctx := by
  funext name type value
  unfold constantLine
  rw [h.filters, typeName_congr h]

theorem propertyLines_congr (h : ctx.WritesAlike ctx') :
    propertyLines ctx' = propertyLines ctx := by
  funext fields
  unfold propertyLines
  rw [typeName_congr h]

theorem functionHeader_congr (h : ctx.WritesAlike ctx') :
    functionHeader ctx' = functionHeader ctx := by
  have hparameter : parameter ctx' = parameter ctx := by
    funext p
    unfold parameter
    rw [h.filters, typeName_congr h]
  funext d s
  unfold functionHeader
  rw [h.filters, hparameter, returnType_congr h]

theorem kindSteps_congr (h : ctx.WritesAlike ctx') (d : Declaration) :
    kindSteps ctx' d = kindSteps ctx d := by
  unfold kindSteps
  rw [typeName_congr h, qualifiedName_congr h, returnType_congr h, constantLine_congr h,
    propertyLines_congr h, functionHeader_congr h]

/-- **The skeleton of a declaration** is the same in contexts that agree on filters and records. -/
theorem skeleton_congr (h : ctx.WritesAlike ctx') (d : Declaration) :
    skeleton ctx' d = skeleton ctx d := by
  unfold skeleton skeletonSteps
  rw [kindSteps_congr h]

end Swift

end SwiftBindings
