import Mathlib.Data.List.Basic
import SwiftBindings.Filters.Selection

/-!
# The split of a module

Every declaration of a module is of one category, and in its category it is selected, blacklisted or
elided. So all of them are counted once.

* `Selection.length_add`: the split of a category counts each of its declarations once.
* `flatMap_category_perm`: **the categories share declarations out,** and `Module.sum_length_of`
  counts them.
-/

namespace SwiftBindings

/-- **The split of a category** counts each of its declarations once. -/
theorem Selection.length_add (m : Module) (c : Category) (f : Filters) (all : Bool) :
    (select m c f all).declarations.length + (select m c f all).blacklisted +
      (select m c f all).elided.length = (m.of c).length := by
  unfold select
  simp only [List.length_map]
  generalize m.of c = ds
  induction ds with
  | nil => rfl
  | cons d rest ih =>
    simp only [List.filter_cons, List.length_cons]
    cases Verdict.of m f all d <;> simp <;> omega

theorem count_filter_eq_ite (l : List Declaration) (p : Declaration → Bool) (d : Declaration) :
    (l.filter p).count d = if p d then l.count d else 0 := by
  split
  · rename_i hd
    exact List.count_filter hd
  · rename_i hd
    exact List.count_eq_zero.2 fun hm => hd (List.mem_filter.1 hm).2

/-- **The categories share declarations out:** each goes to one of them. -/
theorem flatMap_category_perm (l : List Declaration) :
    (Category.all.flatMap fun c => l.filter (·.category = c)).Perm l := by
  rw [List.perm_iff_count]
  intro d
  simp only [Category.all, List.flatMap_cons, List.flatMap_nil, List.count_append, List.count_nil,
    count_filter_eq_ite]
  cases d.category <;> simp

/-- The categories of a module have all of its declarations between them. -/
theorem Module.sum_length_of (m : Module) :
    (Category.all.map fun c => (m.of c).length).foldr (· + ·) 0 = m.declarations.length := by
  have hlength := (flatMap_category_perm m.declarations).length_eq
  rw [List.length_flatMap] at hlength
  exact hlength

end SwiftBindings
