import Mathlib.Tactic.Common
import SwiftBindings.Path.Order

/-!
# The order of paths

Components are ordered by their kind and then by name, and paths by their components. So paths that
rank equal are the same, and a set that is sorted holds each path in one spelling.

* `Path.order_eq_eq_iff`: paths that rank equal have the same components.
* `PathSet.exists_same_insert`: what a set holds after an insertion.
* `PathSet.Sorted.insert`: **an insertion keeps a set sorted.**
-/

namespace SwiftBindings

open Std (TransCmp LawfulEqCmp OrientedCmp)

namespace Component

/-- The text of a name. -/
def text : Component → String
  | .name text => text
  | _ => ""

theorem order_eq_compareLex (a b : Component) :
    a.order b = compareLex (compareOn rank) (compareOn text) a b := by
  cases a <;> cases b <;> rfl

theorem order_eq_eq_iff {a b : Component} : a.order b = .eq ↔ a = b := by
  cases a <;> cases b <;> simp [order, rank]

end Component

namespace Path

theorem orderComponents_eq_compareLex (as bs : List Component) :
    orderComponents as bs =
      List.compareLex (compareLex (compareOn Component.rank) (compareOn Component.text)) as bs := by
  induction as generalizing bs with
  | nil => cases bs <;> simp [orderComponents, List.compareLex]
  | cons a as ih =>
    cases bs with
    | nil => simp [orderComponents, List.compareLex]
    | cons b bs =>
      rw [orderComponents, List.compareLex_cons_cons, Component.order_eq_compareLex, ih]
      cases compareLex (compareOn Component.rank) (compareOn Component.text) a b <;> rfl

theorem orderComponents_eq_eq_iff {as bs : List Component} :
    orderComponents as bs = .eq ↔ as = bs := by
  induction as generalizing bs with
  | nil => cases bs <;> simp [orderComponents]
  | cons a as ih =>
    cases bs with
    | nil => simp [orderComponents]
    | cons b bs =>
      rw [orderComponents, List.cons.injEq, ← ih, ← Component.order_eq_eq_iff]
      cases a.order b <;> simp

variable {p q r : Path}

theorem same_iff : p.same q = true ↔ p.components = q.components := by
  unfold same
  exact decide_eq_true_iff

theorem same_eq_false_iff : p.same q = false ↔ p.components ≠ q.components := by
  rw [← Bool.not_eq_true, same_iff]

/-- **Paths that rank equal are the same.** -/
theorem order_eq_eq_iff : p.order q = .eq ↔ p.same q = true := by
  rw [same_iff]
  exact orderComponents_eq_eq_iff

theorem order_lt_trans (h₁ : p.order q = .lt) (h₂ : q.order r = .lt) : p.order r = .lt := by
  unfold order at *
  rw [orderComponents_eq_compareLex] at *
  exact TransCmp.lt_trans h₁ h₂

/-- Of two paths that are not the same, one stands first. -/
theorem order_gt_iff : p.order q = .gt ↔ q.order p = .lt := by
  unfold order
  rw [orderComponents_eq_compareLex, orderComponents_eq_compareLex]
  exact OrientedCmp.gt_iff_lt

/-- Paths in order are different paths. -/
theorem same_eq_false_of_order (h : p.order q = .lt) : p.same q = false := by
  refine Bool.eq_false_iff.2 fun hsame => ?_
  rw [order_eq_eq_iff.2 hsame] at h
  cases h

/-- Paths no two of which are the same. -/
def Distinct (paths : List Path) : Prop := paths.Pairwise fun p q => p.same q = false

theorem distinct_iff {paths : List Path} : Distinct paths ↔ (paths.map components).Nodup := by
  unfold Distinct List.Nodup
  rw [List.pairwise_map]
  simp only [same_eq_false_iff]

end Path

namespace PathSet

variable {p q : Path} {s : PathSet}

theorem mem_of_mem_insert (h : q ∈ insert p s) : q = p ∨ q ∈ s := by
  induction s with
  | nil => exact .inl (List.mem_singleton.1 h)
  | cons r rest ih =>
    unfold insert at h
    split at h
    · exact List.mem_cons.1 h
    · exact .inr h
    · rcases List.mem_cons.1 h with rfl | h
      · exact .inr List.mem_cons_self
      · exact (ih h).imp_right (List.mem_cons_of_mem r)

theorem mem_insert_of_mem (h : q ∈ s) : q ∈ insert p s := by
  induction s with
  | nil => simp at h
  | cons r rest ih =>
    unfold insert
    split
    · exact List.mem_cons_of_mem p h
    · exact h
    · rcases List.mem_cons.1 h with rfl | h
      · exact List.mem_cons_self
      · exact List.mem_cons_of_mem r (ih h)

/-- **What a set holds after an insertion**, paths being told apart by their components. -/
theorem exists_same_insert {r : Path} :
    (∃ q ∈ insert p s, q.same r = true) ↔ p.same r = true ∨ ∃ q ∈ s, q.same r = true := by
  constructor
  · rintro ⟨q, hq, hr⟩
    rcases mem_of_mem_insert hq with rfl | hq
    · exact .inl hr
    · exact .inr ⟨q, hq, hr⟩
  · rintro (hr | ⟨q, hq, hr⟩)
    · obtain ⟨q, hq, hp⟩ := mem_insert_self p s
      refine ⟨q, hq, ?_⟩
      rcases hp with rfl | hp
      · exact hr
      · rw [Path.same_iff] at hr ⊢
        rw [← hr, ← Path.same_iff.1 (Path.order_eq_eq_iff.1 hp)]
    · exact ⟨q, mem_insert_of_mem hq, hr⟩

/-- Whether a set lists its paths in order, and none twice. -/
def Sorted (s : PathSet) : Prop := s.Pairwise fun p q => p.order q = .lt

/-- **An insertion keeps a set sorted.** -/
theorem Sorted.insert (h : s.Sorted) (p : Path) : Sorted (insert p s) := by
  induction s with
  | nil => exact List.pairwise_singleton _ p
  | cons q rest ih =>
    obtain ⟨hq, hrest⟩ := List.pairwise_cons.1 h
    unfold PathSet.insert
    split
    · rename_i hlt
      refine List.pairwise_cons.2 ⟨fun r hr => ?_, h⟩
      rcases List.mem_cons.1 hr with rfl | hr
      · exact hlt
      · exact Path.order_lt_trans hlt (hq r hr)
    · exact h
    · rename_i hgt
      refine List.pairwise_cons.2 ⟨fun r hr => ?_, ih hrest⟩
      rcases mem_of_mem_insert hr with rfl | hr
      · exact Path.order_gt_iff.1 hgt
      · exact hq r hr

end PathSet

end SwiftBindings
