import SwiftBindings.Path.Basic

/-!
# Sets of paths

Paths are ordered by their components, so that the files of a directory stand before a sibling
whose name continues the directory's: the root, a leading dot, the parent, then names by their
bytes. A set of paths is a list in that order.

* `insert`: adds a path unless an equal one is there, whose spelling then stays.
* `ofList`: the set of a list, in which the last spelling of a path stays.
* `mem_insert_self`: after an insertion some element has the components of the path.
-/

namespace SwiftBindings

/-- The place of a component's kind in the order. -/
def Component.rank : Component → Nat
  | .root => 0
  | .current => 1
  | .parent => 2
  | .name _ => 3

/-- The order of two components; names compare by code point, which is the order of their bytes. -/
def Component.order : Component → Component → Ordering
  | .name a, .name b => compare a b
  | a, b => compare a.rank b.rank

namespace Path

/-- The order of two lists of components, the first difference deciding. -/
def orderComponents : List Component → List Component → Ordering
  | [], [] => .eq
  | [], _ :: _ => .lt
  | _ :: _, [] => .gt
  | a :: as, b :: bs =>
    match a.order b with
    | .eq => orderComponents as bs
    | o => o

/-- The order of two paths. -/
def order (p q : Path) : Ordering := orderComponents p.components q.components

end Path

/-- A set of paths: a list in order, without two equal paths. -/
abbrev PathSet := List Path

namespace PathSet

/-- The set with one more path. -/
def insert (p : Path) : PathSet → PathSet
  | [] => [p]
  | q :: rest =>
    match p.order q with
    | .lt => p :: q :: rest
    | .eq => q :: rest
    | .gt => q :: insert p rest

/-- The set of the paths of a list. Of equal paths the last one's spelling stays. -/
def ofList (paths : List Path) : PathSet := paths.foldr insert []

/-- After an insertion some element ranks equal with the path. -/
theorem mem_insert_self (p : Path) (s : PathSet) :
    ∃ q ∈ insert p s, q = p ∨ p.order q = .eq := by
  induction s with
  | nil => exact ⟨p, by simp [insert], Or.inl rfl⟩
  | cons q rest ih =>
    unfold insert
    split
    · exact ⟨p, by simp, Or.inl rfl⟩
    · rename_i h
      exact ⟨q, by simp, Or.inr h⟩
    · obtain ⟨r, hr, h⟩ := ih
      exact ⟨r, by simp [hr], h⟩

end PathSet

end SwiftBindings
