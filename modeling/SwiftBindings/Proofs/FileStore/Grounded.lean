import Mathlib.Data.List.Induction
import SwiftBindings.Proofs.FileStore.Destination
import SwiftBindings.Proofs.Path.Join

/-!
# Stores in which everything is in a directory

In a file system whatever is there is in a directory. So a path that never steps up cannot miss a
directory on the way to something that is there; one that does can, as the directory that it leaves
again need not be there.

* `Grounded`: all entries are in directories.
* `Grounded.locate_ne_missing`: **a path without steps up leads to what is there.**
-/

namespace SwiftBindings.FileStore

variable {s : FileStore} {l l' : Location} {p : Path} {ps : List (List Char)}

/-- Whether all that a store holds is in directories. -/
def Grounded (s : FileStore) : Prop :=
  ∀ l name, s.lookup? (l ++ [name]) ≠ none → s.lookup? l = some .directory

/-- What is above an entry of a grounded store is there. -/
theorem Grounded.lookup?_ne_none (h : s.Grounded) (hl : l <+: l') (he : s.lookup? l' ≠ none) :
    s.lookup? l ≠ none := by
  obtain ⟨more, rfl⟩ := hl
  induction more using List.reverseRecOn with
  | nil =>
    rw [List.append_nil] at he
    exact he
  | append_singleton more name ih =>
    rw [← List.append_assoc] at he
    refine ih ?_
    rw [h _ name he]
    simp

/-- Without steps up a walk only goes down. -/
theorem prefix_foldl_follow (hps : ['.', '.'] ∉ ps) : l <+: ps.foldl Location.follow l := by
  induction ps generalizing l with
  | nil => exact List.prefix_rfl
  | cons piece rest ih =>
    obtain ⟨hpiece, hrest⟩ := not_or.1 (mt List.mem_cons.2 hps)
    have hstep : l <+: l.follow piece := by
      unfold Location.follow
      split
      · exact List.prefix_rfl
      rw [if_neg fun h => hpiece h.symm]
      exact List.prefix_append l _
    exact hstep.trans (ih hrest)

/-- A walk without steps up to something that is there does not miss anything on the way. -/
theorem Grounded.walk_ne_missing (hs : s.Grounded) (hps : ['.', '.'] ∉ ps)
    (he : s.lookup? (ps.foldl Location.follow l) ≠ none) : s.walk l ps ≠ .error .missing := by
  induction ps generalizing l with
  | nil => simp [walk]
  | cons piece rest ih =>
    have hthere : s.lookup? l ≠ none := hs.lookup?_ne_none (prefix_foldl_follow hps) he
    obtain ⟨-, hrest⟩ := not_or.1 (mt List.mem_cons.2 hps)
    rw [walk]
    cases hstep : s.step l piece with
    | ok l₁ =>
      obtain ⟨-, -, rfl⟩ := step_eq_ok_iff.1 hstep
      exact ih hrest he
    | error e =>
      intro h
      obtain rfl := Except.error.inj h
      exact step_ne_missing hthere hstep

theorem parent_mem_components (h : ['.', '.'] ∈ Text.pieces '/' p.text.toList) :
    .parent ∈ p.components := by
  obtain ⟨first, rest, hp⟩ := List.exists_cons_of_ne_nil (Text.pieces_ne_nil '/' p.text.toList)
  rw [hp] at h
  rw [Path.components_of_pieces hp]
  rcases List.mem_cons.1 h with hfirst | hrest
  · rw [← hfirst]
    exact List.mem_append_left _ (List.mem_singleton.2 rfl)
  · exact List.mem_append_right _ (List.mem_filterMap.2 ⟨_, hrest, rfl⟩)

/-- **A path without steps up leads to what is there.** -/
theorem Grounded.locate_ne_missing (hs : s.Grounded) (hp : .parent ∉ p.components)
    (hne : p.text ≠ "") (he : s.lookup? (p.destination s.working) ≠ none) : s.locate p ≠ .error .missing := by
  intro hmissing
  exact hs.walk_ne_missing (fun h => hp (parent_mem_components h)) he
    (walk_of_locate_missing hne hmissing)

end SwiftBindings.FileStore
