import Mathlib.Data.List.Basic
import SwiftBindings.Proofs.Path.Join

/-!
# Blocks read back

Texts without empty lines that are put together with blank lines between them, or behind each of
them, are the blocks of what they give. Nothing of a text is taken for the end of a block, and since
a text does not end in a line feed, nothing of the blank line behind it is taken for the text.

* `blocksOf_append`: **one equation at a text in front.**
* `blocks_intercalate`, `blocks_join`: texts are read back.
-/

namespace SwiftBindings.Text

variable {t u b : List Char} {more : List (List Char)}

/-! ## Texts without empty lines -/

theorem ne_nil_of_notMem_pieces (h : [] ∉ pieces '\n' t) : t ≠ [] := by
  rintro rfl
  exact h List.mem_cons_self

/-- A text without empty lines starts with no line feed. -/
theorem head?_ne_of_notMem_pieces (h : [] ∉ pieces '\n' t) : t.head? ≠ some '\n' := by
  cases t with
  | nil => exact absurd rfl (ne_nil_of_notMem_pieces h)
  | cons c rest =>
    rw [List.head?_cons, ne_eq, Option.some.injEq]
    rintro rfl
    exact h List.mem_cons_self

/-- A text without empty lines ends in no line feed. -/
theorem getLast?_ne_of_notMem_pieces (h : [] ∉ pieces '\n' t) : t.getLast? ≠ some '\n' := by
  intro hlast
  obtain ⟨front, rfl⟩ := List.getLast?_eq_some_iff.1 hlast
  rw [pieces_append_cons] at h
  exact h (List.mem_append_right _ List.mem_cons_self)

/-! ## Blocks -/

/-- A character belongs to the block behind it, unless it starts a blank line. -/
theorem blocksOf_cons {c : Char} (hc : c = '\n' → u.head? ≠ some '\n')
    (hu : blocksOf u = b :: more) : blocksOf (c :: u) = (c :: b) :: more := by
  cases u with
  | nil =>
    obtain ⟨rfl, rfl⟩ := List.cons.inj hu
    rfl
  | cons d rest =>
    have hblank : ¬ (c = '\n' ∧ d = '\n') := fun ⟨hc', hd⟩ => hc hc' (congrArg some hd)
    rw [blocksOf, if_neg hblank, hu]

/-- **A text without empty lines,** but perhaps for its first, belongs to the block behind it. -/
theorem blocksOf_append (h : [] ∉ (pieces '\n' t).tail) (hu : blocksOf u = b :: more) :
    blocksOf (t ++ u) = (t ++ b) :: more := by
  induction t with
  | nil => exact hu
  | cons c rest ih =>
    obtain ⟨first, others, hp⟩ := List.exists_cons_of_ne_nil (pieces_ne_nil '\n' rest)
    rw [List.cons_append]
    by_cases hc : c = '\n'
    · -- the rest has no empty line at all, so it is there and starts with no line feed
      rw [pieces, if_pos hc, List.tail_cons] at h
      refine blocksOf_cons (fun _ => ?_) (ih fun hm => h (List.mem_of_mem_tail hm))
      rw [List.head?_append_of_ne_nil _ (ne_nil_of_notMem_pieces h)]
      exact head?_ne_of_notMem_pieces h
    · rw [pieces, if_neg hc, hp] at h
      rw [hp] at ih
      exact blocksOf_cons (fun he => absurd he hc) (ih h)

theorem blocksOf_append_of_notMem (h : [] ∉ pieces '\n' t) (hu : blocksOf u = b :: more) :
    blocksOf (t ++ u) = (t ++ b) :: more :=
  blocksOf_append (fun hm => h (List.mem_of_mem_tail hm)) hu

variable {ts : List String}

/-- **Texts with blank lines between them** are read back. -/
theorem blocks_intercalate (hne : ts ≠ []) (h : ∀ t ∈ ts, [] ∉ pieces '\n' t.toList) :
    blocks ("\n\n".intercalate ts) = ts := by
  induction ts with
  | nil => exact absurd rfl hne
  | cons t rest ih =>
    have ht : [] ∉ pieces '\n' t.toList := h t List.mem_cons_self
    unfold blocks at ih ⊢
    cases rest with
    | nil =>
      have hone := blocksOf_append_of_notMem (u := []) ht rfl
      rw [List.append_nil] at hone
      rw [String.intercalate_singleton, hone]
      simp
    | cons next others =>
      have ih := ih (List.cons_ne_nil _ _) fun t' ht' => h t' (List.mem_cons_of_mem _ ht')
      have hrest : blocksOf ("\n\n".toList ++ ("\n\n".intercalate (next :: others)).toList) =
          [] :: blocksOf ("\n\n".intercalate (next :: others)).toList := rfl
      rw [String.intercalate_cons_cons, String.toList_append, String.toList_append,
        List.append_assoc, blocksOf_append_of_notMem ht hrest, List.map_cons, ih]
      simp

/-- **Texts with blank lines behind them** are read back, and nothing stands behind the last. -/
theorem blocks_join (h : ∀ t ∈ ts, [] ∉ pieces '\n' t.toList) :
    blocks (String.join (ts.map (· ++ "\n\n"))) = ts ++ [""] := by
  induction ts with
  | nil => rfl
  | cons t rest ih =>
    have ih := ih fun t' ht' => h t' (List.mem_cons_of_mem _ ht')
    unfold blocks at ih ⊢
    have hrest : blocksOf ("\n\n".toList ++ (String.join (rest.map (· ++ "\n\n"))).toList) =
        [] :: blocksOf (String.join (rest.map (· ++ "\n\n"))).toList := rfl
    rw [List.map_cons, String.join_cons, String.toList_append, String.toList_append,
      List.append_assoc, blocksOf_append_of_notMem (h t List.mem_cons_self) hrest, List.map_cons,
      ih]
    simp

end SwiftBindings.Text
