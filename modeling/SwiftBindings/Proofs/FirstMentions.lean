import Mathlib.Data.List.Induction
import Mathlib.Tactic.Common

/-!
# First mentions

A list may mention a thing more than once, each time under the same key. Its first mentions are the
items whose key no item before them has: every key is left, each once, in the order in which the
keys turn up, and each with the item that had it first.

* `mem_keys_firstMentions`, `nodup_keys_firstMentions`: **every key is left, each once.**
* `firstMentions_append_of_mem`, `firstMentions_append_of_notMem`: what comes last is left if its key
  is new.
* `firstMentions_append`: **of two lists the first goes first,** and the second adds what is new.
* `firstMentions_eq_self_iff`: nothing is left out exactly if no key comes twice.
* `firstMentions_id`: where the items are their own keys, repetitions are erased.
-/

namespace SwiftBindings

theorem mem_keys_filter {α κ : Type} (key : α → κ) (P : κ → Bool) {l : List α} {k : κ} :
    k ∈ (l.filter fun a => P (key a)).map key ↔ k ∈ l.map key ∧ P k = true := by
  have hmap : (l.filter fun a => P (key a)).map key = (l.map key).filter P := List.filter_map.symm
  rw [hmap, List.mem_filter]

/-- The items of a list whose key no item before them has. -/
def firstMentions {α κ : Type} [DecidableEq κ] (key : α → κ) : List α → List α
  | [] => []
  | a :: rest => a :: (firstMentions key rest).filter fun b => key b ≠ key a

variable {α κ : Type} [DecidableEq κ] {key : α → κ}

theorem firstMentions_sublist (l : List α) : (firstMentions key l).Sublist l := by
  induction l with
  | nil => exact List.Sublist.refl []
  | cons a rest ih =>
    rw [firstMentions]
    exact (List.filter_sublist.trans ih).cons_cons a

/-- **Every key is left.** -/
theorem mem_keys_firstMentions {l : List α} {k : κ} :
    k ∈ (firstMentions key l).map key ↔ k ∈ l.map key := by
  induction l with
  | nil => exact Iff.rfl
  | cons a rest ih =>
    have hrest : k ∈ ((firstMentions key rest).filter fun b => key b ≠ key a).map key ↔
        k ∈ (firstMentions key rest).map key ∧ decide (k ≠ key a) = true :=
      mem_keys_filter key fun k => k ≠ key a
    rw [firstMentions, List.map_cons, List.map_cons, List.mem_cons, List.mem_cons, hrest, ih]
    by_cases hk : k = key a <;> simp [hk]

/-- **No key is left twice.** -/
theorem nodup_keys_firstMentions (key : α → κ) (l : List α) :
    ((firstMentions key l).map key).Nodup := by
  induction l with
  | nil => exact List.nodup_nil
  | cons a rest ih =>
    rw [firstMentions, List.map_cons, List.nodup_cons]
    constructor
    · intro ha
      obtain ⟨b, hb, hkey⟩ := List.mem_map.1 ha
      have hne := (List.mem_filter.1 hb).2
      exact of_decide_eq_true hne hkey
    · exact ih.sublist (List.filter_sublist.map key)

/-- The items of a list whose key another list does not have. -/
def newTo (key : α → κ) (l m : List α) : List α := m.filter fun a => key a ∉ l.map key

/-- A new key is there if the other list has it. -/
theorem mem_keys_newTo {l m : List α} {k : κ} (h : k ∉ l.map key) :
    k ∈ (newTo key l m).map key ↔ k ∈ m.map key := by
  have hfilter : k ∈ (newTo key l m).map key ↔ k ∈ m.map key ∧ decide (k ∉ l.map key) = true :=
    mem_keys_filter key fun k => k ∉ l.map key
  rw [hfilter, and_iff_left (decide_eq_true h)]

theorem newTo_append_of_mem {l m : List α} {a : α} (h : key a ∈ l.map key) :
    newTo key l (m ++ [a]) = newTo key l m := by
  unfold newTo
  rw [List.filter_append, List.filter_cons_of_neg (by simpa using h), List.filter_nil,
    List.append_nil]

theorem newTo_append_of_notMem {l m : List α} {a : α} (h : key a ∉ l.map key) :
    newTo key l (m ++ [a]) = newTo key l m ++ [a] := by
  unfold newTo
  rw [List.filter_append, List.filter_cons_of_pos (by simpa using h), List.filter_nil]

/-- What comes last is left if its key is new. -/
theorem firstMentions_append_of_notMem {l : List α} {a : α} (h : key a ∉ l.map key) :
    firstMentions key (l ++ [a]) = firstMentions key l ++ [a] := by
  induction l with
  | nil => rfl
  | cons b rest ih =>
    rw [List.map_cons, List.mem_cons, not_or] at h
    obtain ⟨hb, hrest⟩ := h
    rw [List.cons_append, firstMentions, firstMentions, ih hrest, List.filter_append,
      List.filter_cons_of_pos (by simpa using hb), List.filter_nil, List.cons_append]

/-- What comes last is left out if its key is there. -/
theorem firstMentions_append_of_mem {l : List α} {a : α} (h : key a ∈ l.map key) :
    firstMentions key (l ++ [a]) = firstMentions key l := by
  induction l with
  | nil => exact absurd h List.not_mem_nil
  | cons b rest ih =>
    rw [List.cons_append, firstMentions, firstMentions]
    by_cases hrest : key a ∈ rest.map key
    · rw [ih hrest]
    · -- so it is the first item that has the key
      have hb : key a = key b := (List.mem_cons.1 h).resolve_right hrest
      rw [firstMentions_append_of_notMem hrest, List.filter_append,
        List.filter_cons_of_neg (by simpa using hb), List.filter_nil, List.append_nil]

/-- **Of two lists the first goes first,** and the second adds what is new. -/
theorem firstMentions_append (l m : List α) :
    firstMentions key (l ++ m) = firstMentions key l ++ newTo key l (firstMentions key m) := by
  -- from the end of the second list, since every item is judged by those before it
  induction m using List.reverseRecOn with
  | nil => rw [List.append_nil, firstMentions, newTo, List.filter_nil, List.append_nil]
  | append_singleton m a ih =>
    rw [← List.append_assoc]
    by_cases hm : key a ∈ m.map key
    · have hlm : key a ∈ (l ++ m).map key := by
        rw [List.map_append]
        exact List.mem_append_right _ hm
      rw [firstMentions_append_of_mem hlm, firstMentions_append_of_mem hm, ih]
    rw [firstMentions_append_of_notMem hm]
    by_cases hl : key a ∈ l.map key
    · have hlm : key a ∈ (l ++ m).map key := by
        rw [List.map_append]
        exact List.mem_append_left _ hl
      rw [firstMentions_append_of_mem hlm, newTo_append_of_mem hl, ih]
    · have hlm : key a ∉ (l ++ m).map key := by
        rw [List.map_append, List.mem_append, not_or]
        exact ⟨hl, hm⟩
      rw [firstMentions_append_of_notMem hlm, newTo_append_of_notMem hl, ih, List.append_assoc]

/-- **Nothing is left out exactly if no key comes twice.** -/
theorem firstMentions_eq_self_iff {l : List α} :
    firstMentions key l = l ↔ (l.map key).Nodup := by
  constructor
  · intro h
    rw [← h]
    exact nodup_keys_firstMentions key l
  · intro hnodup
    induction l with
    | nil => rfl
    | cons a rest ih =>
      rw [List.map_cons, List.nodup_cons] at hnodup
      obtain ⟨ha, hrest⟩ := hnodup
      rw [firstMentions, ih hrest]
      congr 1
      apply List.filter_eq_self.2
      intro b hb
      apply decide_eq_true
      intro hkey
      exact ha (hkey ▸ List.mem_map_of_mem hb)

/-- To leave out keys before is to leave them out after. -/
theorem firstMentions_filter (key : α → κ) (P : κ → Bool) (l : List α) :
    firstMentions key (l.filter fun a => P (key a)) =
      (firstMentions key l).filter fun a => P (key a) := by
  induction l with
  | nil => rfl
  | cons a rest ih =>
    have hcomm : ((firstMentions key rest).filter fun b => key b ≠ key a).filter
        (fun b => P (key b)) =
        ((firstMentions key rest).filter fun b => P (key b)).filter fun b => key b ≠ key a := by
      rw [List.filter_filter, List.filter_filter]
      exact List.filter_congr fun b _ => Bool.and_comm _ _
    by_cases ha : P (key a) = true
    · rw [List.filter_cons_of_pos (by simpa using ha), firstMentions, ih, firstMentions,
        List.filter_cons_of_pos (by simpa using ha), hcomm]
    · have hgone : ((firstMentions key rest).filter fun b => P (key b)).filter
          (fun b => key b ≠ key a) = (firstMentions key rest).filter fun b => P (key b) := by
        apply List.filter_eq_self.2
        intro b hb
        apply decide_eq_true
        intro hkey
        rw [← hkey] at ha
        exact ha (List.mem_filter.1 hb).2
      rw [List.filter_cons_of_neg (by simpa using ha), ih, firstMentions,
        List.filter_cons_of_neg (by simpa using ha), hcomm, hgone]

/-- **Where the items are their own keys,** first mentions are what is left when repetitions are
erased. -/
theorem firstMentions_id (l : List κ) : firstMentions id l = l.eraseDups := by
  match l with
  | [] => rfl
  | a :: rest =>
    rw [firstMentions, List.eraseDups_cons, ← firstMentions_id (rest.filter fun b => !b == a)]
    have hfilter := firstMentions_filter id (fun b => !b == a) rest
    rw [show (rest.filter fun b => !b == a) = rest.filter fun b => !id b == a from rfl, hfilter]
    congr 1
    exact List.filter_congr fun b _ => by simp [Bool.beq_eq_decide_eq]
termination_by l.length
decreasing_by exact Nat.lt_succ_of_le (List.length_filter_le _ _)

end SwiftBindings
