import Mathlib.Logic.Function.Basic
import Mathlib.Tactic.Common

/-!
# Interleavings as labelled lists

Several senders put what they send into one list, each keeping its own order. Such an interleaving
is a list in which every element has its sender as a label; the stream of a sender is what the list
has under its label.

* `exists_map_of_stream_eq_map`: an interleaving of lists that are made from others is made from an
  interleaving of those.
* `stream_flatMap`: streams of a list in which every element has been cut up.
-/

namespace SwiftBindings

variable {κ α β : Type} [DecidableEq κ]

/-- What a labelled list has under one label, in order. -/
def stream (k : κ) (l : List (κ × α)) : List α :=
  l.filterMap fun e => if e.1 = k then some e.2 else none

@[simp] theorem stream_nil (k : κ) : stream k ([] : List (κ × α)) = [] := rfl

@[simp] theorem stream_cons (k : κ) (e : κ × α) (l : List (κ × α)) :
    stream k (e :: l) = if e.1 = k then e.2 :: stream k l else stream k l := by
  unfold stream
  by_cases h : e.1 = k <;> simp [h]

theorem stream_append (k : κ) (l m : List (κ × α)) : stream k (l ++ m) = stream k l ++ stream k m :=
  List.filterMap_append

theorem stream_map_eq (k k' : κ) (as : List α) :
    stream k' (as.map fun a => (k, a)) = if k = k' then as else [] := by
  induction as with
  | nil => simp
  | cons a rest ih => rw [List.map_cons, stream_cons, ih]; split <;> rfl

/-- Elements that are cut up stay under their label. -/
theorem stream_flatMap (k : κ) (f : κ → α → List β) (l : List (κ × α)) :
    stream k (l.flatMap fun e => (f e.1 e.2).map fun b => (e.1, b)) =
      (stream k l).flatMap (f k) := by
  induction l with
  | nil => rfl
  | cons e rest ih =>
    rw [List.flatMap_cons, stream_append, ih, stream_map_eq, stream_cons]
    split
    · rename_i h; rw [List.flatMap_cons, h]
    · rfl

/-- **An interleaving of lists that are made from others** is made from an interleaving of those. -/
theorem exists_map_of_stream_eq_map (f : κ → β → α) (l : List (κ × α)) (sources : κ → List β)
    (h : ∀ k, stream k l = (sources k).map (f k)) :
    ∃ r : List (κ × β), l = r.map (fun e => (e.1, f e.1 e.2)) ∧ ∀ k, stream k r = sources k := by
  induction l generalizing sources with
  | nil =>
    refine ⟨[], rfl, fun k => ?_⟩
    have := h k
    rw [stream_nil] at this
    rw [stream_nil, List.map_eq_nil_iff.1 this.symm]
  | cons e rest ih =>
    obtain ⟨k, a⟩ := e
    have hk := h k
    rw [stream_cons, if_pos rfl] at hk
    -- the first element is the head of its own source
    obtain ⟨b, more, hs, hb, hmore⟩ := List.map_eq_cons_iff.1 hk.symm
    obtain ⟨r, hr, hstream⟩ := ih (Function.update sources k more) fun k' => by
      by_cases hkk : k' = k
      · subst hkk
        rw [Function.update_self, hmore]
      · have := h k'
        rw [stream_cons, if_neg fun e => hkk e.symm] at this
        rw [Function.update_of_ne hkk, this]
    refine ⟨(k, b) :: r, by rw [List.map_cons, ← hr, hb], fun k' => ?_⟩
    rw [stream_cons, hstream k']
    by_cases hkk : k' = k
    · subst hkk
      rw [if_pos rfl, Function.update_self, hs]
    · rw [if_neg fun e => hkk e.symm, Function.update_of_ne hkk]

/-- A list without unlabelled elements can be read as one in which all have labels. -/
theorem exists_labels (l : List (Option κ × α)) (h : stream none l = []) :
    ∃ l' : List (κ × α), l = l'.map (fun e => (some e.1, e.2)) ∧
      ∀ k, stream k l' = stream (some k) l := by
  induction l with
  | nil => exact ⟨[], rfl, fun _ => rfl⟩
  | cons e rest ih =>
    obtain ⟨k?, a⟩ := e
    cases k? with
    | none => simp at h
    | some k =>
      obtain ⟨l', hl', hs⟩ := ih (by simpa using h)
      refine ⟨(k, a) :: l', by rw [List.map_cons, ← hl'], fun k' => ?_⟩
      rw [stream_cons, stream_cons, hs k']
      simp

theorem mem_stream {k : κ} {a : α} {l : List (κ × α)} : a ∈ stream k l ↔ (k, a) ∈ l := by
  unfold stream
  rw [List.mem_filterMap]
  constructor
  · rintro ⟨⟨k', a'⟩, hm, h⟩
    by_cases hk : k' = k
    · subst hk
      obtain rfl : a' = a := by simpa using h
      exact hm
    · simp [hk] at h
  · intro hm
    exact ⟨_, hm, by simp⟩

end SwiftBindings
