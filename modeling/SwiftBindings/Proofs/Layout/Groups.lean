import Mathlib.Tactic.Common
import SwiftBindings.Layout.Chunk

/-!
# What chunks are made of

A category's snippets are cut into groups, and every group gives one chunk. `groups` says how they
are cut and `Chunk.ofGroup` what becomes of a group, so that a statement about the snippets in a
file can be made beside the one about the file's text.

* `partition_eq_map`: the chunks of a category are those of its groups.
* `key_eq_of_mem_runs`, `flatten_filter_runs`: a run has one key, and the runs of a key hold exactly
  the elements with it, in order.
* `runs_map`: a list is cut where what it is made of is.
* `flatten_filter_groups_bucket`: the groups of a bucket hold what the bucket is to hold.
-/

namespace SwiftBindings

/-! ## Runs -/

section Runs

variable {α β : Type} [DecidableEq β] {key : α → β}

/-- A run has one key. -/
theorem key_eq_of_mem_runs {l run : List α} (h : run ∈ runs key l) {a b : α} (ha : a ∈ run)
    (hb : b ∈ run) : key a = key b := by
  -- every member has the key of the run's head
  suffices hhead : ∀ l : List α, ∀ run ∈ runs key l, ∀ a ∈ run, run.head?.map key = some (key a) by
    have h₁ := hhead l run h a ha
    have h₂ := hhead l run h b hb
    exact Option.some.inj (h₁.symm.trans h₂)
  intro l
  induction l with
  | nil => simp [runs]
  | cons x rest ih =>
    unfold runs
    split
    · rename_i y run more hr
      rw [hr] at ih
      split
      · rename_i hxy
        intro r hr' a ha
        rcases List.mem_cons.1 hr' with rfl | hr'
        · rcases List.mem_cons.1 ha with rfl | ha
          · rfl
          · have := ih _ (by simp) a ha
            simpa [hxy] using this
        · exact ih r (by simp [hr']) a ha
      · intro r hr' a ha
        rcases List.mem_cons.1 hr' with rfl | hr'
        · simp only [List.mem_singleton] at ha
          subst ha; rfl
        · exact ih r hr' a ha
    · intro r hr' a ha
      simp only [List.mem_singleton] at hr'
      subst hr'
      simp only [List.mem_singleton] at ha
      subst ha; rfl

/-- **The runs of a key** hold exactly the elements with it, in order. -/
theorem flatten_filter_runs (l : List α) (k : β) :
    ((runs key l).filter fun run => run.head?.map key = some k).flatten =
      l.filter (key · = k) := by
  conv_rhs => rw [← flatten_runs key l, List.filter_flatten]
  -- what is filtered out of a run is all of it or nothing
  have hrun : ∀ run ∈ runs key l, run.filter (key · = k) =
      if run.head?.map key = some k then run else [] := by
    intro run hr
    obtain ⟨a, rest, rfl⟩ := List.exists_cons_of_ne_nil (runs_ne_nil key l run hr)
    have hk : ∀ b ∈ a :: rest, key b = key a := fun b hb =>
      key_eq_of_mem_runs hr hb List.mem_cons_self
    simp only [List.head?_cons, Option.map_some, Option.some.injEq]
    split
    · rename_i h
      exact List.filter_eq_self.2 fun b hb => by simp [hk b hb, h]
    · rename_i h
      exact List.filter_eq_nil_iff.2 fun b hb => by simp [hk b hb, h]
  rw [List.map_congr_left hrun]
  generalize runs key l = rs
  induction rs with
  | nil => rfl
  | cons run more ih =>
    rw [List.filter_cons, List.map_cons, List.flatten_cons]
    split
    · rename_i h
      rw [if_pos (by simpa using h), List.flatten_cons, ih]
    · rename_i h
      rw [if_neg (by simpa using h), List.nil_append, ih]

/-- A list is cut where what it is made of is. -/
theorem runs_map {γ : Type} (f : γ → α) (key : α → β) (l : List γ) :
    runs key (l.map f) = (runs (fun a => key (f a)) l).map (List.map f) := by
  induction l with
  | nil => rfl
  | cons a rest ih =>
    rw [List.map_cons, runs, ih, runs]
    cases hr : runs (fun a => key (f a)) rest with
    | nil => rfl
    | cons run more =>
      cases run with
      | nil => rfl
      | cons b run =>
        simp only [List.map_cons]
        split <;> rfl

end Runs

/-! ## Groups -/

/-- The groups that the snippets of a category are cut into. -/
def groups (c : Category) (items : List Snippet) (split : TypeSplit) : List (List Snippet) :=
  if c.isType then
    match split with
    | .filePerType => items.map fun s => [s]
    | .groupedRuns => runs Snippet.initial? items
    | .alphaBuckets => (runs Snippet.bucket items).filter fun g => blockText g ≠ ""
  else [items]

/-- Where the chunk of a group goes. -/
def groupTarget (c : Category) (split : TypeSplit) (names : FileNames) (g : List Snippet) :
    Target :=
  match c.fileSuffix? with
  | some suffix => .file (names.partFile suffix)
  | none =>
    match split with
    | .alphaBuckets => .bucket (g.headD default).bucket
    | _ => .file (names.partFile (g.headD default).displayName)

/-- The code of a group. -/
def groupText (c : Category) (g : List Snippet) : String :=
  if c.isType then blockText g else joinSimple g

/-- The chunk of a group. -/
def Chunk.ofGroup (c : Category) (split : TypeSplit) (names : FileNames) (g : List Snippet) :
    Chunk :=
  ⟨groupTarget c split names g, groupText c g⟩

theorem filterMap_ofRun {target : Snippet → Target} {gs : List (List Snippet)}
    (h : ∀ g ∈ gs, g ≠ []) :
    gs.filterMap (Chunk.ofRun target) = gs.map fun g => ⟨target (g.headD default), blockText g⟩ := by
  induction gs with
  | nil => rfl
  | cons g rest ih =>
    obtain ⟨s, more, rfl⟩ := List.exists_cons_of_ne_nil (h g List.mem_cons_self)
    have hs : Chunk.ofRun target (s :: more) = some ⟨target s, blockText (s :: more)⟩ := rfl
    rw [List.filterMap_cons_some hs, List.map_cons,
      ih fun g' hg' => h g' (List.mem_cons_of_mem _ hg')]
    rfl

/-- **The chunks of a category are those of its groups.** -/
theorem partition_eq_map (c : Category) (items : List Snippet) (split : TypeSplit)
    (names : FileNames) :
    partition c items split names = (groups c items split).map (Chunk.ofGroup c split names) := by
  unfold partition groups Chunk.ofGroup groupTarget groupText
  cases hs : c.fileSuffix? with
  | some suffix =>
    have ht : c.isType = false := by cases c <;> simp_all [Category.fileSuffix?, Category.isType]
    simp [ht]
  | none =>
    have ht : c.isType = true := Category.fileSuffix?_eq_none_iff.1 hs
    simp only [ht, if_true]
    cases split with
    | filePerType => simp [blockText, String.join_cons]
    | groupedRuns => exact filterMap_ofRun (runs_ne_nil _ _)
    | alphaBuckets =>
      simp only
      rw [filterMap_ofRun (runs_ne_nil _ _), List.filter_map]
      rfl

/-- The groups of a category hold its snippets in order, apart from those without code. -/
theorem mem_of_mem_groups {c : Category} {items g : List Snippet} {split : TypeSplit}
    (h : g ∈ groups c items split) {s : Snippet} (hs : s ∈ g) : s ∈ items := by
  have hruns : ∀ {β : Type} [DecidableEq β] (key : Snippet → β), g ∈ runs key items → s ∈ items := by
    intro β _ key hg
    rw [← flatten_runs key items]
    exact List.mem_flatten.2 ⟨g, hg, hs⟩
  unfold groups at h
  split at h
  · split at h
    · obtain ⟨s', hs', rfl⟩ := List.mem_map.1 h
      rw [List.mem_singleton.1 hs]; exact hs'
    · exact hruns _ h
    · exact hruns _ (List.mem_filter.1 h).1
  · rw [← List.mem_singleton.1 h]; exact hs

/-! ## Blocks -/

/-- The code of a group of a type is made of the blocks of its snippets with code. -/
theorem blockText_eq (g : List Snippet) :
    blockText g = String.join ((g.filter (·.text ≠ "")).map fun s => s.text ++ "\n\n") := by
  unfold blockText
  induction g with
  | nil => rfl
  | cons s rest ih =>
    rw [List.map_cons, String.join_cons, ih, List.filter_cons]
    by_cases h : s.text = ""
    · simp [Snippet.block, h]
    · simp [Snippet.block, h, String.join_cons]

theorem blockText_eq_empty_iff {g : List Snippet} :
    blockText g = "" ↔ ∀ s ∈ g, s.text = "" := by
  rw [blockText_eq]
  constructor
  · intro h s hs
    by_contra hne
    have hm : s.text ++ "\n\n" ∈ (g.filter (·.text ≠ "")).map fun s => s.text ++ "\n\n" :=
      List.mem_map.2 ⟨s, List.mem_filter.2 ⟨hs, by simpa using hne⟩, rfl⟩
    have hj := congrArg String.toList h
    rw [String.toList_join] at hj
    have := List.flatMap_eq_nil_iff.1 hj _ hm
    simp at this
  · intro h
    rw [List.filter_eq_nil_iff.2 fun s hs => by simp [h s hs]]
    rfl

theorem flatMap_filter_congr {α β : Type} {P Q : α → Bool} {f : α → List β} {l : List α}
    (h : ∀ a ∈ l, f a ≠ [] → P a = Q a) : (l.filter P).flatMap f = (l.filter Q).flatMap f := by
  induction l with
  | nil => rfl
  | cons a rest ih =>
    have ih := ih fun a' ha' => h a' (List.mem_cons_of_mem _ ha')
    by_cases hf : f a = []
    · simp only [List.filter_cons]
      split <;> split <;> simp [hf, ih]
    · rw [List.filter_cons, List.filter_cons, h a List.mem_cons_self hf]
      split
      · rw [List.flatMap_cons, List.flatMap_cons, ih]
      · exact ih

/-- **The groups of a bucket** hold, with code, exactly the snippets whose names belong there. -/
theorem flatten_filter_groups_bucket {c : Category} (hc : c.isType = true) (items : List Snippet)
    (b : Bucket) :
    (((groups c items .alphaBuckets).filter fun g => (g.headD default).bucket = b).flatten).filter
        (·.text ≠ "") =
      items.filter fun s => s.bucket = b ∧ s.text ≠ "" := by
  have hgroups : groups c items .alphaBuckets =
      (runs Snippet.bucket items).filter fun g => blockText g ≠ "" := by simp [groups, hc]
  have hsplit : items.filter (fun s => s.bucket = b ∧ s.text ≠ "") =
      (items.filter (·.bucket = b)).filter (·.text ≠ "") := by
    rw [List.filter_filter]
    exact List.filter_congr fun s _ => by simp [Bool.and_comm]
  rw [hgroups, hsplit, ← flatten_filter_runs items b, List.filter_flatten, List.filter_flatten,
    ← List.flatMap_def, ← List.flatMap_def, List.filter_filter]
  -- a group without code that is left out holds no snippet with code
  refine flatMap_filter_congr fun g hg hcode => ?_
  obtain ⟨s, more, rfl⟩ := List.exists_cons_of_ne_nil (runs_ne_nil _ _ g hg)
  have ht : blockText (s :: more) ≠ "" := fun h =>
    hcode (List.filter_eq_nil_iff.2 fun s' hs' => by simp [blockText_eq_empty_iff.1 h s' hs'])
  simp [ht]

end SwiftBindings
