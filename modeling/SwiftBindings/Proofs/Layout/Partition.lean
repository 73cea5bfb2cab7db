import Mathlib.Data.List.SplitBy
import SwiftBindings.Proofs.Layout.Groups

/-!
# What a partition keeps

However a type's snippets are spread over files, the chunks put together are the blocks of the
snippets put together: nothing is lost, doubled or moved. Where a list is cut is settled by the keys
alone, so the runs of a key can be told from all other ways to cut the list.

* `MaximalRuns`: the ways to cut a list where the key changes, and nowhere else.
* `maximalRuns_iff`: **there is one such way,** and it is the one that `runs` takes.
* `blockText_flatten`: blocks may be put together run by run.
* `partition_keeps_blocks`: **what the chunks of a type hold and where they go,** for each of the
  three splits.
-/

namespace SwiftBindings

/-! ## Where a list is cut -/

section Runs

variable {α β : Type} {key : α → β} {l : List α} {rs : List (List α)}

/-- Whether a list is cut into runs of one key that cannot be made longer: neighbours differ. -/
structure MaximalRuns (key : α → β) (l : List α) (rs : List (List α)) : Prop where
  flatten : rs.flatten = l
  ne_nil : ∀ r ∈ rs, r ≠ []
  one_key : ∀ r ∈ rs, ∀ a ∈ r, ∀ b ∈ r, key a = key b
  differ : rs.IsChain fun r r' => ∀ a ∈ r, ∀ b ∈ r', key a ≠ key b

/-- Neighbouring runs have different keys. -/
theorem isChain_runs [DecidableEq β] (key : α → β) (l : List α) :
    (runs key l).IsChain fun r r' => ∀ a ∈ r, ∀ b ∈ r', key a ≠ key b := by
  induction l with
  | nil => exact .nil
  | cons a rest ih =>
    cases hr : runs key rest with
    | nil =>
      rw [runs, hr]
      exact .singleton _
    | cons r more =>
      -- the first run of the rest takes in the new element, or comes after it
      have hmem : r ∈ runs key rest := by rw [hr]; exact List.mem_cons_self
      obtain ⟨b, run, rfl⟩ := List.exists_cons_of_ne_nil (runs_ne_nil key rest r hmem)
      have hkey : ∀ x ∈ b :: run, key x = key b := by
        intro x hx
        exact key_eq_of_mem_runs hmem hx List.mem_cons_self
      rw [hr] at ih
      rw [runs, hr]
      simp only
      split
      · rename_i hab
        obtain ⟨hnext, hmore⟩ := List.isChain_cons.1 ih
        refine List.isChain_cons.2 ⟨?_, hmore⟩
        intro r' hr' x hx y hy
        have hb := hnext r' hr' b List.mem_cons_self y hy
        rcases List.mem_cons.1 hx with rfl | hx
        · rw [hab]; exact hb
        · rw [hkey x hx]; exact hb
      · rename_i hab
        refine List.isChain_cons_cons.2 ⟨?_, ih⟩
        intro x hx y hy
        rw [List.mem_singleton.1 hx, hkey y hy]
        exact hab

theorem maximalRuns_runs [DecidableEq β] (key : α → β) (l : List α) :
    MaximalRuns key l (runs key l) := by
  refine ⟨flatten_runs key l, runs_ne_nil key l, ?_, isChain_runs key l⟩
  intro r hr a ha b hb
  exact key_eq_of_mem_runs hr ha hb

/-- A way to cut a list at its changes of key is the way to split it by equal keys. -/
theorem MaximalRuns.eq_splitBy [DecidableEq β] (h : MaximalRuns key l rs) :
    rs = l.splitBy fun a b => key a = key b := by
  symm
  rw [List.splitBy_eq_iff]
  refine ⟨h.flatten.symm, fun hnil => h.ne_nil [] hnil rfl, ?_, ?_⟩
  · intro r hr
    refine List.Pairwise.isChain (List.pairwise_of_forall_mem_list ?_)
    intro a ha b hb
    exact decide_eq_true (h.one_key r hr a ha b hb)
  · refine h.differ.imp_of_mem_imp ?_
    intro r r' hr hr' hne
    refine ⟨h.ne_nil r hr, h.ne_nil r' hr', ?_⟩
    exact decide_eq_false (hne _ (List.getLast_mem _) _ (List.head_mem _))

/-- **A list is cut at its changes of key in one way.** -/
theorem maximalRuns_iff [DecidableEq β] : MaximalRuns key l rs ↔ rs = runs key l := by
  constructor
  · intro h
    rw [h.eq_splitBy, (maximalRuns_runs key l).eq_splitBy]
  · rintro rfl
    exact maximalRuns_runs key l

end Runs

/-! ## What chunks hold -/

/-- Blocks may be put together run by run. -/
theorem blockText_flatten (gs : List (List Snippet)) :
    blockText gs.flatten = String.join (gs.map blockText) := by
  induction gs with
  | nil => rfl
  | cons g rest ih =>
    have happend : blockText (g ++ rest.flatten) = blockText g ++ blockText rest.flatten := by
      unfold blockText
      rw [List.map_append, String.join_append]
    rw [List.flatten_cons, happend, ih, List.map_cons, String.join_cons]

/-- Chunks without code may be left out. -/
theorem join_contents_filter (chunks : List Chunk) :
    String.join ((chunks.filter (·.content ≠ "")).map (·.content)) =
      String.join (chunks.map (·.content)) := by
  induction chunks with
  | nil => rfl
  | cons chunk rest ih =>
    rw [List.filter_cons, List.map_cons, String.join_cons, ← ih]
    by_cases h : chunk.content = ""
    · simp [h]
    · simp [h, String.join_cons]

section Chunks

variable {c : Category} (hc : c.isType = true) (items : List Snippet) (names : FileNames)
include hc

theorem partition_groupedRuns :
    partition c items .groupedRuns names = (runs Snippet.initial? items).map fun r =>
      ⟨.file (names.partFile (r.headD default).displayName), blockText r⟩ := by
  unfold partition
  rw [Category.fileSuffix?_eq_none_iff.2 hc]
  exact filterMap_ofRun (runs_ne_nil _ _)

theorem partition_filePerType :
    partition c items .filePerType names = items.map fun s =>
      ⟨.file (names.partFile s.displayName), s.block⟩ := by
  unfold partition
  rw [Category.fileSuffix?_eq_none_iff.2 hc]

theorem partition_alphaBuckets :
    partition c items .alphaBuckets names = ((runs Snippet.bucket items).map fun r =>
      (⟨.bucket (r.headD default).bucket, blockText r⟩ : Chunk)).filter (·.content ≠ "") := by
  unfold partition
  rw [Category.fileSuffix?_eq_none_iff.2 hc]
  exact congrArg _ (filterMap_ofRun (runs_ne_nil _ _))

/-- **The chunks of a type put together** are the blocks of its snippets put together. -/
theorem join_contents_partition (split : TypeSplit) :
    String.join ((partition c items split names).map (·.content)) = blockText items := by
  have hruns : ∀ {β : Type} [DecidableEq β] (key : Snippet → β),
      String.join ((runs key items).map blockText) = blockText items := by
    intro β _ key
    rw [← blockText_flatten, flatten_runs]
  cases split with
  | groupedRuns =>
    rw [partition_groupedRuns hc, List.map_map]
    exact hruns Snippet.initial?
  | filePerType =>
    rw [partition_filePerType hc, List.map_map]
    rfl
  | alphaBuckets =>
    rw [partition_alphaBuckets hc, join_contents_filter, List.map_map]
    exact hruns Snippet.bucket

/-- **What goes to a bucket** put together are the blocks of the snippets that belong there. -/
theorem join_contents_bucket (b : Bucket) :
    String.join (((partition c items .alphaBuckets names).filter (·.target = .bucket b)).map
      (·.content)) = blockText (items.filter (·.bucket = b)) := by
  -- a run goes where its first member belongs
  have hhead : (runs Snippet.bucket items).filter
        (fun r => Target.bucket (r.headD default).bucket = .bucket b) =
      (runs Snippet.bucket items).filter fun r => r.head?.map Snippet.bucket = some b := by
    refine List.filter_congr fun r hr => ?_
    obtain ⟨s, rest, rfl⟩ := List.exists_cons_of_ne_nil (runs_ne_nil _ _ r hr)
    simp
  have hchunks : String.join (((partition c items .alphaBuckets names).filter
        (·.target = .bucket b)).map (·.content)) =
      String.join (((runs Snippet.bucket items).filter
        fun r => Target.bucket (r.headD default).bucket = .bucket b).map blockText) := by
    rw [partition_alphaBuckets hc, List.filter_comm, join_contents_filter, List.filter_map,
      List.map_map]
    rfl
  rw [hchunks, hhead, ← blockText_flatten, flatten_filter_runs]

/-- A chunk for a bucket has code, that of a run of snippets which all belong there. -/
theorem mem_partition_alphaBuckets {chunk : Chunk}
    (h : chunk ∈ partition c items .alphaBuckets names) :
    chunk.content ≠ "" ∧ ∃ r ∈ runs Snippet.bucket items, ∃ b,
      chunk = ⟨.bucket b, blockText r⟩ ∧ ∀ s ∈ r, s.bucket = b := by
  rw [partition_alphaBuckets hc] at h
  obtain ⟨h, hne⟩ := List.mem_filter.1 h
  obtain ⟨r, hr, rfl⟩ := List.mem_map.1 h
  refine ⟨of_decide_eq_true hne, r, hr, (r.headD default).bucket, rfl, ?_⟩
  intro s hs
  obtain ⟨first, rest, rfl⟩ := List.exists_cons_of_ne_nil (runs_ne_nil _ _ r hr)
  exact key_eq_of_mem_runs hr hs List.mem_cons_self

end Chunks

/-- **A partition loses, doubles and moves nothing.** Put together, the chunks of a type are, for
each split, the texts of its snippets that are not empty, in order and with a blank line behind
each. Grouped by initials, there is one chunk for each run of equal initials, in the file of its
first member, and the runs are those of the only way to cut the snippets between different initials
and nowhere else. With one file per type there is one chunk for each snippet. With buckets, every
chunk has code and holds members of its bucket alone, a run of equal buckets, and those for one
bucket, put together, are the blocks of exactly the snippets that belong there, in order. -/
theorem partition_keeps_blocks {c : Category} (hc : c.isType = true) (items : List Snippet)
    (names : FileNames) :
    (∀ split, String.join ((partition c items split names).map (·.content)) =
      String.join ((items.filter (·.text ≠ "")).map fun s => s.text ++ "\n\n")) ∧
    (∃ rs, MaximalRuns Snippet.initial? items rs ∧
      (∀ rs', MaximalRuns Snippet.initial? items rs' → rs' = rs) ∧
      partition c items .groupedRuns names = rs.map fun r =>
        ⟨.file (names.partFile (r.headD default).displayName), blockText r⟩) ∧
    partition c items .filePerType names = (items.map fun s =>
      ⟨.file (names.partFile s.displayName), s.block⟩) ∧
    (∃ rs, MaximalRuns Snippet.bucket items rs ∧
      ∀ chunk ∈ partition c items .alphaBuckets names, chunk.content ≠ "" ∧
        ∃ r ∈ rs, ∃ b, chunk = ⟨.bucket b, blockText r⟩ ∧
          ∀ s ∈ r, Bucket.ofName s.displayName = b) ∧
    ∀ b, String.join (((partition c items .alphaBuckets names).filter
        (·.target = .bucket b)).map (·.content)) =
      blockText (items.filter fun s => Bucket.ofName s.displayName = b) := by
  refine ⟨?_, ?_, partition_filePerType hc items names, ?_, join_contents_bucket hc items names⟩
  · intro split
    rw [join_contents_partition hc, blockText_eq]
  · refine ⟨runs Snippet.initial? items, maximalRuns_runs _ _, ?_,
      partition_groupedRuns hc items names⟩
    intro rs' hrs'
    exact maximalRuns_iff.1 hrs'
  · refine ⟨runs Snippet.bucket items, maximalRuns_runs _ _, ?_⟩
    intro chunk hchunk
    exact mem_partition_alphaBuckets hc items names hchunk

/-- Snippets of which one has no code, one no name and one no name of a letter. -/
def fruits : List Snippet :=
  [⟨"Apple", "apple"⟩, ⟨"Ant", ""⟩, ⟨"äpfel", "äpfel"⟩, ⟨"", "seed"⟩, ⟨"avocado", "avocado"⟩]

/-- The three splits of the snippets of a type hold the same; the bucket of the letter gets two
chunks. -/
theorem partition_keeps_blocks_fruits :
    Category.record.isType = true ∧
      (∀ split, String.join ((partition .record fruits split ⟨⟨"o"⟩, "T"⟩).map (·.content)) =
        "apple\n\näpfel\n\nseed\n\navocado\n\n") ∧
      String.join (((partition .record fruits .alphaBuckets ⟨⟨"o"⟩, "T"⟩).filter
        (·.target = .bucket (Bucket.ofName "A"))).map (·.content)) = "apple\n\navocado\n\n" := by
  have hc : Category.record.isType = true := rfl
  obtain ⟨hall, -, -, -, hbucket⟩ := partition_keeps_blocks hc fruits ⟨⟨"o"⟩, "T"⟩
  refine ⟨hc, ?_, ?_⟩
  · intro split
    rw [hall split]
    decide +kernel
  · rw [hbucket]
    decide +kernel

end SwiftBindings
