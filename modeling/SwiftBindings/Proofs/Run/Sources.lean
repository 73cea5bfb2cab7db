import SwiftBindings.Proofs.Layout.FileNames
import SwiftBindings.Proofs.Run.Contribution
import SwiftBindings.Run.Basic

/-!
# Sources of the chunks of a plan

A chunk is made from what opens the module or from a group of a category's snippets. A source keeps
the snippets that a chunk has lost, so that it can be said which texts a file is to hold.

* `Plan.layout?_make`, `Plan.chunks_make`: the layout of a plan and what it has of a category.
* `Source.file_inj`: parts without a slash tell files apart.
* `Plan.chunks_eq_map`: without buckets, **the chunks of a plan are those of its sources**
  (`Plan.FromSources`), and each has a file of its own.
* `Source.texts_infix`: a chunk holds the texts of its source.
-/

namespace SwiftBindings

open Synthesizer

/-- What a chunk is made from: what opens the module, or a group of a category's snippets. -/
inductive Source where
  | opening
  | group (c : Category) (g : List Snippet)
  deriving DecidableEq

namespace Source

/-- The part of the module that a group's file is named after: its category's, or its first
member. -/
def part? : Source → Option String
  | .opening => none
  | .group c g => some (c.fileSuffix?.getD (g.headD default).displayName)

/-- The file of a source. -/
def file (n : FileNames) (x : Source) : Path :=
  match x.part? with
  | none => n.moduleFile
  | some part => n.partFile part

/-- The code of a source, `opening` being what opens the module. -/
def content (opening : String) : Source → String
  | .opening => opening
  | .group c g => groupText c g

/-- The texts that are put together to the code of a source. -/
def texts (opening : String) : Source → List String
  | .opening => [opening]
  | .group _ g => (g.map (·.text)).filter (· ≠ "")

/-- The chunk of a source. -/
def chunk (n : FileNames) (opening : String) (x : Source) : Chunk :=
  ⟨.file (x.file n), x.content opening⟩

theorem infix_join {l : List String} {t : String} (h : t ∈ l) :
    t.toList <:+: (String.join l).toList := by
  obtain ⟨before, after, rfl⟩ := List.append_of_mem h
  rw [String.join_append, String.join_cons, String.toList_append, String.toList_append]
  exact ⟨_, _, List.append_assoc ..⟩

theorem infix_intercalate {l : List String} {t : String} (h : t ∈ l) (sep : String) :
    t.toList <:+: (sep.intercalate l).toList := by
  induction l with
  | nil => simp at h
  | cons a rest ih =>
    cases rest with
    | nil =>
      simp [List.mem_singleton.1 h]
    | cons b more =>
      rw [String.intercalate_cons_cons]
      rcases List.mem_cons.1 h with rfl | h
      · simp only [String.toList_append, List.append_assoc]
        exact (List.prefix_append _ _).isInfix
      · simp only [String.toList_append]
        exact (ih h).trans (List.suffix_append _ _).isInfix

/-- **A chunk holds the texts of its source.** -/
theorem texts_infix {opening t : String} {x : Source} (h : t ∈ x.texts opening) :
    t.toList <:+: (x.content opening).toList := by
  cases x with
  | opening =>
    rw [List.mem_singleton.1 h]
    exact List.infix_rfl
  | group c g =>
    show t.toList <:+: (groupText c g).toList
    unfold groupText
    split
    · obtain ⟨hm, hne⟩ := List.mem_filter.1 h
      obtain ⟨s, hs, rfl⟩ := List.mem_map.1 hm
      have hblock : s.text ++ "\n\n" ∈ (g.filter (·.text ≠ "")).map fun s => s.text ++ "\n\n" :=
        List.mem_map.2 ⟨s, List.mem_filter.2 ⟨hs, hne⟩, rfl⟩
      rw [blockText_eq]
      refine List.IsInfix.trans ?_ (infix_join hblock)
      rw [String.toList_append]
      exact (List.prefix_append _ _).isInfix
    · exact infix_intercalate h _

/-- The paths of sources are all absolute or all relative. -/
theorem isAbsolute_file (n : FileNames) (x : Source) :
    (x.file n).isAbsolute = Path.isAbsolute ⟨n.stem⟩ := by
  unfold file
  cases x.part? with
  | none => exact n.isAbsolute_moduleFile
  | some part => exact n.isAbsolute_partFile part

/-- Sources whose parts hold no slash are in the same file only if their paths are the same. -/
theorem file_inj {n : FileNames} {w : Location} {x y : Source}
    (hx : ∀ part ∈ x.part?, '/' ∉ part.toList) (hy : ∀ part ∈ y.part?, '/' ∉ part.toList)
    (h : (x.file n).destination w = (y.file n).destination w) : x.file n = y.file n := by
  unfold file at h ⊢
  cases hp : x.part? with
  | none =>
    cases hq : y.part? with
    | none => rfl
    | some b =>
      rw [hp, hq] at h
      exact absurd h.symm (FileNames.destination_partFile_ne_moduleFile (hy b hq))
  | some a =>
    cases hq : y.part? with
    | none =>
      rw [hp, hq] at h
      exact absurd h (FileNames.destination_partFile_ne_moduleFile (hx a hp))
    | some b =>
      rw [hp, hq] at h
      rw [FileNames.destination_partFile_inj (hx a hp) (hy b hq) h]

end Source

/-- The snippets of a category's selected declarations. -/
def Synthesizer.snippets (synthesize : Synthesizer) (ctx : Context) (m : Module) (all : Bool)
    (c : Category) : List Snippet :=
  (ctx.selected m all c).map (snippet synthesize ctx)

/-- The sources of a run's chunks: the module, then the groups of the categories that do not fail. -/
def Synthesizer.sources (synthesize : Synthesizer) (ctx : Context) (m : Module) (all : Bool)
    (split : TypeSplit) : List Source :=
  .opening :: Category.all.flatMap fun c =>
    if Fails synthesize ctx m all c then []
    else (groups c (snippets synthesize ctx m all c) split).map (Source.group c)

theorem Synthesizer.group_mem_sources {synthesize : Synthesizer} {ctx : Context} {m : Module}
    {all : Bool} {split : TypeSplit} {c : Category} {g : List Snippet} :
    .group c g ∈ sources synthesize ctx m all split ↔
      ¬ Fails synthesize ctx m all c ∧ g ∈ groups c (snippets synthesize ctx m all c) split := by
  unfold sources
  simp only [List.mem_cons, reduceCtorEq, false_or, List.mem_flatMap]
  constructor
  · rintro ⟨c', -, h⟩
    split at h
    · simp at h
    · rename_i hf
      obtain ⟨g', hg, he⟩ := List.mem_map.1 h
      obtain ⟨rfl, rfl⟩ := Source.group.inj he
      exact ⟨hf, hg⟩
  · rintro ⟨hf, hg⟩
    exact ⟨c, Category.mem_all c, by rw [if_neg hf]; exact List.mem_map_of_mem hg⟩

/-- If no name holds a slash, neither does that of the first member of a group. -/
theorem Synthesizer.slash_notMem_headD {synthesize : Synthesizer} {ctx : Context} {m : Module}
    {all : Bool} {c : Category} {split : TypeSplit} {g : List Snippet}
    (hm : ∀ d ∈ m.declarations, '/' ∉ d.displayName.toList)
    (hg : g ∈ groups c (snippets synthesize ctx m all c) split) :
    '/' ∉ (g.headD default).displayName.toList := by
  cases g with
  | nil => decide
  | cons s rest =>
    -- the first member is the snippet of a declaration
    obtain ⟨d, hd, rfl⟩ := List.mem_map.1 (mem_of_mem_groups hg List.mem_cons_self)
    exact hm d (Context.mem_of_mem_selected hd)

/-- If no name holds a slash, no part of a module's file names does. -/
theorem Synthesizer.slash_notMem_part {synthesize : Synthesizer} {ctx : Context} {m : Module}
    {all : Bool} {split : TypeSplit} (hm : ∀ d ∈ m.declarations, '/' ∉ d.displayName.toList)
    {x : Source} (hx : x ∈ sources synthesize ctx m all split) :
    ∀ part ∈ x.part?, '/' ∉ part.toList := by
  rintro part hpart
  cases x with
  | opening => simp [Source.part?] at hpart
  | group c g =>
    obtain ⟨-, hg⟩ := group_mem_sources.1 hx
    obtain rfl : c.fileSuffix?.getD (g.headD default).displayName = part := by
      simpa [Source.part?] using hpart
    cases hs : c.fileSuffix? with
    | some suffix => exact FileNames.slash_notMem_suffix hs
    | none => exact slash_notMem_headD hm hg

namespace Plan

variable {synthesize : Synthesizer} {store : FileStore} {known : Registry} {m : Module}
  {o : RunOptions} {dir : Path} {split : TypeSplit}

theorem layout?_make (ho : o.policy = .files dir split) :
    (make synthesize store known m o).layout? = some (⟨dir, o.moduleName⟩, split) := by
  show layoutOf o.moduleName o.policy = _
  rw [ho]; rfl

/-- What a plan has of a category, from the groups of its snippets. -/
theorem chunks_make (ho : o.policy = .files dir split) (c : Category) :
    ((make synthesize store known m o).contribution c).chunks =
      let ctx := (make synthesize store known m o).context
      if Fails synthesize ctx m o.generateAll c then []
      else (groups c (snippets synthesize ctx m o.generateAll c) split).map
        (Chunk.ofGroup c split ⟨dir, o.moduleName⟩) := by
  show (Contribution.make _ _ _ _ (layoutOf o.moduleName o.policy) c).chunks = _
  rw [ho]
  exact Contribution.make_chunks _ _

/-- Without buckets, every group has a file. -/
theorem ofGroup_eq (hs : split ≠ .alphaBuckets) (c : Category) (n : FileNames) (opening : String)
    (g : List Snippet) : Chunk.ofGroup c split n g = (Source.group c g).chunk n opening := by
  show (⟨groupTarget c split n g, groupText c g⟩ : Chunk) =
    ⟨.file (n.partFile (c.fileSuffix?.getD (g.headD default).displayName)), groupText c g⟩
  unfold groupTarget
  cases c.fileSuffix? with
  | some suffix => rfl
  | none =>
    cases split with
    | groupedRuns => rfl
    | filePerType => rfl
    | alphaBuckets => exact absurd rfl hs

/-- **Without buckets, the chunks of a plan are those of its sources.** -/
theorem chunks_eq_map (ho : o.policy = .files dir split) (hs : split ≠ .alphaBuckets) :
    (make synthesize store known m o).chunks =
      (sources synthesize (make synthesize store known m o).context m o.generateAll split).map
        (Source.chunk ⟨dir, o.moduleName⟩ (o.boilerplate ++ m.boilerplate)) := by
  unfold chunks
  rw [layout?_make ho]
  simp only [sources, List.map_cons, List.map_flatMap]
  congr 1
  refine List.flatMap_congr fun c _ => ?_
  rw [chunks_make ho]
  simp only
  split
  · rfl
  · rw [List.map_map]
    exact List.map_congr_left fun g _ => ofGroup_eq hs c _ _ g

/-- A plan without buckets whose chunks are those of the given sources. -/
structure FromSources (p : Plan) (names : FileNames) (opening : String) (xs : List Source) :
    Prop where
  layout : ∃ split, split ≠ .alphaBuckets ∧ p.layout? = some (names, split)
  chunks : p.chunks = xs.map (Source.chunk names opening)

theorem fromSources_make (ho : o.policy = .files dir split) (hs : split ≠ .alphaBuckets) :
    (make synthesize store known m o).FromSources ⟨dir, o.moduleName⟩
      (o.boilerplate ++ m.boilerplate)
      (sources synthesize (make synthesize store known m o).context m o.generateAll split) :=
  ⟨⟨split, hs, layout?_make ho⟩, chunks_eq_map ho hs⟩

namespace FromSources

variable {p : Plan} {names : FileNames} {opening : String} {xs : List Source}

theorem mem_chunks (h : p.FromSources names opening xs) {chunk : Chunk} :
    chunk ∈ p.chunks ↔ ∃ x ∈ xs, x.chunk names opening = chunk := by
  rw [h.chunks, List.mem_map]

theorem chunk_mem (h : p.FromSources names opening xs) {x : Source} (hx : x ∈ xs) :
    x.chunk names opening ∈ p.chunks := h.mem_chunks.2 ⟨x, hx, rfl⟩

end FromSources

end Plan

end SwiftBindings
