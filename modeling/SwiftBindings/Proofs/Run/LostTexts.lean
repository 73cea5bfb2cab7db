import Mathlib.Data.List.Dedup
import SwiftBindings.Proofs.Run.WritingOrder

/-!
# Texts that are lost

Without buckets, chunks that go to one file replace each other, and all but one of them are lost
with their texts. Names alone decide whether that happens.

* `Plan.texts_kept_iff`: **no text is lost, in any order of writing, exactly if sources with one
  file have each other's texts, and each type has its own file exactly if no two names lead to one.**
* `FromSources.shows_texts_iff`: the same for the texts of sources alone.
-/

namespace SwiftBindings

open FileStore Synthesizer Writer

/-- Whether the file at a path holds a text somewhere in it. -/
def FileStore.Shows (s : FileStore) (p : Path) (text : String) : Prop :=
  ∃ whole : String, s.readText p = .ok whole ∧ text.toList <:+: whole.toList

/-- A file that reads as a text shows exactly what is in the text. -/
theorem FileStore.shows_iff {s : FileStore} {p : Path} {whole text : String}
    (h : s.readBytes p = .ok whole.toUTF8) : s.Shows p text ↔ text.toList <:+: whole.toList := by
  have hr := readText_of_readBytes h
  constructor
  · rintro ⟨whole', hr', ht⟩
    rw [hr, Except.ok.injEq] at hr'
    rw [hr']
    exact ht
  · exact fun ht => ⟨whole, hr, ht⟩

/-- The selected types. -/
def Context.types (ctx : Context) (m : Module) (all : Bool) : List Declaration :=
  (Category.all.filter (·.isType)).flatMap (ctx.selected m all)

/-- The location of the file that a chunk goes to, if it has one of its own. -/
def Chunk.location? (working : Location) (chunk : Chunk) : Option Location :=
  match chunk.target with
  | .file p => some (p.destination working)
  | .bucket _ => none

namespace Plan

/-- The files that the types of a plan are written to, one for each chunk. -/
def typeFiles (p : Plan) (working : Location) : List Location :=
  ((Category.all.filter (·.isType)).flatMap fun c => (p.contribution c).chunks).filterMap
    (Chunk.location? working)

variable {synthesize : Synthesizer} {store : FileStore} {known : Registry} {m : Module}
  {o : RunOptions} {dir : Path} {split : TypeSplit} {files : FileStore}
  {ps : List (Bucket × Fault)} {order₀ : List Chunk}

/-- With one file per type, the files of the types are named after them. -/
theorem typeFiles_make (ho : o.policy = .files dir .filePerType)
    (hok : ∀ c, ¬ Fails synthesize (make synthesize store known m o).context m o.generateAll c)
    (w : Location) :
    (make synthesize store known m o).typeFiles w =
      ((make synthesize store known m o).context.types m o.generateAll).map fun d =>
        ((⟨dir, o.moduleName⟩ : FileNames).partFile d.displayName).destination w := by
  unfold typeFiles Context.types
  rw [List.filterMap_flatMap, List.map_flatMap]
  -- every group is one type
  refine List.flatMap_congr fun c hc => ?_
  have ht : c.isType = true := (List.mem_filter.1 hc).2
  have hsuffix : c.fileSuffix? = none := Category.fileSuffix?_eq_none_iff.2 ht
  rw [chunks_make ho]
  simp only [if_neg (hok c), groups, ht, if_true, snippets, List.map_map]
  rw [List.filterMap_map, ← List.filterMap_eq_map]
  refine List.filterMap_congr fun d _ => ?_
  simp [Chunk.location?, Chunk.ofGroup, groupTarget, hsuffix, snippet]

/-- The texts of a group are the code of its declarations. -/
theorem mem_texts_iff {ctx : Context} {all : Bool} {c : Category} {g : List Snippet} {opening t : String}
    (hg : g ∈ groups c (snippets synthesize ctx m all c) split) :
    t ∈ (Source.group c g).texts opening ↔
      ∃ d ∈ ctx.selected m all c, snippet synthesize ctx d ∈ g ∧ code synthesize ctx d = t ∧ t ≠ "" := by
  show t ∈ (g.map (·.text)).filter (· ≠ "") ↔ _
  rw [List.mem_filter, List.mem_map]
  constructor
  · rintro ⟨⟨s, hs, rfl⟩, hne⟩
    obtain ⟨d, hd, rfl⟩ := List.mem_map.1 (mem_of_mem_groups hg hs)
    exact ⟨d, hd, hs, rfl, by simpa using hne⟩
  · rintro ⟨d, -, hs, rfl, hne⟩
    exact ⟨⟨_, hs, rfl⟩, by simpa using hne⟩

/-- **When the texts of sources are kept.** Whatever the order of writing, each file shows the texts
of its source, exactly if sources with one file have each other's texts. -/
theorem FromSources.shows_texts_iff {p : Plan} {names : FileNames} {opening : String}
    {xs : List Source} (h : p.FromSources names opening xs) (hc : p.Completes files ps order₀)
    (h₀ : order₀.Perm p.chunks) :
    (∀ order, order.Perm p.chunks → ∀ x ∈ xs, ∀ t ∈ x.texts opening,
        (p.filesAfter files ps order).Shows (x.file names) t) ↔
      ∀ x ∈ xs, ∀ y ∈ xs, x ≠ y →
        (x.file names).destination files.working = (y.file names).destination files.working →
        ∀ t ∈ x.texts opening,
          t.toList <:+: (p.context.filters.preamble ++ y.content opening).toList := by
  constructor
  · -- an order that writes the other source last
    intro hkept x hx y hy _ hd t ht
    have hread := h.readBytes_endingWith hc h₀ hx hy hd
    exact (shows_iff hread).1 (hkept _ (endingWith_perm (h.chunk_mem hy)) x hx t ht)
  · intro hothers order hp x hx t ht
    obtain ⟨y, hy, -, hd, hread⟩ :=
      h.readBytes_filesAfter (h.completes_of_perm hc h₀ hp) hp hx
    rw [shows_iff hread]
    by_cases hxy : x = y
    · rw [← hxy, String.toList_append]
      exact (Source.texts_infix ht).trans (List.suffix_append _ _).isInfix
    · exact hothers x hx y hy hxy hd.symm t ht

/-- **When no text is lost.** If every write succeeds and every category can be made, then in every
order of writing the module's file shows what opens the module, the file of each selected declaration
shows its code, and with one file per type there are as many files as selected types, exactly if
sources with one file have each other's texts and, with one file per type, no two names of types lead
to one file. -/
theorem texts_kept_iff (synthesize : Synthesizer) (store : FileStore) (known : Registry) (m : Module)
    (o : RunOptions) {dir : Path} {split : TypeSplit} (ho : o.policy = .files dir split)
    (hs : split ≠ .alphaBuckets) (files : FileStore) (ps : List (Bucket × Fault))
    (hok : ∀ c, ¬ Fails synthesize (make synthesize store known m o).context m o.generateAll c)
    {order₀ : List Chunk} (h₀ : order₀.Perm (make synthesize store known m o).chunks)
    (hc : (make synthesize store known m o).Completes files ps order₀) :
    let plan := make synthesize store known m o
    let ctx := plan.context
    let names : FileNames := ⟨dir, o.moduleName⟩
    let opening := o.boilerplate ++ m.boilerplate
    let xs := sources synthesize ctx m o.generateAll split
    let types := ctx.types m o.generateAll
    (∀ order, order.Perm plan.chunks →
      (plan.filesAfter files ps order).Shows names.moduleFile opening ∧
      (∀ c, ∀ d ∈ ctx.selected m o.generateAll c, code synthesize ctx d ≠ "" →
        ∀ g ∈ groups c (snippets synthesize ctx m o.generateAll c) split,
          snippet synthesize ctx d ∈ g →
          (plan.filesAfter files ps order).Shows ((Source.group c g).file names)
            (code synthesize ctx d)) ∧
      (split = .filePerType → (plan.typeFiles files.working).dedup.length = types.length)) ↔
    (∀ x ∈ xs, ∀ y ∈ xs, x ≠ y →
      (x.file names).destination files.working = (y.file names).destination files.working →
      ∀ t ∈ x.texts opening, t.toList <:+: (ctx.filters.preamble ++ y.content opening).toList) ∧
    (split = .filePerType →
      (types.map fun d => (names.partFile d.displayName).destination files.working).Nodup) := by
  intro plan ctx names opening xs types
  have hshows := (fromSources_make ho hs).shows_texts_iff hc h₀
  -- a type's file is counted once exactly if no other type has it
  have hcount : split = .filePerType →
      ((plan.typeFiles files.working).dedup.length = types.length ↔
        (types.map fun d => (names.partFile d.displayName).destination files.working).Nodup) := by
    intro hsplit
    subst hsplit
    have hfiles : plan.typeFiles files.working =
        types.map fun d => (names.partFile d.displayName).destination files.working :=
      typeFiles_make ho hok files.working
    rw [hfiles, ← List.dedup_eq_self]
    constructor
    · intro hlen
      refine (List.dedup_sublist _).eq_of_length ?_
      rw [hlen, List.length_map]
    · intro hself
      rw [hself, List.length_map]
  constructor
  · -- the texts of a source are what opens the module or the code of declarations
    intro h
    refine ⟨hshows.1 fun order hp x hx t ht => ?_, fun hsplit => ?_⟩
    · obtain ⟨hmodule, hgroups, -⟩ := h order hp
      cases x with
      | opening =>
        rw [List.mem_singleton.1 ht]
        exact hmodule
      | group c g =>
        obtain ⟨-, hg⟩ := group_mem_sources.1 hx
        obtain ⟨d, hd, hsg, rfl, hne⟩ := (mem_texts_iff hg).1 ht
        exact hgroups c d hd hne g hg hsg
    · exact (hcount hsplit).1 ((h order₀ h₀).2.2 hsplit)
  · rintro ⟨htexts, hnodup⟩ order hp
    have hall := hshows.2 htexts order hp
    refine ⟨?_, fun c d hd hne g hg hsg => ?_, fun hsplit => (hcount hsplit).2 (hnodup hsplit)⟩
    · exact hall .opening List.mem_cons_self opening (List.mem_singleton_self _)
    · exact hall (.group c g) (group_mem_sources.2 ⟨hok c, hg⟩) _
        ((mem_texts_iff hg).2 ⟨d, hd, hsg, rfl, hne⟩)

theorem texts_kept_iff_pens :
    penOptions.policy = .files ⟨"out"⟩ .filePerType ∧ TypeSplit.filePerType ≠ .alphaBuckets ∧
      (∀ c, ¬ Fails (fun _ d => some d.name) penPlan.context pens false c) ∧
      penPlan.chunks.Perm penPlan.chunks ∧ penPlan.Completes ⟨.empty, []⟩ [] penPlan.chunks ∧
      let names : FileNames := ⟨⟨"out"⟩, "Test"⟩
      ¬ ∀ order, order.Perm penPlan.chunks →
        (penPlan.filesAfter ⟨.empty, []⟩ [] order).Shows names.moduleFile "" ∧
        (∀ c, ∀ d ∈ penPlan.context.selected pens false c, d.name ≠ "" →
          ∀ g ∈ groups c (snippets (fun _ d => some d.name) penPlan.context pens false c) .filePerType,
            snippet (fun _ d => some d.name) penPlan.context d ∈ g →
            (penPlan.filesAfter ⟨.empty, []⟩ [] order).Shows ((Source.group c g).file names) d.name) ∧
        (TypeSplit.filePerType = .filePerType →
          (penPlan.typeFiles []).dedup.length = (penPlan.context.types pens false).length) := by
  have hok : ∀ c, ¬ Fails (fun _ d => some d.name) penPlan.context pens false c := by
    rintro c ⟨d, -, h⟩
    simp at h
  have hpolicy : penOptions.policy = .files ⟨"out"⟩ .filePerType := rfl
  have hiff := texts_kept_iff (fun _ d => some d.name) ⟨.empty, []⟩ .empty pens penOptions hpolicy
    (by decide) ⟨.empty, []⟩ [] hok (.refl _) penPlan_completes
  refine ⟨hpolicy, by decide, hok, .refl _, penPlan_completes, fun h => ?_⟩
  exact absurd ((hiff.1 h).2 rfl) (by decide +kernel)

end Plan

end SwiftBindings
