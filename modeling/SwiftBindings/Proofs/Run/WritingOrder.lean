import SwiftBindings.Proofs.Run.Buckets
import SwiftBindings.Proofs.Run.Overwrites
import SwiftBindings.Proofs.Run.Sources

/-!
# Orders of writing

Without buckets every chunk replaces a file, and the chunks of a run are written in any order.

* `FromSources.completes_of_perm`: if every write succeeds in one order, so it does in every order.
* `FromSources.readBytes_filesAfter`: a file holds the last source that is written to it.
* `Plan.files_independent_of_order_iff`: **the files do not depend on the order exactly if chunks
  with the same path have the same content.**
-/

namespace SwiftBindings

open FileStore Synthesizer Writer

/-- The schedule that writes chunks in the given order, none of them refused. -/
def Schedule.writing (ps : List (Bucket × Fault)) (order : List Chunk) : Schedule :=
  ⟨ps, order.map fun chunk => (chunk, false), Category.all⟩

namespace Plan

/-- Whether every write succeeds if chunks are written in the given order: nothing is told of any
of them. -/
def Completes (p : Plan) (files : FileStore) (ps : List (Bucket × Fault)) (order : List Chunk) :
    Prop :=
  (p.writeFiles files (.writing ps order)).diagnostics =
    (p.writeFiles files (.writing ps [])).diagnostics

instance (p : Plan) (files : FileStore) (ps : List (Bucket × Fault)) (order : List Chunk) :
    Decidable (p.Completes files ps order) := inferInstanceAs (Decidable (_ = _))

/-- The files after chunks have been written in the given order. -/
def filesAfter (p : Plan) (files : FileStore) (ps : List (Bucket × Fault)) (order : List Chunk) :
    FileStore := (p.carryOut files (.writing ps order)).2

/-- Chunks with the same path have the same content. -/
def Agrees (p : Plan) : Prop :=
  ∀ a ∈ p.chunks, ∀ b ∈ p.chunks, ∀ q r, a.target = .file q → b.target = .file r →
    q.components = r.components → a.content = b.content

/-- The writer of a plan once stale buckets are cleared. -/
def cleared (p : Plan) (names : FileNames) (files : FileStore) (ps : List (Bucket × Fault)) :
    Writer := ((Writer.start files names p.context.filters.preamble).prepare false ps).2

section Cleared

variable (p : Plan) (names : FileNames) (files : FileStore) (ps : List (Bucket × Fault))

@[simp] theorem cleared_preamble :
    (p.cleared names files ps).preamble = p.context.filters.preamble :=
  (prepare_frame (w := .start files names p.context.filters.preamble) rfl).2.1

@[simp] theorem cleared_working : (p.cleared names files ps).store.working = files.working :=
  (prepare_frame (w := .start files names p.context.filters.preamble) rfl).2.2

end Cleared

variable {p : Plan} {names : FileNames} {opening : String} {xs : List Source} {files : FileStore}
  {ps : List (Bucket × Fault)} {order order' : List Chunk}

/-- An order in which a chunk comes last. -/
def endingWith (p : Plan) (chunk : Chunk) : List Chunk := p.chunks.erase chunk ++ [chunk]

theorem endingWith_perm {chunk : Chunk} (hm : chunk ∈ p.chunks) :
    (p.endingWith chunk).Perm p.chunks :=
  (List.perm_append_singleton _ _).trans (List.perm_cons_erase hm).symm

namespace FromSources

theorem writeFiles_writing (h : p.FromSources names opening xs) (files : FileStore)
    (ps : List (Bucket × Fault)) (order : List Chunk) :
    p.writeFiles files (.writing ps order) =
      ((p.cleared names files ps).written order).closeBuckets := by
  obtain ⟨split, hs, hl⟩ := h.layout
  unfold writeFiles
  rw [hl]
  simp only [hs, decide_false]
  rfl

theorem completes_iff (h : p.FromSources names opening xs) :
    p.Completes files ps order ↔ (p.cleared names files ps).Writes order := by
  unfold Completes
  rw [h.writeFiles_writing, h.writeFiles_writing]
  rfl

theorem filesAfter_eq (h : p.FromSources names opening xs) :
    p.filesAfter files ps order = ((p.cleared names files ps).written order).store := by
  show (p.writeFiles files _).store = _
  rw [h.writeFiles_writing]
  rfl

theorem ownFiles (h : p.FromSources names opening xs) (hp : order.Perm p.chunks) :
    Chunk.OwnFiles order := by
  intro chunk hm
  obtain ⟨x, -, rfl⟩ := h.mem_chunks.1 (hp.mem_iff.1 hm)
  exact ⟨_, rfl⟩

/-- **If every write succeeds in one order, every write succeeds in every order.** -/
theorem completes_of_perm (h : p.FromSources names opening xs) (hc : p.Completes files ps order)
    (hp : order.Perm p.chunks) (hp' : order'.Perm p.chunks) : p.Completes files ps order' := by
  rw [h.completes_iff] at hc ⊢
  have habs : ∀ chunk ∈ order, ∀ q, chunk.target = .file q →
      q.isAbsolute = Path.isAbsolute ⟨names.stem⟩ := by
    intro chunk hm q ht
    obtain ⟨x, -, rfl⟩ := h.mem_chunks.1 (hp.mem_iff.1 hm)
    rw [← Target.file.inj ht]
    exact x.isAbsolute_file names
  exact hc.perm (h.ownFiles hp) habs (hp'.trans hp.symm)

/-- **A file holds the last source that is written to it.** -/
theorem readBytes_filesAfter (h : p.FromSources names opening xs)
    (hc : p.Completes files ps order) (hp : order.Perm p.chunks) {x : Source} (hx : x ∈ xs) :
    ∃ y ∈ xs, Chunk.lastAt files.working ((x.file names).destination files.working) order =
        some (y.chunk names opening) ∧
      (y.file names).destination files.working = (x.file names).destination files.working ∧
      (p.filesAfter files ps order).readBytes (x.file names) =
        .ok (p.context.filters.preamble ++ y.content opening).toUTF8 := by
  rw [h.completes_iff] at hc
  obtain ⟨a, hlast, hread⟩ := hc.readBytes (h.ownFiles hp)
    ⟨x.chunk names opening, hp.mem_iff.2 (h.chunk_mem hx), rfl⟩
  rw [cleared_working] at hlast
  rw [cleared_preamble] at hread
  obtain ⟨ham, hat⟩ := Chunk.mem_of_lastAt hlast
  obtain ⟨y, hy, rfl⟩ := h.mem_chunks.1 (hp.mem_iff.1 ham)
  refine ⟨y, hy, hlast, ?_, ?_⟩
  · simpa [Chunk.isAt, Source.chunk] using hat
  · rw [h.filesAfter_eq]
    exact hread

/-- A source that comes last is in its file, by whichever path the file is read. -/
theorem readBytes_endingWith (h : p.FromSources names opening xs)
    (hc : p.Completes files ps order) (hp : order.Perm p.chunks) {x y : Source} (hx : x ∈ xs)
    (hy : y ∈ xs)
    (hd : (x.file names).destination files.working = (y.file names).destination files.working) :
    (p.filesAfter files ps (p.endingWith (y.chunk names opening))).readBytes (x.file names) =
      .ok (p.context.filters.preamble ++ y.content opening).toUTF8 := by
  have hp' := endingWith_perm (h.chunk_mem hy)
  obtain ⟨z, -, hlast, -, hread⟩ :=
    h.readBytes_filesAfter (h.completes_of_perm hc hp hp') hp' hx
  unfold endingWith at hlast
  rw [Chunk.lastAt_append_singleton, if_pos (by simp [Chunk.isAt, Source.chunk, hd])] at hlast
  have hcontent : y.content opening = z.content opening :=
    congrArg Chunk.content (Option.some.inj hlast)
  rw [hcontent]
  exact hread

/-- If no part holds a slash, paths with the same components are those that lead to one file. -/
theorem agrees_iff (h : p.FromSources names opening xs)
    (hflat : ∀ x ∈ xs, ∀ part ∈ x.part?, '/' ∉ part.toList) (w : Location) :
    p.Agrees ↔ ∀ x ∈ xs, ∀ y ∈ xs, (x.file names).destination w = (y.file names).destination w →
      x.content opening = y.content opening := by
  constructor
  · intro hag x hx y hy hd
    refine hag _ (h.chunk_mem hx) _ (h.chunk_mem hy) _ _ rfl rfl ?_
    rw [Source.file_inj (hflat x hx) (hflat y hy) hd]
  · intro hxs a ha b hb q r hq hr he
    obtain ⟨x, hx, rfl⟩ := h.mem_chunks.1 ha
    obtain ⟨y, hy, rfl⟩ := h.mem_chunks.1 hb
    refine hxs x hx y hy ?_
    rw [Path.destination_eq_foldl_components, Path.destination_eq_foldl_components,
      Target.file.inj hq, Target.file.inj hr, he]

/-- If sources with one file agree, each file holds the preamble and its source. -/
theorem readBytes_of_agree (h : p.FromSources names opening xs) (hc : p.Completes files ps order)
    (hp : order.Perm p.chunks)
    (hxs : ∀ x ∈ xs, ∀ y ∈ xs,
      (x.file names).destination files.working = (y.file names).destination files.working →
      x.content opening = y.content opening) {x : Source} (hx : x ∈ xs) :
    (p.filesAfter files ps order).readBytes (x.file names) =
      .ok (p.context.filters.preamble ++ x.content opening).toUTF8 := by
  obtain ⟨y, hy, -, hd, hread⟩ := h.readBytes_filesAfter hc hp hx
  rw [hread, hxs y hy x hx hd]

/-- If no order makes a difference, sources with one file agree: one order writes the one last,
another the other. -/
theorem agree_of_independent (h : p.FromSources names opening xs)
    (hc : p.Completes files ps order) (hp : order.Perm p.chunks)
    (hind : ∀ order order', order.Perm p.chunks → order'.Perm p.chunks → ∀ x ∈ xs,
      (p.filesAfter files ps order).readBytes (x.file names) =
        (p.filesAfter files ps order').readBytes (x.file names)) {x y : Source} (hx : x ∈ xs)
    (hy : y ∈ xs)
    (hd : (x.file names).destination files.working = (y.file names).destination files.working) :
    x.content opening = y.content opening := by
  have hxlast := h.readBytes_endingWith hc hp hx hx rfl
  have hylast := h.readBytes_endingWith hc hp hx hy hd
  have hsame := hind _ _ (endingWith_perm (h.chunk_mem hx)) (endingWith_perm (h.chunk_mem hy)) x hx
  rw [hxlast, hylast, Except.ok.injEq] at hsame
  exact (String.append_right_inj _).1 (String.toByteArray_inj.1 hsame)

end FromSources

/-- **When the files of a run do not depend on the order of writing.** If no name holds a slash and
every write succeeds, then every write succeeds in every order, and the files are the same after all
orders exactly if chunks with the same path have the same content. Then each file holds the preamble
and its chunk. -/
theorem files_independent_of_order_iff (synthesize : Synthesizer) (store : FileStore)
    (known : Registry) (m : Module) (o : RunOptions) {dir : Path} {split : TypeSplit}
    (ho : o.policy = .files dir split) (hs : split ≠ .alphaBuckets)
    (hnames : ∀ d ∈ m.declarations, '/' ∉ d.displayName.toList) (files : FileStore)
    (ps : List (Bucket × Fault)) {order₀ : List Chunk}
    (h₀ : order₀.Perm (make synthesize store known m o).chunks)
    (hc : (make synthesize store known m o).Completes files ps order₀) :
    let plan := make synthesize store known m o
    (∀ order, order.Perm plan.chunks → plan.Completes files ps order) ∧
    ((∀ order order', order.Perm plan.chunks → order'.Perm plan.chunks →
        ∀ chunk ∈ plan.chunks, ∀ q, chunk.target = .file q →
          (plan.filesAfter files ps order).readBytes q =
            (plan.filesAfter files ps order').readBytes q) ↔ plan.Agrees) ∧
    (plan.Agrees → ∀ order, order.Perm plan.chunks →
      ∀ chunk ∈ plan.chunks, ∀ q, chunk.target = .file q →
        (plan.filesAfter files ps order).readBytes q =
          .ok (plan.context.filters.preamble ++ chunk.content).toUTF8) := by
  intro plan
  -- only that the plan comes from sources whose parts hold no slash matters from here on
  obtain ⟨names, opening, xs, hplan, hflat⟩ : ∃ names opening xs,
      plan.FromSources names opening xs ∧ ∀ x ∈ xs, ∀ part ∈ x.part?, '/' ∉ part.toList :=
    ⟨_, _, _, fromSources_make ho hs, fun x hx => slash_notMem_part hnames hx⟩
  have hall : ∀ order, order.Perm plan.chunks → plan.Completes files ps order :=
    fun order hp => hplan.completes_of_perm hc h₀ hp
  have hkeeps : plan.Agrees → ∀ order, order.Perm plan.chunks →
      ∀ chunk ∈ plan.chunks, ∀ q, chunk.target = .file q →
        (plan.filesAfter files ps order).readBytes q =
          .ok (plan.context.filters.preamble ++ chunk.content).toUTF8 := by
    intro hag order hp chunk hm q ht
    obtain ⟨x, hx, rfl⟩ := hplan.mem_chunks.1 hm
    rw [← Target.file.inj ht]
    exact hplan.readBytes_of_agree (hall order hp) hp ((hplan.agrees_iff hflat _).1 hag) hx
  refine ⟨hall, ⟨fun hind => ?_, fun hag order order' hp hp' chunk hm q ht => ?_⟩, hkeeps⟩
  · rw [hplan.agrees_iff hflat files.working]
    intro x hx y hy hd
    refine hplan.agree_of_independent hc h₀ (fun order order' hp hp' x hx => ?_) hx hy hd
    exact hind order order' hp hp' _ (hplan.chunk_mem hx) _ rfl
  · rw [hkeeps hag order hp chunk hm q ht, hkeeps hag order' hp' chunk hm q ht]

/-- A module with two records of one display name. -/
def pens : Module :=
  ⟨"Test", "", [⟨"Ink", some "Pen", none, .record []⟩, ⟨"Nib", some "Pen", none, .record []⟩]⟩

/-- A run over it with one file per type. -/
def penOptions : RunOptions :=
  { RunOptions.ofModule "Test" with outputDir? := some ⟨"out"⟩, filePerType := true }

/-- The plan of the run, declarations being written by their names. -/
def penPlan : Plan := make (fun _ d => some d.name) ⟨.empty, []⟩ .empty pens penOptions

theorem penPlan_completes : penPlan.Completes ⟨.empty, []⟩ [] penPlan.chunks := by decide +kernel

theorem files_independent_of_order_iff_pens :
    penOptions.policy = .files ⟨"out"⟩ .filePerType ∧ TypeSplit.filePerType ≠ .alphaBuckets ∧
      (∀ d ∈ pens.declarations, '/' ∉ d.displayName.toList) ∧
      penPlan.chunks.Perm penPlan.chunks ∧ penPlan.Completes ⟨.empty, []⟩ [] penPlan.chunks ∧
      ¬ ∀ order order', order.Perm penPlan.chunks → order'.Perm penPlan.chunks →
        ∀ chunk ∈ penPlan.chunks, ∀ q, chunk.target = .file q →
          (penPlan.filesAfter ⟨.empty, []⟩ [] order).readBytes q =
            (penPlan.filesAfter ⟨.empty, []⟩ [] order').readBytes q := by
  have hnames : ∀ d ∈ pens.declarations, '/' ∉ d.displayName.toList := by decide
  have hpolicy : penOptions.policy = .files ⟨"out"⟩ .filePerType := rfl
  obtain ⟨-, hiff, -⟩ := files_independent_of_order_iff (fun _ d => some d.name) ⟨.empty, []⟩ .empty
    pens penOptions hpolicy (by decide) hnames ⟨.empty, []⟩ [] (.refl _) penPlan_completes
  refine ⟨hpolicy, by decide, hnames, .refl _, penPlan_completes, fun h => ?_⟩
  have hcontent := hiff.1 h ⟨.file ⟨"out/Test-Pen.swift"⟩, "Ink\n\n"⟩ (by decide +kernel)
    ⟨.file ⟨"out/Test-Pen.swift"⟩, "Nib\n\n"⟩ (by decide +kernel) _ _ rfl rfl rfl
  exact absurd hcontent (by decide)

end Plan

end SwiftBindings
