import SwiftBindings.Proofs.Run.Contribution
import SwiftBindings.Proofs.Swift.Skeletons
import SwiftBindings.Proofs.Text.Blocks

/-!
# Skeletons read back from chunks

Skeletons are put together with blank lines between them or behind them, and have no empty lines of
their own unless a string of the module has a line feed. So cutting a chunk at its blank lines gives
back the skeletons that it is made of.

* `TypeSplit.runsOf`: the runs of declarations that go to one chunk each.
* `groups_snippets`: the groups of the snippets of a type are these runs.
* `blocks_chunks_of_isType`, `blocks_chunks_of_not_isType`: the blocks of the chunks of a category.
* `skeletons_read_back`: **skeletons without empty lines, read back from the chunks of a run.**
-/

namespace SwiftBindings

open Swift (skeleton skeletons)

/-- The runs of the declarations of a type that go to one chunk each. -/
def TypeSplit.runsOf : TypeSplit → List Declaration → List (List Declaration)
  | .groupedRuns, ds => runs (fun d => d.displayName.toList.head?) ds
  | .filePerType, ds => ds.map fun d => [d]
  | .alphaBuckets, ds => runs (fun d => Bucket.ofName d.displayName) ds

/-- The runs of declarations lose and move nothing. -/
theorem TypeSplit.flatten_runsOf (split : TypeSplit) (ds : List Declaration) :
    (split.runsOf ds).flatten = ds := by
  cases split with
  | groupedRuns => exact flatten_runs _ ds
  | filePerType =>
    show (ds.map fun d => [d]).flatten = ds
    rw [← List.flatMap_def, List.flatMap_singleton']
  | alphaBuckets => exact flatten_runs _ ds

section Blocks

variable {ctx : Context} {m : Module} {all : Bool} {c : Category} {ds : List Declaration}
  {names : FileNames} {split : TypeSplit}

/-- The code of a run of a type. -/
theorem blockText_snippets (ctx : Context) (ds : List Declaration) :
    blockText (ds.map (Synthesizer.snippet skeletons ctx)) =
      String.join ((ds.map (skeleton ctx)).map (· ++ "\n\n")) := by
  rw [blockText_eq, List.filter_eq_self.2, List.map_map, List.map_map]
  · rfl
  · exact List.forall_mem_map.2 fun d _ => decide_eq_true (Swift.skeleton_ne_empty ctx d)

theorem joinSimple_snippets (ctx : Context) (ds : List Declaration) :
    joinSimple (ds.map (Synthesizer.snippet skeletons ctx)) =
      "\n\n".intercalate (ds.map (skeleton ctx)) := by
  unfold joinSimple
  rw [List.filter_eq_self.2, List.map_map]
  · rfl
  · rw [List.map_map]
    exact List.forall_mem_map.2 fun d _ => decide_eq_true (Swift.skeleton_ne_empty ctx d)

/-- **The groups of a type** are the runs of its declarations. -/
theorem groups_snippets (hc : c.isType = true) (ctx : Context) (ds : List Declaration)
    (split : TypeSplit) :
    groups c (ds.map (Synthesizer.snippet skeletons ctx)) split =
      (split.runsOf ds).map (List.map (Synthesizer.snippet skeletons ctx)) := by
  unfold groups
  rw [if_pos hc]
  cases split with
  | groupedRuns => exact runs_map _ _ ds
  | filePerType =>
    show (ds.map _).map _ = (ds.map _).map _
    rw [List.map_map, List.map_map]
    rfl
  | alphaBuckets =>
    show (runs Snippet.bucket (ds.map _)).filter _ = _
    rw [runs_map, List.filter_eq_self.2]
    · rfl
    · -- a run holds a skeleton, so its code is not empty
      intro g hg
      obtain ⟨run, hrun, rfl⟩ := List.mem_map.1 hg
      obtain ⟨d, rest, rfl⟩ := List.exists_cons_of_ne_nil (runs_ne_nil _ ds run hrun)
      refine decide_eq_true fun he => ?_
      exact Swift.skeleton_ne_empty ctx d (blockText_eq_empty_iff.1 he _ List.mem_cons_self)

/-- **The blocks of the chunk of a category with one file** are its skeletons. -/
theorem blocks_chunks_of_not_isType (hc : c.isType = false) (hne : ctx.selected m all c ≠ [])
    (h : ∀ d ∈ ctx.selected m all c, [] ∉ Text.pieces '\n' (skeleton ctx d).toList) :
    (Contribution.make skeletons ctx m all (some (names, split)) c).chunks.map
        (fun chunk => Text.blocks chunk.content) =
      [(ctx.selected m all c).map (skeleton ctx)] := by
  have hgroups : ∀ items, groups c items split = [items] := fun items => if_neg (by simp [hc])
  rw [Contribution.make_chunks, if_neg (Swift.not_fails_skeletons ctx m all c), hgroups,
    List.map_singleton, List.map_singleton, Chunk.ofGroup, groupText, if_neg (by simp [hc]),
    joinSimple_snippets, Text.blocks_intercalate]
  · simpa using hne
  · exact List.forall_mem_map.2 h

/-- **The blocks of the chunks of a type** are the skeletons of its runs, and behind those of a run
nothing more. -/
theorem blocks_chunks_of_isType (hc : c.isType = true)
    (h : ∀ d ∈ ctx.selected m all c, [] ∉ Text.pieces '\n' (skeleton ctx d).toList) :
    (Contribution.make skeletons ctx m all (some (names, split)) c).chunks.map
        (fun chunk => Text.blocks chunk.content) =
      (split.runsOf (ctx.selected m all c)).map fun run => run.map (skeleton ctx) ++ [""] := by
  rw [Contribution.make_chunks, if_neg (Swift.not_fails_skeletons ctx m all c),
    groups_snippets hc, List.map_map, List.map_map]
  refine List.map_congr_left fun run hrun => ?_
  have hmem : ∀ d ∈ run, d ∈ ctx.selected m all c := by
    intro d hd
    rw [← split.flatten_runsOf (ctx.selected m all c)]
    exact List.mem_flatten_of_mem hrun hd
  show Text.blocks (groupText c (run.map (Synthesizer.snippet skeletons ctx))) = _
  rw [groupText, if_pos hc, blockText_snippets, Text.blocks_join]
  exact List.forall_mem_map.2 fun d hd => h d (hmem d hd)

end Blocks

/-- **Skeletons are read back from the chunks of a run.** Let rules be loaded from side files, and
let no string of a module hold a line feed, but for the values of constants that are written as
string literals. Then, whatever is known, every skeleton is a text that neither starts nor ends with
a line feed and has no empty line. So the blocks of the one chunk of a category that is not a type,
if it has selected declarations, are their skeletons in order; and the blocks of the chunks of a
type are the skeletons of its runs in order, with an empty block behind each run. -/
theorem skeletons_read_back (store : FileStore) (dir : Path) (moduleName : String)
    (registry : Registry) (m : Module) (all : Bool) (names : FileNames) (split : TypeSplit) :
    let ctx : Context := ⟨moduleName, registry, (Filters.load store dir moduleName).1⟩
    let blocksOf := fun c =>
      (Contribution.make skeletons ctx m all (some (names, split)) c).chunks.map fun chunk =>
        Text.blocks chunk.content
    (∀ d ∈ m.declarations, ∀ t ∈ d.plainStrings ctx, '\n' ∉ t.toList) →
    (∀ d ∈ m.declarations,
      skeleton ctx d ≠ "" ∧ (skeleton ctx d).toList.head? ≠ some '\n' ∧
        (skeleton ctx d).toList.getLast? ≠ some '\n' ∧
        [] ∉ Text.pieces '\n' (skeleton ctx d).toList) ∧
      (∀ c, c.isType = false → ctx.selected m all c ≠ [] →
        blocksOf c = [(ctx.selected m all c).map (skeleton ctx)]) ∧
      ∀ c, c.isType = true →
        (split.runsOf (ctx.selected m all c)).flatten = ctx.selected m all c ∧
          blocksOf c = (split.runsOf (ctx.selected m all c)).map fun run =>
            run.map (skeleton ctx) ++ [""] := by
  intro ctx blocksOf h
  have hctx : ctx.filters.RenamesInLine := Filters.renamesInLine_load store dir moduleName
  have htexts : ∀ d ∈ m.declarations, [] ∉ Text.pieces '\n' (skeleton ctx d).toList := fun d hd =>
    Swift.notMem_pieces_skeleton hctx (h d hd)
  have hselected : ∀ c, ∀ d ∈ ctx.selected m all c,
      [] ∉ Text.pieces '\n' (skeleton ctx d).toList := fun c d hd =>
    htexts d (Context.mem_of_mem_selected hd)
  refine ⟨fun d hd => ⟨Swift.skeleton_ne_empty ctx d,
    Text.head?_ne_of_notMem_pieces (htexts d hd), Text.getLast?_ne_of_notMem_pieces (htexts d hd),
    htexts d hd⟩, fun c hc hne => blocks_chunks_of_not_isType hc hne (hselected c),
    fun c hc => ⟨split.flatten_runsOf _, blocks_chunks_of_isType hc (hselected c)⟩⟩

/-- A module with two constants and two classes. The value of the first constant has an empty
line. -/
def letters : Module :=
  ⟨"T", "", [⟨"GREETING", none, none, .constant "utf8" "Dear\n\nall"⟩,
    ⟨"PAGES", none, some "PAGES", .constant "gint" "2"⟩,
    ⟨"Pen", none, none, .class_ (some "G.Tool") []⟩, ⟨"Pencil", none, none, .class_ none []⟩]⟩

/-- A side file that renames a namespace. -/
def letterStore : FileStore :=
  ⟨.ofList [(["T.namespaceReplacements"], .file "G\tGTools\n".toUTF8)], []⟩

/-- The constants are read back from one chunk, and the classes, which start with one letter, from
another. -/
theorem skeletons_read_back_letters :
    let ctx : Context := ⟨"T", .empty, (Filters.load letterStore ⟨"."⟩ "T").1⟩
    let layout? := some (⟨⟨"o"⟩, "T"⟩, .groupedRuns)
    let blocksOf := fun c =>
      (Contribution.make skeletons ctx letters false layout? c).chunks.map fun chunk =>
        Text.blocks chunk.content
    (∀ d ∈ letters.declarations, ∀ t ∈ d.plainStrings ctx, '\n' ∉ t.toList) ∧
      blocksOf .constant = [["public let GREETING: String = \"Dear\\n\\nall\"",
        "/// Wraps `PAGES`.\npublic let PAGES: Int32 = 2"]] ∧
      blocksOf .class_ =
        [["open class Pen: GTools.Tool \x7b\n\x7d", "open class Pencil \x7b\n\x7d", ""]] := by
  intro ctx layout? blocksOf
  have h : ∀ d ∈ letters.declarations, ∀ t ∈ d.plainStrings ctx, '\n' ∉ t.toList := by
    decide +kernel
  obtain ⟨-, hsimple, htypes⟩ := skeletons_read_back letterStore ⟨"."⟩ "T" .empty letters false
    ⟨⟨"o"⟩, "T"⟩ .groupedRuns h
  exact ⟨h, (hsimple .constant rfl (by decide +kernel)).trans (by decide +kernel),
    (htypes .class_ rfl).2.trans (by decide +kernel)⟩

end SwiftBindings
