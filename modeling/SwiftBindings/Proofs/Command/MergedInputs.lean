import SwiftBindings.Command.Inputs
import SwiftBindings.Proofs.FirstMentions
import SwiftBindings.Proofs.Path.Meeting

/-!
# Inputs named more than once

The manifest and the command line may name one file several times, spelled alike or not. A path of
the command line is added only if none is there that leads through the same components, but the
prerequisites of the manifest are taken as they are, so what the manifest repeats stays repeated.

* `Path.extendUnique_eq`: what adding paths leaves of them.
* `Inputs.irFiles_eq`, `Inputs.prerequisites_eq`: the merged lists in terms of what is named.
* `Inputs.prerequisites_distinct_iff`: **the merged lists hold what is named, in order, and are without
  repetition exactly if the manifest repeats no prerequisite.**
-/

namespace SwiftBindings

namespace Path

variable {p q dir : Path} {paths entries mentions : List Path}

/-- Whether a list holds the paths that another one mentions, and no others, in an order in which
they are mentioned there. -/
structure Lists (entries mentions : List Path) : Prop where
  sublist : entries.Sublist mentions
  complete : ∀ p ∈ mentions, ∃ q ∈ entries, q.same p = true

theorem any_same_iff : paths.any p.same = true ↔ p.components ∈ paths.map components := by
  rw [List.any_eq_true, List.mem_map]
  constructor
  · rintro ⟨q, hq, hsame⟩
    exact ⟨q, hq, (same_iff.1 hsame).symm⟩
  · rintro ⟨q, hq, hsame⟩
    exact ⟨q, hq, same_iff.2 hsame.symm⟩

/-- A list with all components of another one is complete. -/
theorem complete_of_subset (h : mentions.map components ⊆ entries.map components) :
    ∀ p ∈ mentions, ∃ q ∈ entries, q.same p = true := by
  intro p hp
  obtain ⟨q, hq, hcomponents⟩ := List.mem_map.1 (h (List.mem_map_of_mem hp))
  exact ⟨q, hq, same_iff.2 hcomponents⟩

theorem distinct_firstMentions (l : List Path) : Distinct (firstMentions components l) :=
  distinct_iff.2 (nodup_keys_firstMentions components l)

theorem lists_firstMentions (l : List Path) : Lists (firstMentions components l) l :=
  ⟨firstMentions_sublist l, complete_of_subset fun _ hc => mem_keys_firstMentions.2 hc⟩

/-! ## Adding paths -/

/-- **What adding paths leaves of them:** their first mentions, without those that are there. -/
theorem extendUnique_eq (paths more : List Path) :
    extendUnique paths more = paths ++ newTo components paths (firstMentions components more) := by
  -- from the end, since a path is compared with all that is there when its turn comes
  induction more using List.reverseRecOn with
  | nil => exact (List.append_nil paths).symm
  | append_singleton more p ih =>
    have hstep : extendUnique paths (more ++ [p]) =
        if (extendUnique paths more).any p.same then extendUnique paths more
        else extendUnique paths more ++ [p] := by
      unfold extendUnique
      rw [List.foldl_append]
      rfl
    rw [hstep, ih]
    by_cases hpaths : p.components ∈ paths.map components
    · have hthere : (paths ++ newTo components paths (firstMentions components more)).any
          p.same = true := by
        rw [List.any_append, any_same_iff.2 hpaths, Bool.true_or]
      rw [if_pos hthere]
      by_cases hmore : p.components ∈ more.map components
      · rw [firstMentions_append_of_mem hmore]
      · rw [firstMentions_append_of_notMem hmore, newTo_append_of_mem hpaths]
    have hthere : (paths ++ newTo components paths (firstMentions components more)).any
        p.same = true ↔ p.components ∈ more.map components := by
      rw [any_same_iff, List.map_append, List.mem_append, or_iff_right hpaths,
        mem_keys_newTo hpaths, mem_keys_firstMentions]
    by_cases hmore : p.components ∈ more.map components
    · rw [if_pos (hthere.2 hmore), firstMentions_append_of_mem hmore]
    · rw [if_neg (mt hthere.1 hmore), firstMentions_append_of_notMem hmore,
        newTo_append_of_notMem hpaths, List.append_assoc]

/-- Paths added to a list are all there, and those that were added are new. -/
theorem lists_extendUnique (paths more : List Path) :
    Lists (extendUnique paths more) (paths ++ more) := by
  have hnew : (newTo components paths (firstMentions components more)).Sublist more :=
    List.filter_sublist.trans (firstMentions_sublist more)
  rw [extendUnique_eq]
  refine ⟨(List.Sublist.refl paths).append hnew, complete_of_subset ?_⟩
  intro c hc
  rw [List.map_append, List.mem_append] at hc ⊢
  by_cases hpaths : c ∈ paths.map components
  · exact .inl hpaths
  right
  rw [mem_keys_newTo hpaths, mem_keys_firstMentions]
  exact hc.resolve_left hpaths

/-- **First mentions are extended to first mentions.** -/
theorem extendUnique_of_distinct {paths : List Path} (h : Distinct paths) (more : List Path) :
    extendUnique paths more = firstMentions components (paths ++ more) := by
  have hpaths : firstMentions components paths = paths :=
    firstMentions_eq_self_iff.2 (distinct_iff.1 h)
  rw [extendUnique_eq, firstMentions_append, hpaths]

/-- **Only what was repeated before is repeated after** paths have been added. -/
theorem distinct_extendUnique_iff {paths more : List Path} :
    Distinct (extendUnique paths more) ↔ Distinct paths := by
  constructor
  · intro h
    rw [extendUnique_eq] at h
    exact (List.pairwise_append.1 h).1
  · intro h
    rw [extendUnique_of_distinct h]
    exact distinct_firstMentions _

end Path

namespace Inputs

variable (args : InputArgs) (manifest? : Option Manifest)

/-- The descriptions that are named, manifest before command line. -/
def namedFiles : List Path :=
  (manifest?.bind (·.module.ir?)).toList.map args.configDir.join ++ args.ir

/-- The prerequisites of a manifest as they are written. -/
def written (manifest? : Option Manifest) : List Path :=
  (manifest?.map (·.module.prerequisites)).getD []

/-- The prerequisites that are named, manifest before command line. -/
def namedPrerequisites : List Path :=
  (written manifest?).map args.configDir.join ++ args.prerequisites

/-- A manifest names one description at most, so descriptions are not repeated. -/
theorem irFiles_eq :
    (resolve args manifest?).irFiles = firstMentions Path.components (namedFiles args manifest?) := by
  have hresolve : (resolve args manifest?).irFiles =
      extendUnique ((manifest?.bind (·.module.ir?)).toList.map args.configDir.join) args.ir := by
    cases manifest? with
    | none => rfl
    | some m =>
      show extendUnique (m.module.ir?.map args.configDir.join).toList args.ir = _
      cases hir : m.module.ir? <;> simp [hir]
  rw [hresolve, Path.extendUnique_of_distinct]
  · rfl
  · cases manifest?.bind (·.module.ir?) with
    | none => exact List.Pairwise.nil
    | some ir => exact List.pairwise_singleton _ _

theorem prerequisites_eq :
    (resolve args manifest?).prerequisites =
      extendUnique ((written manifest?).map args.configDir.join) args.prerequisites := by
  cases manifest? <;> rfl

/-- **When inputs are merged without repetition.** For every configuration directory, every manifest
or none and every command line, the descriptions are the first mentions of those that are named,
manifest before command line. The prerequisites are, too, exactly if no two of them are the same;
and this is so exactly if the prerequisites of the manifest differ as they are written and do not
meet behind the directory. In any case both lists hold all that is named and nothing else, in order,
and of the command line no path that is there already. -/
theorem prerequisites_distinct_iff (args : InputArgs) (manifest? : Option Manifest) :
    let inputs := resolve args manifest?
    let own := (written manifest?).map args.configDir.join
    (inputs.irFiles = firstMentions Path.components (namedFiles args manifest?) ∧
      Path.Distinct inputs.irFiles ∧ Path.Lists inputs.irFiles (namedFiles args manifest?)) ∧
    (inputs.prerequisites =
        own ++ newTo Path.components own (firstMentions Path.components args.prerequisites) ∧
      Path.Lists inputs.prerequisites (namedPrerequisites args manifest?)) ∧
    (inputs.prerequisites = firstMentions Path.components (namedPrerequisites args manifest?) ↔
      Path.Distinct inputs.prerequisites) ∧
    (Path.Distinct inputs.prerequisites ↔
      (written manifest?).Pairwise fun p q =>
        p.same q = false ∧ ¬ Path.MeetBehind args.configDir p q) := by
  intro inputs own
  have hfiles : inputs.irFiles = firstMentions Path.components (namedFiles args manifest?) :=
    irFiles_eq args manifest?
  have hprerequisites : inputs.prerequisites = extendUnique own args.prerequisites :=
    prerequisites_eq args manifest?
  have hown : Path.Distinct inputs.prerequisites ↔ Path.Distinct own := by
    rw [hprerequisites, Path.distinct_extendUnique_iff]
  refine ⟨⟨hfiles, ?_, ?_⟩, ⟨?_, ?_⟩, ⟨?_, ?_⟩, ?_⟩
  · rw [hfiles]
    exact Path.distinct_firstMentions _
  · rw [hfiles]
    exact Path.lists_firstMentions _
  · rw [hprerequisites, Path.extendUnique_eq]
  · rw [hprerequisites]
    exact Path.lists_extendUnique own args.prerequisites
  · intro hfirst
    rw [hfirst]
    exact Path.distinct_firstMentions _
  · intro hdistinct
    rw [hprerequisites]
    exact Path.extendUnique_of_distinct (hown.1 hdistinct) args.prerequisites
  · rw [hown]
    unfold Path.Distinct
    rw [List.pairwise_map]
    simp only [Path.same_join_eq_false_iff]

/-- A manifest that names a prerequisite twice. -/
def repeatingManifest : String := "[module]\nprerequisites = [\"A.json\", \"A.json\"]\n"

/-- The manifest is read, and its prerequisite is merged twice. -/
theorem prerequisites_distinct_iff_repeated :
    ∃ m : Manifest, Manifest.parse repeatingManifest = .ok m ∧
      ∀ args : InputArgs, ¬ Path.Distinct (resolve args (some m)).prerequisites := by
  have hm : Manifest.parse repeatingManifest =
      .ok ⟨{ ModuleConfig.default with prerequisites := [⟨"A.json"⟩, ⟨"A.json"⟩] }⟩ := by
    decide +kernel
  refine ⟨_, hm, fun args hdistinct => ?_⟩
  have hpairs := (prerequisites_distinct_iff args (some _)).2.2.2.1 hdistinct
  have hsame := (List.rel_of_pairwise_cons hpairs (List.mem_singleton.2 rfl)).1
  exact absurd hsame (by decide)

end Inputs

end SwiftBindings
