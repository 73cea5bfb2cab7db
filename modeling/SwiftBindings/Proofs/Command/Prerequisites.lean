import SwiftBindings.Command.Inputs
import SwiftBindings.Proofs.Path.Meeting

/-!
# A module as its own prerequisite

A manifest that names the description of its module among its prerequisites is refused. The paths
are compared as they are written, before they are joined to the configuration directory, so a
description that is written in two ways is not noticed: behind the directory it is the same file.

* `Manifest.not_same_of_parse`: what an accepted manifest does not say.
* `Inputs.own_prerequisite_iff`: **a module is its own prerequisite exactly if a prerequisite that is
  written differently meets its description behind the directory.**
-/

namespace SwiftBindings

/-- What is there stays when paths are added. -/
theorem mem_extendUnique_of_mem {p : Path} {paths : List Path} (h : p ∈ paths) (more : List Path) :
    p ∈ extendUnique paths more := by
  unfold extendUnique
  induction more generalizing paths with
  | nil => exact h
  | cons q rest ih =>
    rw [List.foldl_cons]
    refine ih ?_
    split
    · exact h
    · exact List.mem_append_left [q] h

/-- A manifest that is read has no fault. -/
theorem Manifest.fault?_eq_none_of_parse {text : String} {m : Manifest}
    (h : Manifest.parse text = .ok m) : Manifest.fault? text m = none := by
  unfold Manifest.parse at h
  split at h
  · cases h
  split at h
  · cases h
  · rename_i m' _ hfault
    cases h
    exact hfault

/-- **A manifest that is read does not name the description among the prerequisites**, as far as both
are written. -/
theorem Manifest.not_same_of_parse {text : String} {m : Manifest} {ir : Path}
    (h : Manifest.parse text = .ok m) (hir : m.module.ir? = some ir) :
    ∀ p ∈ m.module.prerequisites, p.same ir = false := by
  have hfault := Manifest.fault?_eq_none_of_parse h
  unfold Manifest.fault? at hfault
  rw [hir] at hfault
  simp only at hfault
  intro p hp
  refine Bool.eq_false_iff.2 fun hsame => ?_
  have hany : m.module.prerequisites.any (·.same ir) = true := List.any_eq_true.2 ⟨p, hp, hsame⟩
  rw [if_pos hany] at hfault
  split at hfault
  · cases hfault
  split at hfault <;> cases hfault

namespace Inputs

/-- **When a module is its own prerequisite.** For every manifest that is read, every configuration
directory and every command line that names no prerequisites, the description of the manifest is one
of those to generate. It is also one of the prerequisites exactly if the manifest has a prerequisite
that meets it behind the directory, and so never if the manifest spells its paths alike or the
directory is empty. -/
theorem own_prerequisite_iff {text : String} {m : Manifest} {ir : Path} (args : InputArgs)
    (hm : Manifest.parse text = .ok m) (hir : m.module.ir? = some ir)
    (hargs : args.prerequisites = []) :
    let own := args.configDir.join ir
    own ∈ (resolve args (some m)).irFiles ∧
      ((∃ p ∈ (resolve args (some m)).prerequisites, p.same own = true) ↔
        ∃ p ∈ m.module.prerequisites, Path.MeetBehind args.configDir p ir) ∧
      ((args.configDir.text = "" ∨ ∀ p ∈ m.module.prerequisites, Path.SpelledAlike p ir) →
        ∀ p ∈ (resolve args (some m)).prerequisites, p.same own = false) := by
  intro own
  have hresolved : (resolve args (some m)).prerequisites =
      m.module.prerequisites.map args.configDir.join := by
    unfold resolve
    rw [hargs]
    rfl
  have hown : own ∈ (resolve args (some m)).irFiles := by
    refine mem_extendUnique_of_mem ?_ args.ir
    show own ∈ (m.module.ir?.map args.configDir.join).toList
    rw [hir]
    exact List.mem_singleton.2 rfl
  -- a prerequisite of the manifest is not the description as written, so they can only meet
  have hmeet : ∀ p ∈ m.module.prerequisites,
      (args.configDir.join p).same own = true ↔ Path.MeetBehind args.configDir p ir := by
    intro p hp
    exact Path.same_join_iff (Manifest.not_same_of_parse hm hir p hp)
  have hiff : (∃ p ∈ (resolve args (some m)).prerequisites, p.same own = true) ↔
      ∃ p ∈ m.module.prerequisites, Path.MeetBehind args.configDir p ir := by
    rw [hresolved]
    constructor
    · rintro ⟨_, hjoined, hsame⟩
      obtain ⟨p, hp, rfl⟩ := List.mem_map.1 hjoined
      exact ⟨p, hp, (hmeet p hp).1 hsame⟩
    · rintro ⟨p, hp, hbehind⟩
      exact ⟨_, List.mem_map_of_mem hp, (hmeet p hp).2 hbehind⟩
  refine ⟨hown, hiff, fun halike q hq => ?_⟩
  refine Bool.eq_false_iff.2 fun hsame => ?_
  obtain ⟨p, hp, hbehind⟩ := hiff.1 ⟨q, hq, hsame⟩
  rcases halike with hempty | halike
  · exact hbehind.1 hempty
  · exact Path.not_meetBehind (halike p hp) hbehind

/-- A manifest that names its own description behind a dot. -/
def dottedManifest : String :=
  "[module]\nir = \"./A.json\"\nprerequisites = [\"A.json\"]\n"

/-- The manifest is read, and its module is its own prerequisite. -/
theorem own_prerequisite_iff_dotted :
    ∃ (m : Manifest) (args : InputArgs), Manifest.parse dottedManifest = .ok m ∧
      args.prerequisites = [] ∧
      ∃ own ∈ (resolve args (some m)).irFiles,
        ∃ p ∈ (resolve args (some m)).prerequisites, p.same own = true := by
  have hm : Manifest.parse dottedManifest =
      .ok ⟨{ ModuleConfig.default with ir? := some ⟨"./A.json"⟩, prerequisites := [⟨"A.json"⟩] }⟩ := by
    decide +kernel
  have hmeet : Path.MeetBehind ⟨"cfg"⟩ ⟨"A.json"⟩ ⟨"./A.json"⟩ :=
    ⟨by decide, .inl (.inr (by decide +kernel))⟩
  obtain ⟨hown, hiff, -⟩ := own_prerequisite_iff ⟨⟨"cfg"⟩, [], [], none, none, false⟩ hm rfl rfl
  exact ⟨_, _, hm, rfl, _, hown, hiff.2 ⟨_, List.mem_singleton.2 rfl, hmeet⟩⟩

end Inputs

end SwiftBindings
