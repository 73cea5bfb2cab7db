import SwiftBindings.Proofs.Path.Join
import SwiftBindings.Proofs.Path.Order

/-!
# Different paths that meet

Paths that are not the same may lead to the same path from a directory. A dot at the start of a path
is a component of its own, but none once the path stands behind a directory; and an absolute path
leaves the directory out that a relative one is joined to.

* `Path.steps`: the components of a path without the dot that it may start with.
* `Path.components_join_eq_steps`: behind a directory a relative path goes on with its steps.
* `Path.MeetBehind`: how two different paths meet behind a directory.
* `Path.same_join_of_same`: the same paths are the same behind a directory.
* `Path.same_join_iff`: **different paths are the same behind a directory exactly if they meet.**
* `Path.same_join_eq_false_iff`: so paths differ there if they differ and do not meet.
* `Path.not_meetBehind`: paths that are spelled in the same way do not.
-/

namespace SwiftBindings

namespace Path

variable {p q dir : Path} {piece : List Char}

/-! ## Steps -/

/-- The components of a path without the dot that it may start with. -/
def steps (p : Path) : List Component := p.components.filter (· ≠ .current)

/-- A piece after a slash is neither the root nor a dot. -/
theorem innerComponent?_cases (piece : List Char) :
    innerComponent? piece = none ∨ innerComponent? piece = some .parent ∨
      ∃ text, innerComponent? piece = some (.name text) := by
  unfold innerComponent?
  split
  · exact .inl rfl
  split
  · exact .inr (.inl rfl)
  · exact .inr (.inr ⟨_, rfl⟩)

theorem ne_current_of_innerComponent? {c : Component} (h : innerComponent? piece = some c) :
    c ≠ .current := by
  rintro rfl
  rcases innerComponent?_cases piece with hp | hp | ⟨text, hp⟩ <;> simp [hp] at h

theorem ne_root_of_innerComponent? {c : Component} (h : innerComponent? piece = some c) :
    c ≠ .root := by
  rintro rfl
  rcases innerComponent?_cases piece with hp | hp | ⟨text, hp⟩ <;> simp [hp] at h

/-- The steps of a relative path are what its pieces are inside another path. -/
theorem steps_eq (h : p.isAbsolute = false) :
    p.steps = (Text.pieces '/' p.text.toList).filterMap innerComponent? := by
  obtain ⟨first, rest, hp⟩ := List.exists_cons_of_ne_nil (Text.pieces_ne_nil '/' p.text.toList)
  have hinner : ∀ pieces : List (List Char),
      (pieces.filterMap innerComponent?).filter (· ≠ .current) =
        pieces.filterMap innerComponent? := by
    intro pieces
    refine List.filter_eq_self.2 fun c hc => ?_
    obtain ⟨piece, -, he⟩ := List.mem_filterMap.1 hc
    exact decide_eq_true (ne_current_of_innerComponent? he)
  unfold steps
  rw [components_of_pieces hp, hp, List.filter_append, hinner rest]
  by_cases hdot : first = ['.']
  · -- the dot is what the steps leave out
    rw [hdot]
    rfl
  · rw [leadingComponent?_eq_inner hdot (eq_nil_of_not_isAbsolute h hp), List.filterMap_cons]
    cases hf : innerComponent? first with
    | none => rfl
    | some c =>
      have hc : c ≠ .current := ne_current_of_innerComponent? hf
      simp [hc]

/-- A relative path has its steps as components, behind a dot or not. -/
theorem components_of_relative (h : p.isAbsolute = false) :
    p.components = p.steps ∨ p.components = .current :: p.steps := by
  obtain ⟨first, rest, hp⟩ := List.exists_cons_of_ne_nil (Text.pieces_ne_nil '/' p.text.toList)
  rw [steps_eq h, components_of_pieces hp, hp, List.filterMap_cons]
  by_cases hdot : first = ['.']
  · rw [hdot]
    exact .inr rfl
  · rw [leadingComponent?_eq_inner hdot (eq_nil_of_not_isAbsolute h hp)]
    left
    cases innerComponent? first <;> rfl

/-- The steps of a relative path do not lead to the root. -/
theorem root_notMem_steps (h : p.isAbsolute = false) : .root ∉ p.steps := by
  intro hroot
  rw [steps_eq h] at hroot
  obtain ⟨piece, -, he⟩ := List.mem_filterMap.1 hroot
  exact ne_root_of_innerComponent? he rfl

/-- An absolute path starts at the root. -/
theorem components_of_absolute (h : p.isAbsolute = true) :
    ∃ rest, p.components = .root :: rest := by
  unfold isAbsolute at h
  obtain ⟨text, ht⟩ := List.head?_eq_some_iff.1 (of_decide_eq_true h)
  have hcut : p.text.toList = [] ++ '/' :: text := ht
  exact ⟨_, components_of_cut hcut rfl⟩

/-- A path is relative exactly if the root is not among its components. -/
theorem isAbsolute_eq_false_iff : p.isAbsolute = false ↔ .root ∉ p.components := by
  constructor
  · intro h hroot
    refine root_notMem_steps h ?_
    unfold steps
    exact List.mem_filter.2 ⟨hroot, by decide⟩
  · intro h
    refine Bool.eq_false_iff.2 fun habsolute => ?_
    obtain ⟨rest, hrest⟩ := components_of_absolute habsolute
    exact h (hrest ▸ List.mem_cons_self)

/-- Paths with the same components both start at the root, or neither does. -/
theorem isAbsolute_eq_of_components (h : p.components = q.components) :
    p.isAbsolute = q.isAbsolute := by
  have hiff : p.isAbsolute = false ↔ q.isAbsolute = false := by
    rw [isAbsolute_eq_false_iff, h, isAbsolute_eq_false_iff]
  cases hp : p.isAbsolute with
  | false => exact (hiff.1 hp).symm
  | true =>
    cases hq : q.isAbsolute with
    | false => rw [hiff.2 hq] at hp; cases hp
    | true => rfl

/-! ## Meeting -/

/-- **Behind a directory a relative path goes on with its steps.** -/
theorem components_join_eq_steps (h : p.isAbsolute = false) (hdir : dir.text ≠ "") :
    (dir.join p).components = dir.components ++ p.steps := by
  rw [components_join_of_not_empty h hdir, steps_eq h]

theorem join_of_absolute (h : p.isAbsolute = true) : dir.join p = p := by
  unfold join
  rw [if_pos h]

/-- The same paths are the same behind a directory. -/
theorem same_join_of_same (h : p.same q = true) : (dir.join p).same (dir.join q) = true := by
  rw [same_iff] at h ⊢
  by_cases hdir : dir.text = ""
  · rw [join_of_empty hdir, join_of_empty hdir, h]
  have habsolute := isAbsolute_eq_of_components h
  cases hp : p.isAbsolute with
  | true => rw [join_of_absolute hp, join_of_absolute (habsolute ▸ hp), h]
  | false =>
    have hsteps : p.steps = q.steps := by
      unfold steps
      rw [h]
    rw [components_join_eq_steps hp hdir, components_join_eq_steps (habsolute ▸ hp) hdir, hsteps]

/-- Whether one of two paths is the other behind a dot. -/
def DotApart (p q : Path) : Prop :=
  p.components = .current :: q.components ∨ q.components = .current :: p.components

/-- Whether an absolute path spells out where a relative one leads from a directory. -/
def SpellsOut (dir p q : Path) : Prop :=
  p.isAbsolute = true ∧ q.isAbsolute = false ∧ p.components = dir.components ++ q.steps

/-- How two different paths lead to one behind a directory: a dot at their start tells them apart,
or the directory does. An empty directory leaves all paths as they are. -/
def MeetBehind (dir p q : Path) : Prop :=
  dir.text ≠ "" ∧ (DotApart p q ∨ SpellsOut dir p q ∨ SpellsOut dir q p)

/-- Paths that a dot tells apart are relative. -/
theorem DotApart.isAbsolute_eq_false (h : DotApart p q) :
    p.isAbsolute = false ∧ q.isAbsolute = false := by
  have hleft : ∀ {p q : Path}, p.components = .current :: q.components →
      p.isAbsolute = false ∧ q.isAbsolute = false := by
    intro p q hp
    have hrelative : p.isAbsolute = false := by
      refine Bool.eq_false_iff.2 fun habsolute => ?_
      obtain ⟨rest, hrest⟩ := components_of_absolute habsolute
      rw [hp] at hrest
      exact absurd (List.cons.inj hrest).1 (by decide)
    have hroot : .root ∉ p.components := isAbsolute_eq_false_iff.1 hrelative
    exact ⟨hrelative, isAbsolute_eq_false_iff.2 fun h => hroot (hp ▸ List.mem_cons_of_mem _ h)⟩
  rcases h with h | h
  · exact hleft h
  · exact (hleft h).symm

theorem DotApart.steps_eq (h : DotApart p q) : p.steps = q.steps := by
  unfold steps
  rcases h with h | h
  · rw [h]
    rfl
  · rw [h]
    rfl

/-- Different relative paths with the same steps are told apart by a dot. -/
theorem dotApart_of_steps_eq (hp : p.isAbsolute = false) (hq : q.isAbsolute = false)
    (hne : p.same q = false) (h : p.steps = q.steps) : DotApart p q := by
  have hcomponents : p.components ≠ q.components := fun heq => by
    rw [same_iff.2 heq] at hne
    exact absurd hne (by decide)
  rcases components_of_relative hp with hp | hp <;> rcases components_of_relative hq with hq | hq
  · exact absurd (hp.trans (h.trans hq.symm)) hcomponents
  · right
    rw [hq, hp, h]
  · left
    rw [hp, hq, h]
  · exact absurd (by rw [hp, hq, h]) hcomponents

/-- **Different paths are the same behind a directory exactly if they meet.** -/
theorem same_join_iff (hne : p.same q = false) :
    (dir.join p).same (dir.join q) = true ↔ MeetBehind dir p q := by
  by_cases hdir : dir.text = ""
  · rw [join_of_empty hdir, join_of_empty hdir, hne]
    exact ⟨fun h => absurd h (by decide), fun h => absurd hdir h.1⟩
  rw [same_iff]
  constructor
  · intro h
    refine ⟨hdir, ?_⟩
    cases hp : p.isAbsolute with
    | false =>
      rw [components_join_eq_steps hp hdir] at h
      cases hq : q.isAbsolute with
      | false =>
        rw [components_join_eq_steps hq hdir] at h
        have hsteps : p.steps = q.steps := List.append_cancel_left h
        exact .inl (dotApart_of_steps_eq hp hq hne hsteps)
      | true =>
        rw [join_of_absolute hq] at h
        exact .inr (.inr ⟨hq, hp, h.symm⟩)
    | true =>
      rw [join_of_absolute hp] at h
      cases hq : q.isAbsolute with
      | false =>
        rw [components_join_eq_steps hq hdir] at h
        exact .inr (.inl ⟨hp, hq, h⟩)
      | true =>
        rw [join_of_absolute hq, ← same_iff, hne] at h
        exact absurd h (by decide)
  · rintro ⟨-, hdot | ⟨hp, hq, h⟩ | ⟨hq, hp, h⟩⟩
    · obtain ⟨hp, hq⟩ := hdot.isAbsolute_eq_false
      rw [components_join_eq_steps hp hdir, components_join_eq_steps hq hdir, hdot.steps_eq]
    · rw [join_of_absolute hp, components_join_eq_steps hq hdir, h]
    · rw [join_of_absolute hq, components_join_eq_steps hp hdir, h]

/-- **Two paths differ behind a directory** exactly if they differ and do not meet there. -/
theorem same_join_eq_false_iff :
    (dir.join p).same (dir.join q) = false ↔ p.same q = false ∧ ¬ MeetBehind dir p q := by
  cases hsame : p.same q with
  | true => simp [same_join_of_same hsame]
  | false =>
    rw [← Bool.not_eq_true, same_join_iff hsame]
    simp

/-- Whether two paths are spelled in the same way: both or neither from the root, both or neither
with a dot at the start. -/
def SpelledAlike (p q : Path) : Prop :=
  p.isAbsolute = q.isAbsolute ∧ (.current ∈ p.components ↔ .current ∈ q.components)

/-- **Paths that are spelled in the same way do not meet.** -/
theorem not_meetBehind (h : SpelledAlike p q) : ¬ MeetBehind dir p q := by
  obtain ⟨habsolute, hdot⟩ := h
  have hapart : ∀ {p q : Path}, p.isAbsolute = false → q.isAbsolute = false →
      (.current ∈ p.components → .current ∈ q.components) →
      p.components ≠ .current :: q.components := by
    intro p q hp hq himp h
    have hcurrent : .current ∈ q.components := himp (by simp [h])
    -- a second dot would be a step
    have hsteps : .current ∈ p.steps := by
      rcases components_of_relative hp with hp | hp
      · rw [← hp, h]
        exact List.mem_cons_self
      · rw [h] at hp
        rw [← (List.cons.inj hp).2]
        exact hcurrent
    unfold steps at hsteps
    simp at hsteps
  rintro ⟨-, happ | ⟨hp, hq, -⟩ | ⟨hq, hp, -⟩⟩
  · obtain ⟨hp, hq⟩ := happ.isAbsolute_eq_false
    rcases happ with h | h
    · exact hapart hp hq hdot.1 h
    · exact hapart hq hp hdot.2 h
  · rw [hp, hq] at habsolute
    exact absurd habsolute (by decide)
  · rw [hp, hq] at habsolute
    exact absurd habsolute (by decide)

end Path

end SwiftBindings
