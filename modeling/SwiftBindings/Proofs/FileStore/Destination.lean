import Mathlib.Tactic.Set
import SwiftBindings.FileStore.Basic

/-!
# Destinations of paths

There are no links in a file store, so where a path leads is a matter of its text: `destination`
reads it off without a look at any entry. The store only decides whether the path can be walked.

* `destination_eq_foldl_components`: paths with the same components lead to the same location.
* `step_eq_ok_iff`, `walk_cons_eq_ok_iff`, `walk_append_eq_ok_iff`: one step, and a walk cut in two.
* `locate_eq_destination`: a path that can be walked leads to its destination.
* `Grows`: a store that has all directories of another; a walk that works in the one works in the
  other and leads to the same place (`Grows.walk`, `Grows.locate`).
-/

namespace SwiftBindings

/-- The location that a piece of a path leads to from another one, whatever is there. -/
def Location.follow (l : Location) (piece : List Char) : Location :=
  if piece = [] ∨ piece = ['.'] then l
  else if piece = ['.', '.'] then l.dropLast
  else l ++ [String.ofList piece]

/-- The location that a component leads to from another one. -/
def Component.follow (l : Location) : Component → Location
  | .root => []
  | .current => l
  | .parent => l.dropLast
  | .name text => l ++ [text]

theorem Location.follow_eq (l : Location) (piece : List Char) :
    l.follow piece = (Path.innerComponent? piece).elim l (Component.follow l) := by
  unfold Location.follow Path.innerComponent?
  split
  · rfl
  split <;> rfl

theorem Location.foldl_follow (l : Location) (ps : List (List Char)) :
    ps.foldl Location.follow l = (ps.filterMap Path.innerComponent?).foldl Component.follow l := by
  induction ps generalizing l with
  | nil => rfl
  | cons piece rest ih =>
    rw [List.foldl_cons, ih, Location.follow_eq]
    cases h : Path.innerComponent? piece with
    | none => rw [List.filterMap_cons_none h]; rfl
    | some c => rw [List.filterMap_cons_some h]; rfl

namespace Path

/-- The location that a path starts from. -/
def origin (working : Location) (p : Path) : Location := if p.isAbsolute then [] else working

/-- The location that a path leads to, `working` being where relative paths start. -/
def destination (working : Location) (p : Path) : Location :=
  (Text.pieces '/' p.text.toList).foldl Location.follow (p.origin working)

/-- **Paths with the same components lead to the same location.** -/
theorem destination_eq_foldl_components (working : Location) (p : Path) :
    p.destination working = p.components.foldl Component.follow working := by
  have hrest : ∀ ps : List (List Char),
      (ps.map fun text => Piece.mk text (innerComponent? text)).filterMap (·.component?) =
        ps.filterMap innerComponent? := by
    intro ps; rw [List.filterMap_map]; rfl
  unfold destination components pieces origin isAbsolute
  cases ht : p.text.toList with
  | nil => rfl
  | cons c rest =>
    have hne := Text.pieces_ne_nil '/' rest
    by_cases hc : c = '/'
    · -- the first piece is empty, and the root
      obtain ⟨q, qs, hq⟩ := List.exists_cons_of_ne_nil hne
      subst hc
      simp only [Text.pieces, if_true, List.head?_cons, hq]
      rw [List.filterMap_cons_some (b := .root) (by simp [leadingComponent?]), hrest,
        Location.foldl_follow]
      rfl
    · have hp : ∃ q qs, Text.pieces '/' (c :: rest) = (c :: q) :: qs := by
        obtain ⟨q, qs, hq⟩ := List.exists_cons_of_ne_nil hne
        exact ⟨q, qs, by rw [Text.pieces, if_neg hc, hq]⟩
      obtain ⟨q, qs, hq⟩ := hp
      have habs : decide ((c :: rest).head? = some '/') = false := by simpa using hc
      simp only [hq, habs, Bool.false_eq_true, if_false, List.foldl_cons]
      rw [List.filterMap_cons, hrest, Location.foldl_follow]
      unfold leadingComponent?
      rw [if_neg (List.cons_ne_nil c q)]
      by_cases hdot : c :: q = ['.']
      · simp [hdot, Location.follow, Component.follow]
      · rw [if_neg hdot, Location.follow_eq]
        cases innerComponent? (c :: q) <;> rfl

theorem isAbsolute_append (a : String) {x : String} (h : x.toList.head? ≠ some '/') :
    isAbsolute ⟨a ++ x⟩ = isAbsolute ⟨a⟩ := by
  unfold isAbsolute
  cases ha : a.toList <;> simp [ha, h]

theorem origin_append (working : Location) (a : String) {x : String}
    (h : x.toList.head? ≠ some '/') : origin working ⟨a ++ x⟩ = origin working ⟨a⟩ := by
  unfold origin; rw [isAbsolute_append a h]

/-- A piece behind the last slash that is neither empty nor dots names the last step. -/
theorem destination_append (working : Location) (a : String) {x : String} (hx : '/' ∉ x.toList)
    (hlen : 2 < x.toList.length) :
    destination working ⟨a ++ x⟩ =
      (Text.pieces '/' a.toList).dropLast.foldl Location.follow (origin working ⟨a⟩) ++
        [String.ofList ((Text.pieces '/' a.toList).getLast (Text.pieces_ne_nil _ _)) ++ x] := by
  have hh : x.toList.head? ≠ some '/' := fun h => hx (List.mem_of_mem_head? h)
  unfold destination
  rw [origin_append working a hh]
  simp only [String.toList_append]
  rw [Text.pieces_append _ hx, List.foldl_append]
  set last := (Text.pieces '/' a.toList).getLast (Text.pieces_ne_nil _ _)
  have hl : 2 < (last ++ x.toList).length := by rw [List.length_append]; omega
  simp only [List.foldl_cons, List.foldl_nil, Location.follow]
  rw [if_neg, if_neg]
  · simp
  · intro h; rw [h] at hl; simp at hl
  · rintro (h | h) <;> rw [h] at hl <;> simp at hl

end Path

namespace FileStore

variable {s t u : FileStore} {l l' : Location} {p : Path}

/-- Whether a piece of a path is short enough, if it names a file. -/
def Fits (piece : List Char) : Prop :=
  piece ≠ [] → piece ≠ ['.'] → piece ≠ ['.', '.'] →
    (String.ofList piece).utf8ByteSize ≤ maxNameBytes

/-- **One step of a walk.** It starts from a directory, with a piece that fits. -/
theorem step_eq_ok_iff {piece : List Char} :
    s.step l piece = .ok l' ↔
      s.lookup? l = some .directory ∧ Fits piece ∧ l' = l.follow piece := by
  unfold step Location.follow Fits
  cases hl : s.lookup? l with
  | none => simp
  | some e =>
    cases e with
    | file b => simp
    | directory =>
      simp only [true_and]
      by_cases h : piece = [] ∨ piece = ['.']
      · rw [if_pos h, if_pos h, Except.ok.injEq]
        refine ⟨fun e => ⟨fun h₁ h₂ => absurd h (by simp [h₁, h₂]), e.symm⟩, fun e => e.2.symm⟩
      rw [if_neg h, if_neg h]
      by_cases h₃ : piece = ['.', '.']
      · rw [if_pos h₃, if_pos h₃, Except.ok.injEq]
        exact ⟨fun e => ⟨fun _ _ h₃' => absurd h₃ h₃', e.symm⟩, fun e => e.2.symm⟩
      rw [if_neg h₃, if_neg h₃]
      obtain ⟨h₁, h₂⟩ := not_or.1 h
      by_cases hm : maxNameBytes < (String.ofList piece).utf8ByteSize
      · rw [if_pos hm]
        refine ⟨fun e => by simp at e, fun e => ?_⟩
        have := e.1 h₁ h₂ h₃
        omega
      · rw [if_neg hm, Except.ok.injEq]
        exact ⟨fun e => ⟨fun _ _ _ => by omega, e.symm⟩, fun e => e.2.symm⟩

/-- A step from something that is there misses nothing. -/
theorem step_ne_missing {piece : List Char} (h : s.lookup? l ≠ none) :
    s.step l piece ≠ .error .missing := by
  unfold step
  split
  · rename_i hnone
    exact absurd hnone h
  · simp
  · split
    · simp
    split
    · simp
    split <;> simp

/-- **A walk, step by step.** -/
theorem walk_cons_eq_ok_iff {piece : List Char} {rest : List (List Char)} :
    s.walk l (piece :: rest) = .ok l' ↔
      s.lookup? l = some .directory ∧ Fits piece ∧ s.walk (l.follow piece) rest = .ok l' := by
  rw [walk]
  cases hs : s.step l piece with
  | error e =>
    refine ⟨fun h => by simp at h, fun ⟨hd, hf, _⟩ => ?_⟩
    rw [step_eq_ok_iff.2 ⟨hd, hf, rfl⟩] at hs
    simp at hs
  | ok l₁ =>
    obtain ⟨hd, hf, rfl⟩ := step_eq_ok_iff.1 hs
    simp [hd, hf]

theorem walk_append_eq_ok_iff {ps qs : List (List Char)} :
    s.walk l (ps ++ qs) = .ok l' ↔ ∃ l₁, s.walk l ps = .ok l₁ ∧ s.walk l₁ qs = .ok l' := by
  induction ps generalizing l with
  | nil => simp [walk]
  | cons piece rest ih =>
    rw [List.cons_append, walk_cons_eq_ok_iff, ih]
    simp only [walk_cons_eq_ok_iff]
    exact ⟨fun ⟨hd, hf, l₁, h₁, h₂⟩ => ⟨l₁, ⟨hd, hf, h₁⟩, h₂⟩,
      fun ⟨l₁, ⟨hd, hf, h₁⟩, h₂⟩ => ⟨hd, hf, l₁, h₁, h₂⟩⟩

/-- A walk goes on from where its first steps lead. -/
theorem walk_append {ps qs : List (List Char)} (h : s.walk l ps = .ok l') :
    s.walk l (ps ++ qs) = s.walk l' qs := by
  induction ps generalizing l with
  | nil =>
    obtain rfl := Except.ok.inj h
    rfl
  | cons piece rest ih =>
    rw [walk] at h
    rw [List.cons_append, walk]
    cases hstep : s.step l piece with
    | error e =>
      rw [hstep] at h
      cases h
    | ok l₁ =>
      rw [hstep] at h
      exact ih h

/-- A walk and the step after it. -/
theorem walk_append_singleton_eq_ok_iff {ps : List (List Char)} {piece : List Char} :
    s.walk l (ps ++ [piece]) = .ok l' ↔
      ∃ l₁, s.walk l ps = .ok l₁ ∧ s.lookup? l₁ = some .directory ∧ Fits piece ∧
        l' = l₁.follow piece := by
  rw [walk_append_eq_ok_iff]
  refine exists_congr fun l₁ => and_congr_right fun _ => ?_
  rw [walk_cons_eq_ok_iff, walk, Except.ok.injEq, @eq_comm _ l']

/-- A walk leads to where its pieces lead. -/
theorem walk_eq_foldl {ps : List (List Char)} (h : s.walk l ps = .ok l') :
    l' = ps.foldl Location.follow l := by
  induction ps generalizing l with
  | nil => simpa [walk, eq_comm] using h
  | cons piece rest ih => exact ih (walk_cons_eq_ok_iff.1 h).2.2

/-- What a path needs to be looked up at all. -/
def Wellformed (p : Path) : Prop :=
  p.text.toList.contains (Char.ofNat 0) = false ∧ p.text ≠ "" ∧ p.text.utf8ByteSize < pathLimit

theorem locate_eq_walk (s : FileStore) (h : Wellformed p) :
    s.locate p = s.walk (p.origin s.working) (Text.pieces '/' p.text.toList) := by
  obtain ⟨h₁, h₂, h₃⟩ := h
  unfold locate Path.origin
  rw [if_neg (by rw [h₁]; simp), if_neg h₂, if_neg (by omega)]

theorem locate_eq_ok_iff :
    s.locate p = .ok l ↔
      Wellformed p ∧ s.walk (p.origin s.working) (Text.pieces '/' p.text.toList) = .ok l := by
  constructor
  · intro h
    have hw : Wellformed p := by
      unfold locate at h
      split at h
      · simp at h
      split at h
      · simp at h
      split at h
      · simp at h
      · rename_i h₁ h₂ h₃
        exact ⟨by simpa using h₁, h₂, by omega⟩
    exact ⟨hw, by rw [← locate_eq_walk s hw]; exact h⟩
  · rintro ⟨hw, h⟩
    rw [locate_eq_walk s hw]; exact h

/-- A path that misses something does so on its walk. -/
theorem walk_of_locate_missing (hne : p.text ≠ "") (h : s.locate p = .error .missing) :
    s.walk (p.origin s.working) (Text.pieces '/' p.text.toList) = .error .missing := by
  unfold locate at h
  rw [if_neg hne] at h
  split at h
  · cases h
  split at h
  · cases h
  · exact h

/-- **A path that can be walked leads to its destination.** -/
theorem locate_eq_destination (h : s.locate p = .ok l) : l = p.destination s.working :=
  walk_eq_foldl (locate_eq_ok_iff.1 h).2

/-- A store that has all directories of another. -/
structure Grows (s t : FileStore) : Prop where
  working : t.working = s.working
  directory : ∀ l, s.lookup? l = some .directory → t.lookup? l = some .directory

theorem Grows.refl (s : FileStore) : s.Grows s := ⟨rfl, fun _ h => h⟩

theorem Grows.trans (h₁ : s.Grows t) (h₂ : t.Grows u) : s.Grows u :=
  ⟨h₂.working.trans h₁.working, fun l h => h₂.directory l (h₁.directory l h)⟩

theorem Grows.walk (h : s.Grows t) {ps : List (List Char)} (hw : s.walk l ps = .ok l') :
    t.walk l ps = .ok l' := by
  induction ps generalizing l with
  | nil => exact hw
  | cons piece rest ih =>
    obtain ⟨hd, hf, hw⟩ := walk_cons_eq_ok_iff.1 hw
    exact walk_cons_eq_ok_iff.2 ⟨h.directory l hd, hf, ih hw⟩

theorem Grows.locate (h : s.Grows t) (hl : s.locate p = .ok l) : t.locate p = .ok l := by
  obtain ⟨hw, hs⟩ := locate_eq_ok_iff.1 hl
  refine locate_eq_ok_iff.2 ⟨hw, ?_⟩
  rw [h.working]; exact h.walk hs

theorem stat_eq_ok_iff {e : Entry} :
    s.stat p = .ok e ↔ ∃ l, s.locate p = .ok l ∧ s.lookup? l = some e := by
  unfold stat
  cases hl : s.locate p with
  | error e => simp
  | ok l =>
    cases he : s.lookup? l with
    | none => simp [he]
    | some e' => simp [he]

theorem isDirectory_iff :
    s.isDirectory p = true ↔ ∃ l, s.locate p = .ok l ∧ s.lookup? l = some .directory := by
  rw [← stat_eq_ok_iff]
  unfold isDirectory
  split
  · rename_i h; simp [h]
  · rename_i h; simpa using h

theorem Grows.isDirectory (h : s.Grows t) (hd : s.isDirectory p = true) :
    t.isDirectory p = true := by
  obtain ⟨l, hl, he⟩ := isDirectory_iff.1 hd
  exact isDirectory_iff.2 ⟨l, h.locate hl, h.directory l he⟩

/-- **Reading a file.** Its path can be walked, and leads to the file. -/
theorem readBytes_eq_ok_iff {bytes : ByteArray} :
    s.readBytes p = .ok bytes ↔ ∃ l, s.locate p = .ok l ∧ s.lookup? l = some (.file bytes) := by
  rw [← stat_eq_ok_iff]
  unfold readBytes
  cases s.stat p with
  | error e => simp
  | ok e => cases e <;> simp

theorem readText_of_readBytes {text : String} (h : s.readBytes p = .ok text.toUTF8) :
    s.readText p = .ok text := by
  have hv : text.toUTF8.IsValidUTF8 := text.isValidUTF8
  unfold readText
  rw [h]
  simp only [String.fromUTF8?, hv, dif_pos]
  rfl

end FileStore

end SwiftBindings
