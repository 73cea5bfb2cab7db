import Mathlib.Tactic.Common
import SwiftBindings.Path.Basic

/-!
# Components of joined paths

A relative path that is joined behind a base goes on from it: the components of the base stay, and
those of the path follow.

* `Path.components_join_of_not_empty`, `Path.components_join`: **the components of a path behind a
  base.**
* `Path.slash_notMem_of_mem_components`: no name of a path holds a slash.
* `Path.slash_notMem_moduleName`: so no name of a module does.
-/

namespace SwiftBindings

namespace Path

variable {p base part : Path} {first : List Char} {rest : List (List Char)}

/-- The components of a path, from its first piece and the others. -/
theorem components_of_pieces (h : Text.pieces '/' p.text.toList = first :: rest) :
    p.components =
      (leadingComponent? first (!rest.isEmpty)).toList ++ rest.filterMap innerComponent? := by
  unfold components pieces
  rw [h]
  simp only
  rw [List.filterMap_cons, List.filterMap_map]
  cases leadingComponent? first (!rest.isEmpty) <;> rfl

/-- The first piece of a path is the root only if it is empty and a slash follows. -/
theorem leadingComponent?_eq (hne : first ≠ []) (beforeSlash : Bool) :
    leadingComponent? first beforeSlash = leadingComponent? first false := by
  unfold leadingComponent?
  rw [if_neg hne, if_neg hne]

theorem leadingComponent?_eq_inner (hdot : first ≠ ['.']) (h : first = [] → rest = []) :
    leadingComponent? first (!rest.isEmpty) = innerComponent? first := by
  unfold leadingComponent?
  by_cases hf : first = []
  · rw [h hf, hf]
    rfl
  · rw [if_neg hf, if_neg hdot]

/-- A path that is not absolute starts with an empty piece only if it is empty. -/
theorem eq_nil_of_not_isAbsolute (h : p.isAbsolute = false)
    (hp : Text.pieces '/' p.text.toList = first :: rest) : first = [] → rest = [] := by
  intro hf
  subst hf
  cases ht : p.text.toList with
  | nil =>
    rw [ht] at hp
    exact (List.cons.inj hp).2.symm
  | cons c cs =>
    rw [ht] at hp
    unfold isAbsolute at h
    rw [ht] at h
    have hc : c ≠ '/' := by simpa using h
    obtain ⟨piece, more, hm⟩ := List.exists_cons_of_ne_nil (Text.pieces_ne_nil '/' cs)
    rw [Text.pieces, if_neg hc, hm] at hp
    simp at hp

/-- The components of a path that is cut at a slash. -/
theorem components_of_cut {front back : List Char} (h : p.text.toList = front ++ '/' :: back)
    (hf : Text.pieces '/' front = first :: rest) :
    p.components = (leadingComponent? first true).toList ++ rest.filterMap innerComponent? ++
      (Text.pieces '/' back).filterMap innerComponent? := by
  have hp : Text.pieces '/' p.text.toList = first :: (rest ++ Text.pieces '/' back) := by
    rw [h, Text.pieces_append_cons, hf]
    rfl
  have hmore : (!(rest ++ Text.pieces '/' back).isEmpty) = true := by
    simp [Text.pieces_ne_nil]
  rw [components_of_pieces hp, hmore, List.filterMap_append, List.append_assoc]

/-- Whether a slash follows makes no difference to a path that is not empty. -/
theorem components_of_not_empty (hne : p.text ≠ "")
    (hp : Text.pieces '/' p.text.toList = first :: rest) :
    p.components = (leadingComponent? first true).toList ++ rest.filterMap innerComponent? := by
  rw [components_of_pieces hp]
  by_cases hf : first = []
  · have hrest : rest ≠ [] := by
      rintro rfl
      have ht := Text.intercalate_pieces '/' p.text.toList
      rw [hp, hf] at ht
      exact hne (String.toList_eq_nil_iff.1 ht.symm)
    rw [List.isEmpty_eq_false_iff.2 hrest]
    rfl
  · rw [leadingComponent?_eq hf (!rest.isEmpty), leadingComponent?_eq hf true]

/-- The components of a path behind a base that is not empty. A dot at its start is none of them,
since it is inside the joined path. -/
theorem components_join_of_not_empty (h : part.isAbsolute = false) (hbase : base.text ≠ "") :
    (base.join part).components =
      base.components ++ (Text.pieces '/' part.text.toList).filterMap innerComponent? := by
  unfold join
  rw [if_neg (by simp [h])]
  split
  · -- the base ends with a slash, behind which there is nothing of its own
    rename_i hslash
    obtain ⟨front, hfront⟩ := List.getLast?_eq_some_iff.1 (hslash.resolve_left hbase)
    obtain ⟨q, qs, hq⟩ := List.exists_cons_of_ne_nil (Text.pieces_ne_nil '/' front)
    have hcomponents : base.components =
        (leadingComponent? q true).toList ++ qs.filterMap innerComponent? := by
      rw [components_of_cut hfront hq]
      exact List.append_nil _
    have hjoin : (base.text ++ part.text).toList = front ++ '/' :: part.text.toList := by
      rw [String.toList_append, hfront, List.append_assoc]
      rfl
    rw [hcomponents]
    exact components_of_cut hjoin hq
  · obtain ⟨q, qs, hq⟩ := List.exists_cons_of_ne_nil (Text.pieces_ne_nil '/' base.text.toList)
    have hjoin : (base.text ++ "/" ++ part.text).toList =
        base.text.toList ++ '/' :: part.text.toList := by
      rw [String.toList_append, String.toList_append, List.append_assoc]
      rfl
    rw [components_of_not_empty hbase hq]
    exact components_of_cut hjoin hq

/-- Behind an empty base a path stays as it is. -/
theorem join_of_empty (hbase : base.text = "") : base.join part = part := by
  unfold join
  split
  · rfl
  · rw [if_pos (.inl hbase), hbase, String.empty_append]

/-- **The components of a path behind a base.** The path must not start with a dot, which would be a
component of its own if the base is empty. -/
theorem components_join (h : part.isAbsolute = false)
    (hdot : (Text.pieces '/' part.text.toList).head? ≠ some ['.']) :
    (base.join part).components =
      base.components ++ (Text.pieces '/' part.text.toList).filterMap innerComponent? := by
  by_cases hempty : base.text = ""
  · obtain ⟨first, rest, hp⟩ :=
      List.exists_cons_of_ne_nil (Text.pieces_ne_nil '/' part.text.toList)
    have hfirst : first ≠ ['.'] := by
      rw [hp] at hdot
      simpa using hdot
    have hbase : base.components = [] := by
      obtain ⟨text⟩ := base
      rw [show text = "" from hempty]
      rfl
    rw [join_of_empty hempty, hbase, List.nil_append, components_of_pieces hp,
      leadingComponent?_eq_inner hfirst (eq_nil_of_not_isAbsolute h hp), hp, List.filterMap_cons]
    cases innerComponent? first <;> rfl
  · exact components_join_of_not_empty h hempty

/-- No name of a path holds a slash. -/
theorem slash_notMem_of_mem_components {text : String} (h : .name text ∈ p.components) :
    '/' ∉ text.toList := by
  have hinner : ∀ piece : List Char, innerComponent? piece = some (.name text) →
      piece = text.toList := by
    intro piece he
    unfold innerComponent? at he
    split at he
    · simp at he
    split at he
    · simp at he
    · rw [← Component.name.inj (Option.some.inj he), String.toList_ofList]
  obtain ⟨first, rest, hp⟩ := List.exists_cons_of_ne_nil (Text.pieces_ne_nil '/' p.text.toList)
  -- the name is one of the pieces
  suffices hpiece : text.toList ∈ Text.pieces '/' p.text.toList from
    Text.not_mem_of_mem_pieces hpiece
  rw [components_of_pieces hp] at h
  rw [hp]
  rcases List.mem_append.1 h with h | h
  · rw [Option.mem_toList] at h
    have hfirst : innerComponent? first = some (.name text) := by
      unfold leadingComponent? at h
      split at h
      · split at h <;> simp at h
      split at h
      · simp at h
      · exact h
    rw [hinner first hfirst]
    exact List.mem_cons_self
  · obtain ⟨piece, hm, he⟩ := List.mem_filterMap.1 h
    rw [← hinner piece he]
    exact List.mem_cons_of_mem _ hm

theorem mem_of_mem_withoutEnding {ending text : List Char} {c : Char}
    (h : c ∈ withoutEnding ending text) : c ∈ text := by
  unfold withoutEnding at h
  split at h
  · exact List.mem_of_mem_take h
  · exact h

/-- No name of a module holds a slash. -/
theorem slash_notMem_moduleName (p : Path) : '/' ∉ p.moduleName.toList := by
  unfold moduleName
  rw [String.toList_ofList]
  intro h
  have h := mem_of_mem_withoutEnding (mem_of_mem_withoutEnding h)
  unfold fileName? at h
  split at h
  · rename_i text hlast
    exact slash_notMem_of_mem_components (List.mem_of_getLast? hlast) h
  · simp at h

end Path

end SwiftBindings
