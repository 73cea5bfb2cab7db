import Mathlib.Data.List.Basic
import SwiftBindings.Proofs.Path.Ancestors
import SwiftBindings.Proofs.Path.Meeting

/-!
# Paths as seen from a base

A path is taken from a base by its components, and what is left is spelled as it stood in the path.
A dot at the start of the path, dots inside it and repeated slashes are then told apart from what
they mean, so the base may be spelled in another way than the beginning of the path.

* `Path.dropComponents?_eq_some`, `Path.exists_dropComponents?`: pieces after given components.
* `Path.components_ofPieces`: the components of what pieces from the middle of a path spell.
* `Path.exists_stripPrefix?`: **a path that goes on from a base has the rest behind it**, and no
  other path has.
* `Path.exists_stripPrefix?_join`: **what was joined behind a base is found there again.**
-/

namespace SwiftBindings

namespace Path

variable {p q base part : Path} {cs ds : List Component} {ps Q rest : List Piece}

/-! ## Pieces after components -/

theorem dropComponents?_cons_none {piece : Piece} (h : piece.component? = none) (c : Component)
    (cs : List Component) (ps : List Piece) :
    dropComponents? (c :: cs) (piece :: ps) = dropComponents? (c :: cs) ps := by
  rw [dropComponents?, h]

theorem dropComponents?_cons_some {piece : Piece} {d : Component} (h : piece.component? = some d)
    (c : Component) (cs : List Component) (ps : List Piece) :
    dropComponents? (c :: cs) (piece :: ps) =
      if c = d then dropComponents? cs ps else none := by
  rw [dropComponents?, h]

/-- What is left after components stood behind pieces of these. -/
theorem dropComponents?_eq_some (h : dropComponents? cs ps = some rest) :
    ∃ used, ps = used ++ rest ∧ used.filterMap (·.component?) = cs := by
  induction ps generalizing cs with
  | nil =>
    cases cs with
    | nil => exact ⟨[], (Option.some.inj h), rfl⟩
    | cons c cs => cases h
  | cons piece ps ih =>
    cases cs with
    | nil => exact ⟨[], Option.some.inj h, rfl⟩
    | cons c cs =>
      cases hpiece : piece.component? with
      | none =>
        rw [dropComponents?_cons_none hpiece] at h
        obtain ⟨used, hused, hcs⟩ := ih h
        refine ⟨piece :: used, by rw [hused, List.cons_append], ?_⟩
        rw [List.filterMap_cons, hpiece, hcs]
      | some d =>
        rw [dropComponents?_cons_some hpiece] at h
        split at h
        · rename_i hcd
          obtain ⟨used, hused, hcs⟩ := ih h
          refine ⟨piece :: used, by rw [hused, List.cons_append], ?_⟩
          rw [List.filterMap_cons, hpiece, hcs, hcd]
        · cases h

/-- Pieces that start with components have something after them. -/
theorem exists_dropComponents? (h : ps.filterMap (·.component?) = cs ++ ds) :
    ∃ rest, dropComponents? cs ps = some rest := by
  induction ps generalizing cs with
  | nil =>
    have hcs : cs = [] := (List.append_eq_nil_iff.1 h.symm).1
    exact ⟨[], by rw [hcs]; rfl⟩
  | cons piece ps ih =>
    cases cs with
    | nil => exact ⟨_, rfl⟩
    | cons c cs =>
      rw [List.filterMap_cons] at h
      cases hpiece : piece.component? with
      | none =>
        rw [hpiece] at h
        rw [dropComponents?_cons_none hpiece]
        exact ih h
      | some d =>
        rw [hpiece] at h
        obtain ⟨hcd, hrest⟩ := List.cons.inj h
        rw [dropComponents?_cons_some hpiece, if_pos hcd.symm]
        exact ih hrest

theorem filterMap_dropWhile (ps : List Piece) :
    (ps.dropWhile (·.component?.isNone)).filterMap (·.component?) =
      ps.filterMap (·.component?) := by
  induction ps with
  | nil => rfl
  | cons piece ps ih =>
    cases hpiece : piece.component? with
    | none => rw [List.dropWhile_cons_of_pos (by simp [hpiece]), ih, List.filterMap_cons, hpiece]
    | some c => rw [List.dropWhile_cons_of_neg (by simp [hpiece])]

/-- What is trimmed off is no component. -/
theorem filterMap_trimEnd (ps : List Piece) :
    (trimEnd ps).filterMap (·.component?) = ps.filterMap (·.component?) := by
  unfold trimEnd
  rw [List.filterMap_reverse, filterMap_dropWhile, List.filterMap_reverse, List.reverse_reverse]

theorem trimEnd_prefix (ps : List Piece) : trimEnd ps <+: ps := by
  have h := List.reverse_prefix.2 (List.dropWhile_suffix (·.component?.isNone) (l := ps.reverse))
  rwa [List.reverse_reverse] at h

/-! ## Spelling pieces -/

/-- The pieces of a path after its first are what they are inside another path. -/
theorem component?_of_mem_tail {piece : Piece} (h : piece ∈ p.pieces.tail) :
    piece.component? = innerComponent? piece.text := by
  unfold pieces at h
  split at h
  · cases h
  · obtain ⟨text, -, rfl⟩ := List.mem_map.1 h
    rfl

/-- The first piece of a path is the root only before a slash. -/
theorem component?_of_pieces_eq {piece : Piece} (h : p.pieces = piece :: rest) :
    piece.component? = leadingComponent? piece.text !rest.isEmpty := by
  unfold pieces at h
  split at h
  · cases h
  · obtain ⟨rfl, rfl⟩ := List.cons.inj h
    simp

/-- A component inside a path is the same at the start of one. -/
theorem leadingComponent?_of_inner {text : List Char} {c : Component}
    (h : innerComponent? text = some c) (beforeSlash : Bool) :
    leadingComponent? text beforeSlash = some c := by
  have htext : ¬ (text = [] ∨ text = ['.']) := by
    intro hnone
    unfold innerComponent? at h
    rw [if_pos hnone] at h
    cases h
  unfold leadingComponent?
  rw [if_neg fun he => htext (.inl he), if_neg fun he => htext (.inr he), h]

/-- A component at the start of a path stays, the root only before a slash. -/
theorem leadingComponent?_of_some {text : List Char} {c : Component} {before after : Bool}
    (h : leadingComponent? text before = some c) (hroot : c = .root → after = true) :
    leadingComponent? text after = some c := by
  by_cases htext : text = []
  · unfold leadingComponent? at h ⊢
    rw [if_pos htext] at h ⊢
    cases before with
    | false => cases h
    | true => rw [hroot (Option.some.inj h).symm]; exact h
  · rw [leadingComponent?_eq htext] at h ⊢
    exact h

/-- The components of a path that is spelled by its pieces. -/
theorem components_of_texts {piece : Piece}
    (htexts : Text.pieces '/' p.text.toList = (piece :: rest).map (·.text))
    (hpiece : piece.component? = leadingComponent? piece.text !rest.isEmpty)
    (hrest : ∀ inner ∈ rest, inner.component? = innerComponent? inner.text) :
    p.components = (piece :: rest).filterMap (·.component?) := by
  have hinner : (rest.map (·.text)).filterMap innerComponent? = rest.filterMap (·.component?) := by
    rw [List.filterMap_map]
    exact List.filterMap_congr fun inner hm => (hrest inner hm).symm
  rw [List.map_cons] at htexts
  rw [components_of_pieces htexts, hinner, List.isEmpty_map, ← hpiece, List.filterMap_cons]
  cases piece.component? <;> rfl

/-- **The components of what pieces from the middle of a path spell.** They start with a component,
so that none of them becomes the root or a dot that was none. -/
theorem components_ofPieces (hQ : Q <:+: p.pieces)
    (hhead : ∀ piece, Q.head? = some piece → piece.component? ≠ none) :
    (ofPieces Q).components = Q.filterMap (·.component?) := by
  cases Q with
  | nil => rfl
  | cons piece more =>
    by_cases hroot : ∃ t, piece :: more = [⟨t, some .root⟩]
    · obtain ⟨t, ht⟩ := hroot
      have hslash : (Path.mk "/").components = [.root] := by decide +kernel
      rw [ht]
      exact hslash
    have hroot : ∀ t, piece :: more ≠ [⟨t, some .root⟩] := fun t ht => hroot ⟨t, ht⟩
    obtain ⟨before, after, hpieces⟩ := hQ
    have hslash : ∀ text ∈ (piece :: more).map (·.text), '/' ∉ text := by
      intro text htext
      obtain ⟨inner, hm, rfl⟩ := List.mem_map.1 htext
      refine slash_notMem_text (List.prefix_refl p.pieces) ?_
      rw [← hpieces]
      exact List.mem_append_left _ (List.mem_append_right _ hm)
    have htexts : Text.pieces '/' (ofPieces (piece :: more)).text.toList =
        (piece :: more).map (·.text) := by
      rw [text_ofPieces hroot, String.toList_ofList]
      exact Text.pieces_intercalate (by simp) hslash
    have htail : ∀ inner ∈ more, inner ∈ p.pieces.tail := by
      intro inner hm
      rw [← hpieces]
      cases before <;> simp [hm]
    refine components_of_texts htexts ?_ fun inner hm => component?_of_mem_tail (htail inner hm)
    obtain ⟨c, hc⟩ := Option.ne_none_iff_exists'.1 (hhead piece rfl)
    rw [hc]
    symm
    cases before with
    | nil =>
      -- the first piece of the path is spelled first, too
      refine leadingComponent?_of_some ((component?_of_pieces_eq hpieces.symm).symm.trans hc) ?_
      rintro rfl
      cases more with
      | nil => exact absurd (by rw [← hc]) (hroot piece.text)
      | cons inner others => rfl
    | cons first others =>
      have hinner : piece ∈ p.pieces.tail := by
        rw [← hpieces]
        simp
      exact leadingComponent?_of_inner ((component?_of_mem_tail hinner).symm.trans hc) _

/-! ## Paths behind a base -/

/-- What is left of a path stood behind components of the base. -/
theorem components_of_stripPrefix? (h : p.stripPrefix? base = some q) :
    p.components = base.components ++ q.components := by
  obtain ⟨rest, hdrop, rfl⟩ := Option.map_eq_some_iff.1 h
  obtain ⟨used, hpieces, hused⟩ := dropComponents?_eq_some hdrop
  have hkept : trimEnd (rest.dropWhile (·.component?.isNone)) <+: _ := trimEnd_prefix _
  have hinfix : trimEnd (rest.dropWhile (·.component?.isNone)) <:+: p.pieces :=
    (hkept.isInfix.trans (List.dropWhile_suffix _).isInfix).trans
      (hpieces ▸ List.suffix_append used rest).isInfix
  have hhead : ∀ piece, (trimEnd (rest.dropWhile (·.component?.isNone))).head? = some piece →
      piece.component? ≠ none := by
    intro piece hpiece hnone
    have hfirst : (rest.dropWhile (·.component?.isNone)).head? = some piece := by
      obtain ⟨after, hafter⟩ := hkept
      rw [← hafter, List.head?_append, hpiece]
      rfl
    have hnot := List.head?_dropWhile_not (·.component?.isNone) rest
    rw [hfirst] at hnot
    simp [hnone] at hnot
  rw [components_ofPieces hinfix hhead, filterMap_trimEnd, filterMap_dropWhile]
  unfold components
  rw [hpieces, List.filterMap_append, hused]
  rfl

/-- **A path that goes on from a base has the rest behind it.** -/
theorem exists_stripPrefix? :
    (∃ q, p.stripPrefix? base = some q ∧ q.components = cs) ↔
      p.components = base.components ++ cs := by
  constructor
  · rintro ⟨q, hq, rfl⟩
    exact components_of_stripPrefix? hq
  · intro h
    obtain ⟨rest, hrest⟩ : ∃ rest, dropComponents? base.components p.pieces = some rest :=
      exists_dropComponents? h
    have hq : p.stripPrefix? base = some _ := congrArg (Option.map _) hrest
    refine ⟨_, hq, ?_⟩
    exact List.append_cancel_left ((components_of_stripPrefix? hq).symm.trans h)

/-- Steps hold no dot. -/
theorem steps_of_components_eq_steps (h : q.components = p.steps) : q.steps = p.steps := by
  unfold steps at h ⊢
  rw [h, List.filter_filter]
  exact List.filter_congr fun c _ => Bool.and_self _

/-- **What was joined behind a base is found there again:** it is relative, and joined to the base
it is the same path. -/
theorem exists_stripPrefix?_join (base : Path) (hpart : part.isAbsolute = false) :
    ∃ q, (base.join part).stripPrefix? base = some q ∧ q.isAbsolute = false ∧
      (base.join q).same (base.join part) = true := by
  by_cases hempty : base.text = ""
  · have hbase : base.components = [] := by
      obtain ⟨text⟩ := base
      rw [show text = "" from hempty]
      rfl
    rw [join_of_empty hempty]
    have hgoesOn : part.components = base.components ++ part.components := by
      rw [hbase, List.nil_append]
    obtain ⟨q, hq, hcomponents⟩ := exists_stripPrefix?.2 hgoesOn
    refine ⟨q, hq, ?_, ?_⟩
    · rw [isAbsolute_eq_false_iff, hcomponents, ← isAbsolute_eq_false_iff]
      exact hpart
    · rw [join_of_empty hempty, same_iff]
      exact hcomponents
  · have hjoin : (base.join part).components = base.components ++ part.steps :=
      components_join_eq_steps hpart hempty
    obtain ⟨q, hq, hcomponents⟩ := exists_stripPrefix?.2 hjoin
    have hrelative : q.isAbsolute = false := by
      rw [isAbsolute_eq_false_iff, hcomponents]
      exact root_notMem_steps hpart
    refine ⟨q, hq, hrelative, ?_⟩
    rw [same_iff, hjoin, components_join_eq_steps hrelative hempty,
      steps_of_components_eq_steps hcomponents]

end Path

end SwiftBindings
