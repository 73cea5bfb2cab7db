import Mathlib.Tactic.Common
import SwiftBindings.Path.Basic

/-!
# Paths above a path

The paths above a path are spelled by the pieces that it starts with, so what is above one of them
is above the path too.

* `pieces_ofPieces`: the pieces that a path starts with are those of the path that they spell.
* `prefix_text_ofPieces`: such a path is the beginning of the text.
* `ancestors_of_parent?`: **what is above the parent** is what is above the path.
* `isAbsolute_of_mem_ancestors`: nothing above a relative path is absolute.
-/

namespace SwiftBindings

/-- Joining the first of some pieces gives the beginning of what all give. -/
theorem Text.prefix_intercalate {sep : List Char} {ps qs : List (List Char)} (h : ps <+: qs) :
    sep.intercalate ps <+: sep.intercalate qs := by
  obtain ⟨rs, rfl⟩ := h
  induction ps with
  | nil => exact ⟨_, rfl⟩
  | cons p rest ih =>
    cases rest with
    | nil =>
      cases rs with
      | nil => exact List.prefix_rfl
      | cons r more => simp [List.append_assoc]
    | cons q more =>
      simp only [List.cons_append, List.intercalate_cons_cons]
      exact (List.prefix_append_right_inj _).2 ih

namespace Path

variable {p dir : Path} {Q rev : List Piece}

theorem map_text_pieces (p : Path) : p.pieces.map (·.text) = Text.pieces '/' p.text.toList := by
  unfold pieces
  cases h : Text.pieces '/' p.text.toList with
  | nil => rfl
  | cons first rest => simp [Function.comp_def]

theorem prefix_map_text (h : Q <+: p.pieces) : Q.map (·.text) <+: Text.pieces '/' p.text.toList := by
  rw [← map_text_pieces]; exact h.map _

theorem slash_notMem_text (h : Q <+: p.pieces) {piece : Piece} (hp : piece ∈ Q) :
    '/' ∉ piece.text := by
  have hm : piece.text ∈ p.pieces.map (·.text) := List.mem_map_of_mem (h.subset hp)
  rw [map_text_pieces] at hm
  exact Text.not_mem_of_mem_pieces hm

/-- Pieces that are not the root alone spell their texts. -/
theorem text_ofPieces (h : ∀ t, Q ≠ [⟨t, some .root⟩]) :
    (ofPieces Q).text = String.ofList (['/'].intercalate (Q.map (·.text))) := by
  unfold ofPieces
  split
  · exact absurd rfl (h _)
  · rfl

/-- A path above is the beginning of the text. -/
theorem prefix_text_ofPieces (hQ : Q <+: p.pieces) (h : ∀ t, Q ≠ [⟨t, some .root⟩]) :
    (ofPieces Q).text.toList <+: p.text.toList := by
  rw [text_ofPieces h, String.toList_ofList]
  conv_rhs => rw [← Text.intercalate_pieces '/' p.text.toList]
  exact Text.prefix_intercalate (prefix_map_text hQ)

theorem texts_ofPieces (hQ : Q <+: p.pieces) (hne : Q ≠ []) (h : ∀ t, Q ≠ [⟨t, some .root⟩]) :
    Text.pieces '/' (ofPieces Q).text.toList = Q.map (·.text) := by
  rw [text_ofPieces h, String.toList_ofList]
  refine Text.pieces_intercalate (by simpa using hne) fun t ht => ?_
  obtain ⟨piece, hp, rfl⟩ := List.mem_map.1 ht
  exact slash_notMem_text hQ hp

/-- **The pieces that a path starts with** are those of the path that they spell. -/
theorem pieces_ofPieces (hQ : Q <+: p.pieces) (hne : Q ≠ []) (h : ∀ t, Q ≠ [⟨t, some .root⟩]) :
    (ofPieces Q).pieces = Q := by
  obtain ⟨first, more, rfl⟩ := List.exists_cons_of_ne_nil hne
  have ht := texts_ofPieces hQ hne h
  obtain ⟨tail, htail⟩ := hQ
  unfold pieces at htail ⊢
  rw [ht]
  cases hp : Text.pieces '/' p.text.toList with
  | nil => exact absurd hp (Text.pieces_ne_nil _ _)
  | cons t rest =>
    simp only [hp, List.cons_append, List.cons.injEq] at htail
    obtain ⟨rfl, hrest⟩ := htail
    have hmore : (more.map (·.text)).map (fun text => Piece.mk text (innerComponent? text)) = more := by
      have hinner : ∀ piece ∈ more, Piece.mk piece.text (innerComponent? piece.text) = piece := by
        intro piece hm
        have : piece ∈ rest.map fun text => Piece.mk text (innerComponent? text) := by
          rw [← hrest]; exact List.mem_append_left _ hm
        obtain ⟨text, -, rfl⟩ := List.mem_map.1 this
        rfl
      rw [List.map_map]
      exact (List.map_congr_left hinner).trans (List.map_id _)
    simp only [List.map_cons, hmore, List.cons.injEq, Piece.mk.injEq, true_and, and_true]
    cases more with
    | cons piece more =>
      have : rest.isEmpty = false := by cases rest <;> simp_all
      rw [this]; rfl
    | nil =>
      -- the root alone is left out, and any other piece is the same before a slash
      unfold leadingComponent?
      split
      · rename_i ht
        cases hr : rest.isEmpty with
        | true => simp
        | false => exact absurd (by simp [leadingComponent?, ht, hr]) (h t)
      · rfl

theorem innerComponent?_ne_root (text : List Char) : innerComponent? text ≠ some .root := by
  unfold innerComponent?
  split
  · simp
  split <;> simp

/-- A piece that is no component stays where it is. -/
theorem text_of_component?_eq_none {piece : Piece} (hm : piece ∈ p.pieces)
    (hc : piece.component? = none) : piece.text = [] ∨ piece.text = ['.'] := by
  have hinner : ∀ text, innerComponent? text = none → text = [] ∨ text = ['.'] := by
    intro text h
    unfold innerComponent? at h
    split at h
    · assumption
    split at h <;> simp at h
  unfold pieces at hm
  split at hm
  · simp at hm
  · rename_i first rest _
    rcases List.mem_cons.1 hm with rfl | hm
    · simp only [leadingComponent?] at hc
      split at hc
      · rename_i h; exact .inl h
      split at hc
      · simp at hc
      · exact hinner _ hc
    · obtain ⟨text, -, rfl⟩ := List.mem_map.1 hm
      exact hinner _ hc

/-- Only the first piece can be the root. It is empty, and the path is absolute. -/
theorem eq_nil_of_root {piece : Piece} {rest : List Piece}
    (h : (piece :: rest).reverse <+: p.pieces) (hc : piece.component? = some .root) :
    rest = [] ∧ piece.text = [] ∧ p.isAbsolute = true := by
  obtain ⟨tail, ht⟩ := h
  rw [List.reverse_cons] at ht
  unfold pieces at ht
  cases hp : Text.pieces '/' p.text.toList with
  | nil => exact absurd hp (Text.pieces_ne_nil _ _)
  | cons first more =>
    simp only [hp] at ht
    cases hr : rest.reverse with
    | nil =>
      simp only [hr, List.nil_append, List.cons_append, List.cons.injEq] at ht
      rw [ht.1] at hc ⊢
      simp only [leadingComponent?] at hc
      split at hc
      · rename_i hf
        subst hf
        refine ⟨by simpa using hr, rfl, ?_⟩
        have hmore : more ≠ [] := by
          rintro rfl
          simp at hc
        have htext := Text.intercalate_pieces '/' p.text.toList
        rw [hp, List.intercalate_cons_of_ne_nil hmore] at htext
        unfold isAbsolute
        rw [← htext]
        rfl
      split at hc
      · simp at hc
      · exact absurd hc (innerComponent?_ne_root _)
    | cons q qs =>
      simp only [hr, List.cons_append, List.cons.injEq] at ht
      have hm : piece ∈ more.map fun text => Piece.mk text (innerComponent? text) := by
        rw [← ht.2]; simp
      obtain ⟨text, -, rfl⟩ := List.mem_map.1 hm
      exact absurd hc (innerComponent?_ne_root _)

/-- A path above that is not empty starts where the path starts. -/
theorem isAbsolute_ofPieces (hQ : Q <+: p.pieces) (h : ∀ t, Q ≠ [⟨t, some .root⟩])
    (hne : (ofPieces Q).text ≠ "") : (ofPieces Q).isAbsolute = p.isAbsolute := by
  obtain ⟨tail, ht⟩ := prefix_text_ofPieces hQ h
  have hl : (ofPieces Q).text.toList ≠ [] := by simpa using hne
  obtain ⟨c, cs, hc⟩ := List.exists_cons_of_ne_nil hl
  unfold isAbsolute
  rw [← ht, hc]
  rfl

/-! ## Ancestors -/

theorem ancestorsOf_ne_nil (rev : List Piece) : ancestorsOf rev ≠ [] := by
  induction rev with
  | nil => simp [ancestorsOf]
  | cons piece rest ih =>
    unfold ancestorsOf
    split
    · exact ih
    · simp
    · simp

theorem ancestorsOf_cons_none {piece : Piece} (h : piece.component? = none) (rest : List Piece) :
    ancestorsOf (piece :: rest) = ancestorsOf rest := by
  rw [ancestorsOf, h]

theorem ancestorsOf_cons_root {piece : Piece} (h : piece.component? = some .root)
    (rest : List Piece) : ancestorsOf (piece :: rest) = [⟨"/"⟩] := by
  rw [ancestorsOf, h]

theorem ancestorsOf_cons_some {piece : Piece} {c : Component} (h : piece.component? = some c)
    (hc : c ≠ .root) (rest : List Piece) :
    ancestorsOf (piece :: rest) = ofPieces (piece :: rest).reverse :: ancestorsOf rest := by
  rw [ancestorsOf, h]
  cases c <;> first | rfl | exact absurd rfl hc

/-- Pieces that end with a component other than the root are not the root alone. -/
theorem reverse_ne_root {piece : Piece} {c : Component} (h : piece.component? = some c)
    (hc : c ≠ .root) (rest : List Piece) (t : List Char) :
    (piece :: rest).reverse ≠ [⟨t, some .root⟩] := by
  intro he
  have he' := congrArg List.reverse he
  rw [List.reverse_reverse, List.reverse_singleton, List.cons.injEq] at he'
  rw [he'.1] at h
  exact hc (Option.some.inj h).symm

theorem reverse_prefix_of_cons {piece : Piece} {rest : List Piece}
    (h : (piece :: rest).reverse <+: p.pieces) : rest.reverse <+: p.pieces := by
  rw [List.reverse_cons] at h
  exact (List.prefix_append _ _).trans h

/-- **What is above a path above** a path is found among what is above the path. -/
theorem ancestors_of_head? (h : rev.reverse <+: p.pieces)
    (hd : (ancestorsOf rev).head? = some dir) : dir.ancestors = ancestorsOf rev := by
  induction rev with
  | nil =>
    have : dir = ⟨""⟩ := by simpa [ancestorsOf, eq_comm] using hd
    rw [this]; rfl
  | cons piece rest ih =>
    cases hc : piece.component? with
    | none =>
      rw [ancestorsOf_cons_none hc] at hd ⊢
      exact ih (reverse_prefix_of_cons h) hd
    | some c =>
      by_cases hr : c = .root
      · subst hr
        rw [ancestorsOf_cons_root hc] at hd ⊢
        have : dir = ⟨"/"⟩ := by simpa [eq_comm] using hd
        rw [this]; rfl
      · have hd' : dir = ofPieces (piece :: rest).reverse := by
          rw [ancestorsOf_cons_some hc hr] at hd
          simpa [eq_comm] using hd
        rw [hd', ancestors, pieces_ofPieces h (by simp) (reverse_ne_root hc hr rest),
          List.reverse_reverse]

/-- The path spelled by pieces that end with a component other than the root is not empty. -/
theorem text_ofPieces_ne_empty {piece : Piece} {rest : List Piece} {c : Component}
    (h : (piece :: rest).reverse <+: p.pieces) (hc : piece.component? = some c) (hr : c ≠ .root) :
    (ofPieces (piece :: rest).reverse).text ≠ "" := by
  intro he
  have hp := pieces_ofPieces h (by simp) (reverse_ne_root hc hr rest)
  have hempty : (ofPieces (piece :: rest).reverse).pieces = [⟨[], none⟩] := by
    unfold pieces
    rw [he]
    rfl
  rw [hempty] at hp
  have hp' := congrArg List.reverse hp
  rw [List.reverse_reverse, List.reverse_singleton, List.cons.injEq] at hp'
  rw [← hp'.1] at hc
  simp at hc

/-- **What is above the parent** is what is above the path. -/
theorem ancestors_of_parent? (h : p.parent? = some dir) : dir.ancestors = p.ancestors.tail := by
  have hrev : ∀ rev : List Piece, rev.reverse <+: p.pieces →
      (ancestorsOf rev).tail.head? = some dir → dir.ancestors = (ancestorsOf rev).tail := by
    intro rev
    induction rev with
    | nil => intro _ hd; simp [ancestorsOf] at hd
    | cons piece rest ih =>
      intro hpre hd
      cases hc : piece.component? with
      | none =>
        rw [ancestorsOf_cons_none hc] at hd ⊢
        exact ih (reverse_prefix_of_cons hpre) hd
      | some c =>
        by_cases hr : c = .root
        · subst hr
          rw [ancestorsOf_cons_root hc] at hd
          simp at hd
        · rw [ancestorsOf_cons_some hc hr] at hd ⊢
          exact ancestors_of_head? (reverse_prefix_of_cons hpre) hd
  exact hrev p.pieces.reverse (by simp) h

/-- A path that ends with a component other than the root has a parent, and above that is what its
other pieces lead to. -/
theorem exists_parent? {piece : Piece} {rest : List Piece} {c : Component}
    (hrev : p.pieces.reverse = piece :: rest) (hc : piece.component? = some c) (hr : c ≠ .root) :
    ∃ dir, p.parent? = some dir ∧ dir.ancestors = ancestorsOf rest := by
  have htail : p.ancestors.tail = ancestorsOf rest := by
    unfold ancestors
    rw [hrev, ancestorsOf_cons_some hc hr]
    rfl
  obtain ⟨dir, more, hm⟩ := List.exists_cons_of_ne_nil (ancestorsOf_ne_nil rest)
  have hdir : p.parent? = some dir := by
    unfold parent?
    rw [htail, hm]
    rfl
  exact ⟨dir, hdir, by rw [ancestors_of_parent? hdir, htail]⟩

theorem pieces_ne_nil (p : Path) : p.pieces ≠ [] := by
  intro h
  have := map_text_pieces p
  rw [h] at this
  exact Text.pieces_ne_nil _ _ this.symm

/-- Nothing above a relative path is absolute. -/
theorem isAbsolute_of_mem_ancestors (hp : p.isAbsolute = false) {q : Path} (hq : q ∈ p.ancestors) :
    q.isAbsolute = false := by
  have hrev : ∀ rev : List Piece, rev.reverse <+: p.pieces → q ∈ ancestorsOf rev →
      q.isAbsolute = false := by
    intro rev
    induction rev with
    | nil =>
      intro _ hm
      rw [List.mem_singleton.1 hm]
      rfl
    | cons piece rest ih =>
      intro hpre hm
      cases hc : piece.component? with
      | none =>
        rw [ancestorsOf_cons_none hc] at hm
        exact ih (reverse_prefix_of_cons hpre) hm
      | some c =>
        by_cases hr : c = .root
        · subst hr
          have := (eq_nil_of_root hpre hc).2.2
          rw [hp] at this
          simp at this
        · rw [ancestorsOf_cons_some hc hr] at hm
          rcases List.mem_cons.1 hm with rfl | hm
          · rw [isAbsolute_ofPieces hpre (reverse_ne_root hc hr rest)
              (text_ofPieces_ne_empty hpre hc hr), hp]
          · exact ih (reverse_prefix_of_cons hpre) hm
  exact hrev p.pieces.reverse (by simp) hq

end Path

end SwiftBindings
