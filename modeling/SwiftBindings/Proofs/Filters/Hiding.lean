import Mathlib.Data.List.Forall2
import SwiftBindings.Filters.Selection
import SwiftBindings.Proofs.Registry.Lookup

/-!
# Modules that differ in hidden declarations

Two modules may be the same but for what their hidden declarations say: these keep their places,
names and categories, and the fields of hidden classes stay as well, since private records are told
by them. If the hidden names are those on the blacklist, the same is selected from both.

* `Declaration.SameBut`, `Module.SameBut`: the same, but for what is hidden.
* `Module.SameBut.isPrivateRecord_eq`: the same records are private.
* `Module.SameBut.select_eq`: **the same is selected, and as much is left out.**
* `Module.SameBut.isSome_knownIn?_preload`: the same names are known, in the same tables.
-/

namespace SwiftBindings

/-- Two declarations with one name and one category; if they are classes, also with the same
fields. -/
structure Declaration.SameOutline (d d' : Declaration) : Prop where
  name : d'.name = d.name
  category : d'.category = d.category
  fields : d.category = .class_ → d'.fields = d.fields

/-- Two declarations that are the same, or have a hidden name and the same outline. -/
def Declaration.SameBut (hidden : String → Bool) (d d' : Declaration) : Prop :=
  d' = d ∨ hidden d.name = true ∧ d.SameOutline d'

/-- Two modules that are the same but for what their hidden declarations say. -/
structure Module.SameBut (hidden : String → Bool) (m m' : Module) : Prop where
  boilerplate : m'.boilerplate = m.boilerplate
  declarations : List.Forall₂ (Declaration.SameBut hidden) m.declarations m'.declarations

section Lists

variable {α : Type} {R : α → α → Prop} {p q : α → Bool} {l l' : List α}

/-- What is kept of two lists is the same if whatever is kept is. -/
theorem filter_eq_of_forall₂ (h : List.Forall₂ R l l') (hkeep : ∀ a b, R a b → q b = p a)
    (hsame : ∀ a b, R a b → p a = true → b = a) : l'.filter q = l.filter p := by
  induction h with
  | nil => rfl
  | cons hab _ ih =>
    rw [List.filter_cons, List.filter_cons, ih, hkeep _ _ hab]
    split
    · rename_i hp
      rw [hsame _ _ hab hp]
    · rfl

theorem length_filter_of_forall₂ (h : List.Forall₂ R l l') (hkeep : ∀ a b, R a b → q b = p a) :
    (l'.filter q).length = (l.filter p).length := by
  induction h with
  | nil => rfl
  | cons hab _ ih =>
    rw [List.filter_cons, List.filter_cons, hkeep _ _ hab]
    split <;> simp [ih]

theorem find?_of_forall₂ (h : List.Forall₂ R l l') (hkeep : ∀ a b, R a b → q b = p a) :
    Option.Rel R (l.find? p) (l'.find? q) := by
  induction h with
  | nil => exact .none
  | cons hab _ ih =>
    rw [List.find?_cons, List.find?_cons, hkeep _ _ hab]
    split
    · exact .some hab
    · exact ih

end Lists

theorem Declaration.SameBut.outline {hidden : String → Bool} {d d' : Declaration}
    (h : d.SameBut hidden d') : d.SameOutline d' := by
  rcases h with rfl | ⟨-, h⟩
  · exact ⟨rfl, rfl, fun _ => rfl⟩
  · exact h

namespace Module.SameBut

variable {hidden : String → Bool} {m m' : Module}

/-- The declarations of a category are the same but for what is hidden. -/
theorem of (h : m.SameBut hidden m') (c : Category) :
    List.Forall₂ (Declaration.SameBut hidden) (m.of c) (m'.of c) := by
  refine List.rel_filter (fun d d' hd => ?_) h.declarations
  show decide (d.category = c) = true ↔ decide (d'.category = c) = true
  rw [hd.outline.category]

/-- A class is found in both modules or in none, and has the same fields. -/
theorem fields_class? (h : m.SameBut hidden m') (name : String) :
    (m'.class? name).map (·.fields) = (m.class? name).map (·.fields) := by
  have hrel := find?_of_forall₂ (p := fun d => d.name = name) (q := fun d => d.name = name)
    (h.of .class_) fun d d' hd => by rw [hd.outline.name]
  unfold Module.class?
  generalize hfound : (m.of .class_).find? (fun d => d.name = name) = found at hrel ⊢
  generalize (m'.of .class_).find? (fun d => d.name = name) = found' at hrel ⊢
  cases hrel with
  | none => rfl
  | some hd =>
    have hclass := (List.mem_filter.1 (List.mem_of_find?_eq_some hfound)).2
    rw [Option.map_some, Option.map_some, hd.outline.fields (by simpa using hclass)]

/-- A record is private in both modules or in none. -/
theorem isPrivateRecord_eq (h : m.SameBut hidden m') {d d' : Declaration}
    (hname : d'.name = d.name) : isPrivateRecord d' m' = isPrivateRecord d m := by
  unfold isPrivateRecord
  rw [hname]
  cases ownerName? d.name with
  | none => rfl
  | some owner =>
    have hfields := h.fields_class? owner
    simp only
    generalize m.class? owner = found at hfields ⊢
    generalize m'.class? owner = found' at hfields ⊢
    cases found <;> cases found' <;> simp_all

/-- Of two declarations in one place, the same becomes. -/
theorem verdict_eq (h : m.SameBut hidden m') (f : Filters) (all : Bool) {d d' : Declaration}
    (hd : d.SameBut hidden d') : Verdict.of m' f all d' = Verdict.of m f all d := by
  unfold Verdict.of
  rw [hd.outline.name, hd.outline.category, h.isPrivateRecord_eq hd.outline.name]

/-- **The same is selected** from modules that are the same but for the blacklist, the same records
are elided, and as many declarations are blacklisted. -/
theorem select_eq {f : Filters} (h : m.SameBut f.isBlacklisted m') (c : Category) (all : Bool) :
    Selection.select m' c f all = Selection.select m c f all := by
  have hkeep : ∀ v d d', d.SameBut f.isBlacklisted d' →
      decide (Verdict.of m' f all d' = v) = decide (Verdict.of m f all d = v) := by
    intro v d d' hd
    rw [h.verdict_eq f all hd]
  -- a declaration that differs is on the blacklist
  have hsame : ∀ v ≠ Verdict.blacklisted, ∀ d d', d.SameBut f.isBlacklisted d' →
      decide (Verdict.of m f all d = v) = true → d' = d := by
    rintro v hv d d' (rfl | ⟨hblacklisted, -⟩) hd
    · rfl
    · have hverdict : Verdict.of m f all d = .blacklisted := if_pos hblacklisted
      exact absurd ((of_decide_eq_true hd).symm.trans hverdict) hv
  unfold Selection.select
  simp only
  rw [filter_eq_of_forall₂ (h.of c) (hkeep .selected) (hsame .selected (by decide)),
    filter_eq_of_forall₂ (h.of c) (hkeep .elided) (hsame .elided (by decide)),
    length_filter_of_forall₂ (h.of c) (hkeep .blacklisted)]

/-- The names and categories of the declarations are the same. -/
theorem outlines_eq (h : m.SameBut hidden m') :
    m'.declarations.map (fun d => (d.name, d.category)) =
      m.declarations.map fun d => (d.name, d.category) := by
  have hds := h.declarations
  generalize m.declarations = ds at hds ⊢
  generalize m'.declarations = ds' at hds ⊢
  induction hds with
  | nil => rfl
  | cons hd _ ih => rw [List.map_cons, List.map_cons, ih, hd.outline.name, hd.outline.category]

theorem isSome_last? (h : m.SameBut hidden m') (among : Category → Bool) (name : String) :
    (m'.last? among name).isSome = (m.last? among name).isSome := by
  have hmap : ∀ m : Module, (m.last? among name).isSome ↔
      ∃ e ∈ m.declarations.map (fun d => (d.name, d.category)), e.1 = name ∧ among e.2 = true := by
    intro m
    rw [Module.isSome_last?]
    simp
  rw [Bool.eq_iff_iff, hmap, hmap, h.outlines_eq]

/-- **The same names are known** after either module has been registered. -/
theorem isSome_knownIn?_preload (h : m.SameBut hidden m') (r : Registry) (p : Registry.Part)
    (name : String) :
    ((r.preload m').knownIn? p name).isSome = ((r.preload m).knownIn? p name).isSome := by
  rw [Registry.knownIn?_preload, Registry.knownIn?_preload, Option.isSome_or, Option.isSome_or,
    Option.isSome_map, Option.isSome_map, h.isSome_last?]

end Module.SameBut

end SwiftBindings
