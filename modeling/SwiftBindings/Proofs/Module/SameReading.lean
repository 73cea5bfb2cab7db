import Mathlib.Data.List.Basic
import SwiftBindings.Proofs.Module.Edits

/-!
# What edits do not change

A module is read from its document by readings of its parts, and each of these is the same after an
edit of what it reads. So the order of members and members that are not known change neither whether
a document is read nor what it is read as.

* `Steady`: a reading that edits do not change.
* `Kind.ofJson?_of_edit`, `Declaration.ofJson?_steady`: a declaration is read the same by any kind.
* `Module.ofJson?_steady`: **a module is read the same after an edit.**
* `Module.parse?_of_edits`: **no edits change what a text is read as.**
-/

namespace SwiftBindings

open Json

variable {α : Type} {r : Role} {depth : Nat} {v w : Value} {ms ms' : List (Literal × Value)}
  {name : String}

/-! ## Readings -/

/-- Whether a value that stands for `r` is read the same after an edit. -/
def Steady (r : Role) (depth : Nat) (read : Value → α) : Prop :=
  ∀ v w, Edit r depth v w → read w = read v

/-- What reads neither objects nor arrays. -/
theorem steady_of_scalar {read? : Value → Option α} (hobject : ∀ ms, read? (.object ms) = none)
    (harray : ∀ items, read? (.array items) = none) (r : Role) (depth : Nat) :
    Steady r depth read? := by
  intro v w h
  cases h with
  | permute | add | member => rw [hobject, hobject]
  | item => rw [harray, harray]

namespace Json

theorem text?_steady (r : Role) (depth : Nat) : Steady r depth text? :=
  steady_of_scalar (fun _ => rfl) (fun _ => rfl) r depth

theorem optionalText?_steady (r : Role) (depth : Nat) : Steady r depth optionalText? :=
  steady_of_scalar (fun _ => rfl) (fun _ => rfl) r depth

/-- A list is read the same if its items are. -/
theorem list?_steady {item? : Value → Option α}
    (hitem : ∀ position, Steady (r.ofItem position) (depth - 1) item?) :
    Steady r depth (list? item?) := by
  intro v w h
  cases h with
  | permute | add | member => rfl
  | item before after h =>
    unfold list?
    simp only [List.mapM_append, List.mapM_cons, hitem _ _ _ h]

section Members

variable {v? w? : Option Value}

theorem required?_alike {read? : Value → Option α} (hread : Steady r depth read?)
    (h : Alike r depth v? w?) : required? read? w? = required? read? v? := by
  cases h with
  | same => rfl
  | edited h => exact hread _ _ h

theorem defaulted?_alike {read? : Value → Option α} (hread : Steady r depth read?) (default : α)
    (h : Alike r depth v? w?) : defaulted? read? default w? = defaulted? read? default v? := by
  cases h with
  | same => rfl
  | edited h => exact hread _ _ h

end Members

end Json

/-! ## Parts -/

theorem Field.ofJson?_steady (depth : Nat) : Steady .field depth Field.ofJson? := by
  intro v w h
  have hslots := h.slots?_rel (by decide) (by decide) (rfl : _ = ["name", "type", "private"])
  have hbool : Steady .plain (depth - 1) bool? := steady_of_scalar (fun _ => rfl) (fun _ => rfl) _ _
  unfold Field.ofJson?
  generalize slots? _ v = vs? at hslots ⊢
  generalize slots? _ w = ws? at hslots ⊢
  rcases hslots with hslots | _
  · obtain _ | ⟨hname, _ | ⟨htype, _ | ⟨hprivate, _ | _⟩⟩⟩ := hslots
    simp only [required?_alike (text?_steady _ _) hname, required?_alike (text?_steady _ _) htype,
      defaulted?_alike hbool _ hprivate]
  · rfl

theorem Member.ofJson?_steady (depth : Nat) : Steady .member depth Member.ofJson? := by
  intro v w h
  have hslots := h.slots?_rel (by decide) (by decide) (rfl : _ = ["name", "value"])
  have hinteger : Steady .plain (depth - 1) integer? :=
    steady_of_scalar (fun _ => rfl) (fun _ => rfl) _ _
  unfold Member.ofJson?
  generalize slots? _ v = vs? at hslots ⊢
  generalize slots? _ w = ws? at hslots ⊢
  rcases hslots with hslots | _
  · obtain _ | ⟨hname, _ | ⟨hvalue, _ | _⟩⟩ := hslots
    simp only [required?_alike (text?_steady _ _) hname, required?_alike hinteger hvalue]
  · rfl

theorem Param.ofJson?_steady (depth : Nat) : Steady .param depth Param.ofJson? := by
  intro v w h
  have hslots := h.slots?_rel (by decide) (by decide) (rfl : _ = ["name", "type"])
  unfold Param.ofJson?
  generalize slots? _ v = vs? at hslots ⊢
  generalize slots? _ w = ws? at hslots ⊢
  rcases hslots with hslots | _
  · obtain _ | ⟨hname, _ | ⟨htype, _ | _⟩⟩ := hslots
    simp only [required?_alike (text?_steady _ _) hname, required?_alike (text?_steady _ _) htype]
  · rfl

theorem Signature.ofJson?_steady (depth : Nat) : Steady .signature depth Signature.ofJson? := by
  intro v w h
  have hslots := h.slots?_rel (by decide) (by decide) (rfl : _ = ["params", "returns"])
  have hparams : Steady .params (depth - 1) (list? Param.ofJson?) :=
    list?_steady fun _ => Param.ofJson?_steady _
  unfold Signature.ofJson?
  generalize slots? _ v = vs? at hslots ⊢
  generalize slots? _ w = ws? at hslots ⊢
  rcases hslots with hslots | _
  · obtain _ | ⟨hlist, _ | ⟨hreturns, _ | _⟩⟩ := hslots
    simp only [defaulted?_alike hparams _ hlist,
      defaulted?_alike (optionalText?_steady _ _) _ hreturns]
  · rfl

/-! ## Declarations -/

/-- **What is read of a known member** is the same after an edit. -/
theorem Edit.read_member (h : Edit r depth (.object ms) (.object ms')) (name : String)
    (hname : name ∈ r.known ms) {role : Role} (hrole : r.ofMember name = role)
    {read? : Option Value → Option α}
    (hread : ∀ v? w?, Alike role (depth - 1) v? w? → read? w? = read? v?) :
    (member? name ms').bind read? = (member? name ms).bind read? := by
  have hmember := h.member?_rel hname
  rw [hrole] at hmember
  generalize member? name ms = v? at hmember ⊢
  generalize member? name ms' = w? at hmember ⊢
  cases hmember with
  | none => rfl
  | some hvalue => exact hread _ _ hvalue

/-- Some members are known whatever the kind. -/
theorem Role.mem_known (h : name ∈ ["name", "display_name", "c_type", "kind"]) :
    name ∈ Role.declaration.known ms :=
  List.mem_append_left _ h

/-- An edit does not change the category. -/
theorem Edit.ofMembers? (h : Edit .declaration depth (.object ms) (.object ms')) :
    Category.ofMembers? ms' = Category.ofMembers? ms :=
  h.read_member "kind" (Role.mem_known (by decide)) rfl fun _ _ =>
    required?_alike (steady_of_scalar (fun _ => rfl) (fun _ => rfl) _ _)

/-- **What a kind adds** is the same after an edit. -/
theorem Kind.ofJson?_of_edit (h : Edit .declaration depth (.object ms) (.object ms')) {c : Category}
    (hc : Category.ofMembers? ms = some c) : Kind.ofJson? c ms' = Kind.ofJson? c ms := by
  have hknown : ∀ {name}, name ∈ c.memberNames → name ∈ Role.declaration.known ms := by
    intro name hname
    unfold Role.known
    rw [hc]
    exact List.mem_append_right _ hname
  have hfields : Steady .fields (depth - 1) (list? Field.ofJson?) :=
    list?_steady fun _ => Field.ofJson?_steady _
  have hmembers : Steady .members (depth - 1) (list? Member.ofJson?) :=
    list?_steady fun _ => Member.ofJson?_steady _
  have htexts : Steady .plain (depth - 1) (list? text?) := list?_steady fun _ => text?_steady _ _
  cases c <;> simp only [Kind.ofJson?, Option.bind_eq_bind, ← Option.bind_assoc]
  case «alias» =>
    rw [h.read_member "target" (hknown (by decide)) rfl fun _ _ =>
      required?_alike (text?_steady _ _)]
  case callback | function =>
    rw [h.read_member "signature" (hknown (by decide)) rfl fun _ _ =>
      defaulted?_alike (Signature.ofJson?_steady _) _]
  case constant =>
    rw [h.read_member "type" (hknown (by decide)) rfl fun _ _ =>
        required?_alike (text?_steady _ _),
      h.read_member "value" (hknown (by decide)) rfl fun _ _ =>
        required?_alike (text?_steady _ _)]
  case enumeration | bitfield =>
    rw [h.read_member "members" (hknown (by decide)) rfl fun _ _ => defaulted?_alike hmembers _]
  case union | record =>
    rw [h.read_member "fields" (hknown (by decide)) rfl fun _ _ => defaulted?_alike hfields _]
  case interface =>
    rw [h.read_member "prerequisites" (hknown (by decide)) rfl fun _ _ =>
      defaulted?_alike htexts _]
  case class_ =>
    rw [h.read_member "parent" (hknown (by decide)) rfl fun _ _ =>
        defaulted?_alike (optionalText?_steady _ _) _,
      h.read_member "fields" (hknown (by decide)) rfl fun _ _ => defaulted?_alike hfields _]

/-- **A declaration is read the same after an edit.** -/
theorem Declaration.ofJson?_steady :
    Steady .declaration Declaration.depthLimit Declaration.ofJson? := by
  have hobject : ∀ {ms ms'}, Edit .declaration Declaration.depthLimit (.object ms) (.object ms') →
      Declaration.ofJson? (.object ms') = Declaration.ofJson? (.object ms) := by
    intro ms ms' h
    have hname : (member? "name" ms').bind (required? text?) =
        (member? "name" ms).bind (required? text?) :=
      h.read_member "name" (Role.mem_known (by decide)) rfl fun _ _ =>
        required?_alike (text?_steady _ _)
    have hoptional : ∀ name ∈ ["display_name", "c_type"],
        (member? name ms').bind (defaulted? optionalText? none) =
          (member? name ms).bind (defaulted? optionalText? none) := by
      intro name hmem
      have hknown := List.mem_cons_of_mem "name" (List.mem_append_left ["kind"] hmem)
      exact h.read_member name (Role.mem_known hknown) rfl fun _ _ =>
        defaulted?_alike (optionalText?_steady _ _) _
    have hcategory := h.ofMembers?
    unfold Category.ofMembers? at hcategory
    unfold Declaration.ofJson?
    simp only [h.isReadable_iff (Nat.le_refl _), Option.bind_eq_bind, ← Option.bind_assoc, hcategory]
    split
    · -- without a category nothing else is read
      cases hc : (member? "kind" ms).bind (required? Category.ofJson?) with
      | none => rfl
      | some c =>
        simp only [Option.bind_some, hname, hoptional "display_name" (by decide),
          hoptional "c_type" (by decide), Kind.ofJson?_of_edit h hc]
    · rfl
  intro v w h
  cases h with
  | permute h => exact hobject (.permute h)
  | add name v hpart hname hv => exact hobject (.add name v hpart hname hv)
  | member before name after h => exact hobject (.member before name after h)
  | item before after h => simp only [Declaration.ofJson?, ite_self]

/-! ## Modules -/

/-- An edit does not change whether the names of members are texts. -/
theorem Edit.namesReadable (h : Edit r depth v w) :
    Module.namesReadable w = Module.namesReadable v := by
  cases h with
  | permute h => exact h.all_eq.symm
  | add => rfl
  | member => simp only [Module.namesReadable, List.all_append, List.all_cons]
  | item => rfl

/-- **A module is read the same after an edit.** -/
theorem Module.ofJson?_steady : Steady .module Module.depthLimit Module.ofJson? := by
  intro v w h
  have hslots := h.slots?_rel (by decide) (by decide)
    (rfl : _ = ["namespace", "boilerplate", "declarations"])
  have hdeclarations : Steady .declarations (Module.depthLimit - 1) (list? Declaration.ofJson?) :=
    list?_steady fun _ => Declaration.ofJson?_steady
  unfold Module.ofJson?
  rw [h.namesReadable]
  generalize slots? _ v = vs? at hslots ⊢
  generalize slots? _ w = ws? at hslots ⊢
  rcases hslots with hslots | _
  · obtain _ | ⟨hname, _ | ⟨hboilerplate, _ | ⟨hlist, _ | _⟩⟩⟩ := hslots
    simp only [defaulted?_alike (text?_steady _ _) _ hname,
      defaulted?_alike (text?_steady _ _) _ hboilerplate, defaulted?_alike hdeclarations _ hlist]
  · rfl

/-- The run of the step: edits one after another. -/
theorem Module.ofJson?_of_edits (h : Edits .module Module.depthLimit v w) : Module.ofJson? w = Module.ofJson? v := by
  induction h with
  | refl => rfl
  | tail _ hlast ih => exact (Module.ofJson?_steady _ _ hlast).trans ih

/-- **No edits change what a text is read as:** whether it is read at all, and as which module. -/
theorem Module.parse?_of_edits {before after : String} (hbefore : Json.parse before = some v)
    (hafter : Json.parse after = some w) (h : Edits .module Module.depthLimit v w) :
    Module.parse? after = Module.parse? before := by
  unfold Module.parse?
  rw [hbefore, hafter]
  exact Module.ofJson?_of_edits h

/-- A record whose kind is told first. -/
def quill : Value := .object [(some "kind", .string "record"), (some "name", .string "Quill"),
  (some "fields", .array [.object [(some "name", .string "tip"), (some "type", .string "int")]])]

/-- The record with its kind told last, a note in its field, and a member of an alias. -/
def quillAnnotated : Value := .object [(some "target", .array []),
  (some "fields", .array [.object [(some "note", .null), (some "type", .string "int"),
    (some "name", .string "tip")]]), (some "name", .string "Quill"), (some "kind", .string "record")]

theorem quill_edits : Edits .declaration Declaration.depthLimit quill quillAnnotated := by
  have hfield : Edits .field (Declaration.depthLimit - 1 - 1)
      (.object [(some "name", .string "tip"), (some "type", .string "int")])
      (.object [(some "note", .null), (some "type", .string "int"), (some "name", .string "tip")]) := by
    refine .head (.permute (List.reverse_perm _).symm) (.single ?_)
    refine .add "note" .null (by decide) (by decide) fun _ => ?_
    rw [Value.isReadable]
  refine .trans (Edits.member [_, _] _ [] (.item [] [] hfield)) ?_
  refine .head (.permute (List.reverse_perm _).symm) (.single ?_)
  refine .add "target" (.array []) (by decide) (by decide +kernel) fun _ => ?_
  simp [Json.isReadable_array_iff, Declaration.depthLimit]

/-- A document with the record. -/
def quillText : String :=
  "\x7b\"declarations\":[\x7b\"kind\":\"record\",\"name\":\"Quill\"," ++
    "\"fields\":[\x7b\"name\":\"tip\",\"type\":\"int\"\x7d]\x7d]\x7d"

/-- A document with the annotated record, and with a number that is out of range. -/
def annotatedText : String :=
  "\x7b\"edition\":1e999,\"declarations\":[\x7b\"target\":[]," ++
    "\"fields\":[\x7b\"note\":null,\"type\":\"int\",\"name\":\"tip\"\x7d]," ++
    "\"name\":\"Quill\",\"kind\":\"record\"\x7d]\x7d"

theorem Module.parse?_of_edits_quill :
    Module.parse? annotatedText = Module.parse? quillText ∧
      Module.parse? quillText =
        some ⟨"", "", [⟨"Quill", none, none, .record [⟨"tip", "int", false⟩]⟩]⟩ := by
  have hbefore : Json.parse quillText =
      some (.object [(some "declarations", .array [quill])]) := by
    cbv
  have hafter : Json.parse annotatedText =
      some (.object [(some "edition", .number ⟨false, 1, none, some 999⟩),
        (some "declarations", .array [quillAnnotated])]) := by
    cbv
  have hedits : Edits .module Module.depthLimit (.object [(some "declarations", .array [quill])])
      (.object [(some "edition", .number ⟨false, 1, none, some 999⟩),
        (some "declarations", .array [quillAnnotated])]) := by
    refine .tail (Edits.member [] _ [] (.item [] [] quill_edits)) ?_
    exact .add "edition" _ (by decide) (by decide) fun h => absurd h (by decide)
  refine ⟨Module.parse?_of_edits hbefore hafter hedits, ?_⟩
  unfold Module.parse?
  rw [hbefore]
  decide +kernel

end SwiftBindings
