import Mathlib.Logic.Relation
import SwiftBindings.Proofs.Module.RoundTrip

/-!
# Edits of a document

The members of an object are found by name, so their order does not matter, and a part of a module
does not see members that it does not know. Which members a declaration knows is decided by its
kind, wherever among them that stands.

* `Role`: what a value of a document stands for, and so which of its members are known.
* `Edit`, `Edits`: changes of a document that should not matter, at any depth.
* `Edit.isReadable_iff`: **what is edited is read within the same limits.**
* `Edit.member?_rel`, `Edit.slots?_rel`: **known members are found again,** as they were or edited in
  turn.
-/

namespace SwiftBindings

open Json (Value Literal)

/-! ## Roles -/

/-- What a value of a document stands for. -/
inductive Role where
  | module
  | declarations
  | declaration
  | fields
  | field
  | members
  | member
  | signature
  | params
  | param
  /-- A text, a truth value or a number, or nothing that is known. -/
  | plain
  deriving DecidableEq, Inhabited

/-- The members that a declaration knows by its category. -/
def Category.memberNames : Category → List String
  | .alias => ["target"]
  | .callback | .function => ["signature"]
  | .constant => ["type", "value"]
  | .enumeration | .bitfield => ["members"]
  | .union | .record => ["fields"]
  | .interface => ["prerequisites"]
  | .class_ => ["parent", "fields"]

/-- The category of a declaration, by its members. -/
def Category.ofMembers? (ms : List (Literal × Value)) : Option Category :=
  (Json.member? "kind" ms).bind (Json.required? Category.ofJson?)

namespace Role

/-- The members that a part can have, and what they stand for. What has none is no part. -/
def slots : Role → List (String × Role)
  | .module => [("namespace", .plain), ("boilerplate", .plain), ("declarations", .declarations)]
  | .declaration =>
    [("name", .plain), ("display_name", .plain), ("c_type", .plain), ("kind", .plain),
      ("target", .plain), ("signature", .signature), ("type", .plain), ("value", .plain),
      ("members", .members), ("fields", .fields), ("prerequisites", .plain), ("parent", .plain)]
  | .field => [("name", .plain), ("type", .plain), ("private", .plain)]
  | .member => [("name", .plain), ("value", .plain)]
  | .signature => [("params", .params), ("returns", .plain)]
  | .param => [("name", .plain), ("type", .plain)]
  | .declarations | .fields | .members | .params | .plain => []

/-- The members that an object knows. A declaration knows those of its own kind, wherever among
them that stands. -/
def known (r : Role) (ms : List (Literal × Value)) : List String :=
  match r with
  | .declaration => ["name", "display_name", "c_type", "kind"] ++
      (Category.ofMembers? ms).elim [] Category.memberNames
  | _ => r.slots.map Prod.fst

/-- What a member of an object stands for. -/
def ofMember (r : Role) (name : Literal) : Role :=
  (name.bind fun text => r.slots.lookup text).getD .plain

/-- What an item of an array stands for: one of a list, or a member that is given by position. -/
def ofItem (r : Role) (position : Nat) : Role :=
  match r with
  | .declarations => .declaration
  | .fields => .field
  | .members => .member
  | .params => .param
  | _ => (r.slots[position]?.map Prod.snd).getD .plain

end Role

/-! ## Edits -/

/-- **One change of a document that should not matter,** in a value that stands for `r` and may be
nested `depth` deep: the members of an object in another order, a member that a part does not know,
or such a change further in. What a module does not know is passed over unread, but all that is in a
declaration is kept for a while, and has to be such that it can be. -/
inductive Edit : Role → Nat → Value → Value → Prop where
  | permute {r : Role} {depth : Nat} {ms ms' : List (Literal × Value)} (h : ms.Perm ms') :
      Edit r depth (.object ms) (.object ms')
  | add {r : Role} {depth : Nat} {ms : List (Literal × Value)} (name : String) (v : Value)
      (hpart : r.slots ≠ []) (hname : name ∉ r.known ms)
      (hv : depth ≤ Declaration.depthLimit → v.isReadable (depth - 1) = true) :
      Edit r depth (.object ms) (.object ((some name, v) :: ms))
  | member {r : Role} {depth : Nat} {v v' : Value} (before : List (Literal × Value))
      (name : Literal) (after : List (Literal × Value))
      (h : Edit (r.ofMember name) (depth - 1) v v') :
      Edit r depth (.object (before ++ (name, v) :: after)) (.object (before ++ (name, v') :: after))
  | item {r : Role} {depth : Nat} {v v' : Value} (before after : List Value)
      (h : Edit (r.ofItem before.length) (depth - 1) v v') :
      Edit r depth (.array (before ++ v :: after)) (.array (before ++ v' :: after))

/-- Edits one after another. -/
abbrev Edits (r : Role) (depth : Nat) : Value → Value → Prop := Relation.ReflTransGen (Edit r depth)

/-- How deep a document may be nested as far as it is read: its declarations stand in a list. -/
def Module.depthLimit : Nat := Declaration.depthLimit + 2

variable {α : Type} {r : Role} {depth : Nat} {v w : Value} {ms ms' : List (Literal × Value)}
  {name : String}

/-- Edits of a member are edits of its object. -/
theorem Edits.member (before : List (Literal × Value)) (key : Literal)
    (after : List (Literal × Value)) (h : Edits (r.ofMember key) (depth - 1) v w) :
    Edits r depth (.object (before ++ (key, v) :: after)) (.object (before ++ (key, w) :: after)) := by
  induction h with
  | refl => exact .refl
  | tail _ hlast ih => exact ih.tail (.member before key after hlast)

/-- Edits of an item are edits of its array. -/
theorem Edits.item (before after : List Value)
    (h : Edits (r.ofItem before.length) (depth - 1) v w) :
    Edits r depth (.array (before ++ v :: after)) (.array (before ++ w :: after)) := by
  induction h with
  | refl => exact .refl
  | tail _ hlast ih => exact ih.tail (.item before after hlast)

/-! ## Limits -/

namespace Json

theorem isReadable_object_iff :
    (Value.object ms).isReadable depth = true ↔
      0 < depth ∧ ∀ e ∈ ms, e.1.isSome = true ∧ e.2.isReadable (depth - 1) = true := by
  cases depth with
  | zero => simp [Value.isReadable]
  | succ depth => simp [Value.isReadable, Value.membersReadable_iff]

theorem isReadable_array_iff {items : List Value} :
    (Value.array items).isReadable depth = true ↔
      0 < depth ∧ ∀ v ∈ items, v.isReadable (depth - 1) = true := by
  cases depth with
  | zero => simp [Value.isReadable]
  | succ depth => simp [Value.isReadable, Value.itemsReadable_iff]

end Json

/-- **What is edited is read within the same limits.** -/
theorem Edit.isReadable_iff (h : Edit r depth v w) (hdepth : depth ≤ Declaration.depthLimit) :
    w.isReadable depth = true ↔ v.isReadable depth = true := by
  induction h with
  | permute h =>
    rw [Json.isReadable_object_iff, Json.isReadable_object_iff]
    simp only [h.mem_iff]
  | add name v hpart hname hv =>
    rw [Json.isReadable_object_iff, Json.isReadable_object_iff, List.forall_mem_cons]
    simp only [Option.isSome_some, hv hdepth, true_and]
  | member before name after h ih =>
    have hinner := ih (by omega)
    rw [Json.isReadable_object_iff, Json.isReadable_object_iff]
    simp only [List.forall_mem_append, List.forall_mem_cons, hinner]
  | item before after h ih =>
    have hinner := ih (by omega)
    rw [Json.isReadable_array_iff, Json.isReadable_array_iff]
    simp only [List.forall_mem_append, List.forall_mem_cons, hinner]

/-! ## Known members -/

namespace Json

/-- A member is found whatever the order. -/
theorem member?_perm (h : ms.Perm ms') (name : String) : member? name ms' = member? name ms := by
  have hfilter := h.filter fun e => e.1 = some name
  unfold member?
  cases hms : ms.filter (fun e => e.1 = some name) with
  | nil =>
    rw [hms] at hfilter
    rw [hfilter.nil_eq]
  | cons first rest =>
    rw [hms] at hfilter
    cases rest with
    | nil => rw [List.singleton_perm.1 hfilter]
    | cons second rest =>
      -- repeated in the one order, repeated in the other
      cases hms' : ms'.filter (fun e => e.1 = some name) with
      | nil => simp [hms'] at hfilter
      | cons first' rest' =>
        cases rest' with
        | nil => simp [hms'] at hfilter
        | cons second' rest' => rfl

/-- One member replaced by another of its name is found again, or it was not the only one. -/
theorem member?_replace (before after : List (Literal × Value)) (key : Literal) (v v' : Value)
    (name : String) :
    member? name (before ++ (key, v') :: after) = member? name (before ++ (key, v) :: after) ∨
      key = some name ∧ member? name (before ++ (key, v) :: after) = some (some v) ∧
        member? name (before ++ (key, v') :: after) = some (some v') := by
  unfold member?
  simp only [List.filter_append]
  by_cases hkey : key = some name
  · simp only [List.filter_cons, hkey, decide_true, if_true]
    cases before.filter (fun e => e.1 = some name) with
    | nil =>
      cases after.filter (fun e => e.1 = some name) with
      | nil => exact .inr ⟨trivial, rfl, rfl⟩
      | cons e rest => exact .inl rfl
    | cons e rest =>
      cases rest with
      | nil => exact .inl rfl
      | cons e' rest => exact .inl rfl
  · left
    simp only [List.filter_cons, hkey, decide_false]
    rfl

end Json

/-- What a member is before and after an edit. -/
inductive Alike (r : Role) (depth : Nat) : Option Value → Option Value → Prop where
  | same (v? : Option Value) : Alike r depth v? v?
  | edited {v w : Value} (h : Edit r depth v w) : Alike r depth (some v) (some w)

/-- **Known members are found again,** as they were or edited in turn. -/
theorem Edit.member?_rel (h : Edit r depth (.object ms) (.object ms')) (hname : name ∈ r.known ms) :
    Option.Rel (Alike (r.ofMember name) (depth - 1)) (Json.member? name ms)
      (Json.member? name ms') := by
  have hsame : Json.member? name ms' = Json.member? name ms →
      Option.Rel (Alike (r.ofMember name) (depth - 1)) (Json.member? name ms)
        (Json.member? name ms') := by
    intro he
    rw [he]
    cases Json.member? name ms with
    | none => exact .none
    | some v? => exact .some (.same v?)
  cases h with
  | permute h => exact hsame (Json.member?_perm h name)
  | add key v hpart hkey hv =>
    have hother : ∀ e ∈ [(some key, v)], e.1 ≠ some name := by
      intro e hmem he
      rw [List.mem_singleton.1 hmem] at he
      rw [Option.some.inj he] at hkey
      exact hkey hname
    exact hsame (Json.member?_append_right hother)
  | member before key after h =>
    rename_i v v'
    rcases Json.member?_replace before after key v v' name with he | ⟨rfl, hold, hnew⟩
    · exact hsame he
    · rw [hold, hnew]
      exact .some (.edited h)

/-! ## Parts -/

/-- The members of a part, as they are before and after an edit. -/
inductive AlikeAll (depth : Nat) :
    List (String × Role) → List (Option Value) → List (Option Value) → Prop where
  | nil : AlikeAll depth [] [] []
  | cons {slot : String × Role} {v? w? : Option Value} {slots : List (String × Role)}
      {vs ws : List (Option Value)} (h : Alike slot.2 depth v? w?) (ht : AlikeAll depth slots vs ws) :
      AlikeAll depth (slot :: slots) (v? :: vs) (w? :: ws)

theorem AlikeAll.refl {slots : List (String × Role)} {vs : List (Option Value)}
    (h : vs.length = slots.length) : AlikeAll depth slots vs vs := by
  induction slots generalizing vs with
  | nil =>
    rw [List.length_eq_zero_iff.1 h]
    exact .nil
  | cons slot slots ih =>
    obtain ⟨v?, vs, rfl⟩ := List.exists_cons_of_length_eq_add_one h
    exact .cons (.same v?) (ih (Nat.succ.inj h))

/-- Members by name. -/
theorem AlikeAll.of_members {slots : List (String × Role)} {f g : String → Option (Option Value)}
    (h : ∀ slot ∈ slots, Option.Rel (Alike slot.2 depth) (f slot.1) (g slot.1)) :
    Option.Rel (AlikeAll depth slots) ((slots.map Prod.fst).mapM f)
      ((slots.map Prod.fst).mapM g) := by
  induction slots with
  | nil => exact .some .nil
  | cons slot slots ih =>
    have hfirst := h slot List.mem_cons_self
    have hrest := ih fun slot hslot => h slot (List.mem_cons_of_mem _ hslot)
    rw [List.map_cons, List.mapM_cons, List.mapM_cons]
    generalize f slot.1 = v? at hfirst ⊢
    generalize g slot.1 = w? at hfirst ⊢
    cases hfirst with
    | none => exact .none
    | some hv =>
      generalize (slots.map Prod.fst).mapM f = vs? at hrest ⊢
      generalize (slots.map Prod.fst).mapM g = ws? at hrest ⊢
      cases hrest with
      | none => exact .none
      | some hvs => exact .some (.cons hv hvs)

/-- Members by position. -/
theorem AlikeAll.of_items {slots : List (String × Role)} {before after : List (Option Value)}
    (hlength : (before ++ some v :: after).length = slots.length)
    (h : Edit ((slots[before.length]?.map Prod.snd).getD .plain) depth v w) :
    AlikeAll depth slots (before ++ some v :: after) (before ++ some w :: after) := by
  induction slots generalizing before with
  | nil => simp at hlength
  | cons slot slots ih =>
    cases before with
    | nil => exact .cons (.edited h) (.refl (by simpa using hlength))
    | cons b before =>
      exact .cons (.same b) (ih (by simpa using hlength) (by simpa using h))

namespace Role

/-- Only of a declaration is not always known what it can have. -/
theorem known_eq_slots (hr : r ≠ .declaration) (ms : List (Literal × Value)) :
    r.known ms = r.slots.map Prod.fst := by
  cases r with
  | declaration => exact absurd rfl hr
  | _ => rfl

/-- A part that is written as an array has its members in order. -/
theorem ofItem_eq_slot (hpart : r.slots ≠ []) (position : Nat) :
    r.ofItem position = (r.slots[position]?.map Prod.snd).getD .plain := by
  cases r with
  | declarations | fields | members | params => exact absurd rfl hpart
  | _ => rfl

/-- No member of a part has the name of another. -/
theorem ofMember_of_mem_slots (r : Role) : ∀ slot ∈ r.slots, r.ofMember (some slot.1) = slot.2 := by
  cases r <;> decide

end Role

/-- **The members of an edited part,** by name or by position. -/
theorem Edit.slots?_rel (h : Edit r depth v w) (hpart : r.slots ≠ []) (hr : r ≠ .declaration)
    {names : List String} (hnames : r.slots.map Prod.fst = names) :
    Option.Rel (AlikeAll (depth - 1) r.slots) (Json.slots? names v) (Json.slots? names w) := by
  subst hnames
  have hmembers : ∀ {ms ms'}, Edit r depth (.object ms) (.object ms') →
      Option.Rel (AlikeAll (depth - 1) r.slots)
        (Json.slots? (r.slots.map Prod.fst) (.object ms))
        (Json.slots? (r.slots.map Prod.fst) (.object ms')) := by
    intro ms ms' h
    refine AlikeAll.of_members fun slot hslot => ?_
    rw [← r.ofMember_of_mem_slots slot hslot]
    refine h.member?_rel ?_
    rw [Role.known_eq_slots hr]
    exact List.mem_map_of_mem hslot
  cases h with
  | permute h => exact hmembers (.permute h)
  | add name v hpart hname hv => exact hmembers (.add name v hpart hname hv)
  | member before name after h => exact hmembers (.member before name after h)
  | item before after h =>
    rename_i v v'
    unfold Json.slots?
    simp only [List.length_append, List.length_cons, List.length_map]
    split
    · exact .none
    · rename_i hlength
      rw [Role.ofItem_eq_slot hpart] at h
      simp only [List.map_append, List.map_cons, List.append_assoc, List.cons_append]
      refine .some (AlikeAll.of_items ?_ (by rw [List.length_map]; exact h))
      simp only [List.length_append, List.length_cons, List.length_map, List.length_replicate]
      omega

end SwiftBindings
