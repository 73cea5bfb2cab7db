import SwiftBindings.Module.Decode
import SwiftBindings.Module.Encode
import SwiftBindings.Proofs.Json.RoundTrip

/-!
# Modules read back

What is written for a module is an object that the reader takes apart into the same module: every
member is found under its name, what is left out has its default, and nothing is nested too deep or
out of range. Only the members of enumerations and bit fields may be beyond 64 bits, and a module
that was read has none of these.

* `Kind.ofJson?_toJsonMembers`, `Declaration.ofJson?_toJson`: one kind, one declaration.
* `Module.inRange_of_parse?`: what was read can be written.
* `Module.print_roundTrip`: **a module is read back from its text, and a text that was read is
  written in a form that is read again and written as itself.**
-/

namespace SwiftBindings

open Json

/-! ## Modules that can be written -/

/-- Whether a member fits 64 bits. -/
def Member.InRange (m : Member) : Prop := minInteger ≤ m.value ∧ m.value ≤ maxInteger

instance (m : Member) : Decidable m.InRange := inferInstanceAs (Decidable (_ ∧ _))

/-- The members of an enumeration or bit field; other kinds have none. -/
def Kind.members : Kind → List Member
  | .enumeration members | .bitfield members => members
  | _ => []

/-- Whether all members fit 64 bits. -/
def Declaration.InRange (d : Declaration) : Prop := ∀ m ∈ d.kind.members, m.InRange

/-- Whether the members of all enumerations and bit fields fit 64 bits. -/
def Module.InRange (m : Module) : Prop := ∀ d ∈ m.declarations, d.InRange

/-! ## Numbers -/

namespace Json

theorem le_foldl_digits (ds : List Char) (n : Nat) :
    n ≤ ds.foldl (fun n c => n * 10 + Text.digitValue c) n := by
  induction ds generalizing n with
  | nil => exact Nat.le_refl n
  | cons c rest ih =>
    have := ih (n * 10 + Text.digitValue c)
    rw [List.foldl_cons]
    omega

/-- Digits are gathered to the end if the whole number fits. -/
theorem gather_eq (ds : List Char) (significand taken : Nat)
    (h : ds.foldl (fun n c => n * 10 + Text.digitValue c) significand ≤ Number.maxSignificand) :
    Number.gather significand taken ds =
      (ds.foldl (fun n c => n * 10 + Text.digitValue c) significand, taken + ds.length) := by
  induction ds generalizing significand taken with
  | nil => rfl
  | cons c rest ih =>
    rw [List.foldl_cons] at h
    have hnext := Nat.le_trans (le_foldl_digits rest _) h
    unfold Number.gather
    simp only
    rw [if_neg (by omega), ih _ _ h, List.foldl_cons, List.length_cons]
    congr 1
    omega

/-- An integer of 64 bits fits. -/
theorem inRange_ofInt {i : Int} (h : minInteger ≤ i ∧ i ≤ maxInteger) :
    (Number.ofInt i).inRange = true := by
  have hvalue : (Nat.toDigits 10 i.natAbs).foldl (fun n c => n * 10 + Text.digitValue c) 0 =
      i.natAbs := digitsValue_toDigits i.natAbs
  have hsmall : i.natAbs ≤ Number.maxSignificand := by
    have hmin : minInteger = -9223372036854775808 := rfl
    have hmax : maxInteger = 9223372036854775807 := rfl
    have hlimit : Number.maxSignificand = 18446744073709551615 := rfl
    omega
  have hgather := gather_eq (Nat.toDigits 10 i.natAbs) 0 0 (by rw [hvalue]; exact hsmall)
  rw [hvalue] at hgather
  -- no digit is dropped, so the exponent is zero
  have hscaled : (Number.ofInt i).scaled = (i.natAbs, 0) := by
    simp only [Number.scaled, Number.ofInt, hgather, Option.getD_none]
    congr 1
    omega
  unfold Number.inRange
  rw [hscaled]
  simp

/-! ## Members by name -/

section Lookup

variable {name : String} {front back : List (Literal × Value)}

/-- Members of other names in front do not hide one. -/
theorem member?_append_right (h : ∀ e ∈ front, e.1 ≠ some name) :
    member? name (front ++ back) = member? name back := by
  have hnone : front.filter (·.1 = some name) = [] :=
    List.filter_eq_nil_iff.2 fun e he => by simpa using h e he
  unfold member?
  rw [List.filter_append, hnone, List.nil_append]

/-- Members of other names behind do not repeat one. -/
theorem member?_append_left (h : ∀ e ∈ back, e.1 ≠ some name) :
    member? name (front ++ back) = member? name front := by
  have hnone : back.filter (·.1 = some name) = [] :=
    List.filter_eq_nil_iff.2 fun e he => by simpa using h e he
  unfold member?
  rw [List.filter_append, hnone, List.append_nil]

end Lookup

theorem list?_map {α : Type} {item? : Value → Option α} {toJson : α → Value} {l : List α}
    (h : ∀ a ∈ l, item? (toJson a) = some a) : list? item? (.array (l.map toJson)) = some l := by
  unfold list?
  induction l with
  | nil => rfl
  | cons a rest ih =>
    simp only at ih ⊢
    rw [List.map_cons, List.mapM_cons, h a List.mem_cons_self,
      ih fun b hb => h b (List.mem_cons_of_mem _ hb)]
    rfl

/-- What a list holds was read from an item. -/
theorem exists_of_mem_list? {α : Type} {item? : Value → Option α} {v : Value} {l : List α}
    (h : list? item? v = some l) {a : α} (ha : a ∈ l) : ∃ w, item? w = some a := by
  unfold list? at h
  split at h
  case h_2 => exact absurd h (by simp)
  rename_i items
  induction items generalizing l with
  | nil =>
    rw [List.mapM_nil] at h
    rw [← Option.some.inj h] at ha
    exact absurd ha List.not_mem_nil
  | cons w rest ih =>
    simp only [List.mapM_cons, Option.bind_eq_bind, Option.bind_eq_some_iff] at h
    obtain ⟨b, hb, more, hmore, hl⟩ := h
    rw [← Option.some.inj hl] at ha
    rcases List.mem_cons.1 ha with rfl | ha
    · exact ⟨w, hb⟩
    · exact ih ha hmore

/-- The same for a list that may be left out. -/
theorem exists_of_mem_defaulted? {α : Type} {item? : Value → Option α} {v? : Option Value}
    {l : List α} (h : defaulted? (list? item?) [] v? = some l) {a : α} (ha : a ∈ l) :
    ∃ w, item? w = some a := by
  cases v? with
  | none =>
    rw [← Option.some.inj h] at ha
    exact absurd ha List.not_mem_nil
  | some v => exact exists_of_mem_list? h ha

end Json

/-! ## Parts of declarations -/

theorem Field.ofJson?_toJson (f : Field) : Field.ofJson? f.toJson = some f := by
  simp [Field.ofJson?, Field.toJson, Value.record, Value.text, slots?, member?, required?,
    defaulted?, text?, bool?]

theorem Param.ofJson?_toJson (p : Param) : Param.ofJson? p.toJson = some p := by
  simp [Param.ofJson?, Param.toJson, Value.record, Value.text, slots?, member?, required?, text?]

theorem Member.ofJson?_toJson {m : Member} (h : m.InRange) : Member.ofJson? m.toJson = some m := by
  have hvalue : integer? (.number (.ofInt m.value)) = some m.value := by
    unfold integer?
    simp only [Number.toInt?_ofInt]
    exact if_pos h
  simp [Member.ofJson?, Member.toJson, Value.record, Value.text, slots?, member?, required?, text?,
    hvalue]

theorem Signature.ofJson?_toJson (s : Signature) : Signature.ofJson? s.toJson = some s := by
  obtain ⟨params, returns?⟩ := s
  have hparams : list? Param.ofJson? (.array (params.map Param.toJson)) = some params :=
    list?_map fun p _ => p.ofJson?_toJson
  cases returns? with
  | none =>
    simp [Signature.ofJson?, Signature.toJson, Value.record, optionalMember, slots?, member?,
      defaulted?, hparams]
  | some r =>
    simp [Signature.ofJson?, Signature.toJson, Value.record, Value.text, optionalMember, slots?,
      member?, defaulted?, optionalText?, hparams]

/-! ## Kinds -/

/-- Members with texts as names. -/
def Json.named (members : List (String × Value)) : List (Literal × Value) :=
  members.map fun (name, v) => (some name, v)

/-- A kind is found among its own members. -/
theorem Kind.ofJson?_toJsonMembers {k : Kind} (h : ∀ m ∈ k.members, m.InRange) :
    Kind.ofJson? k.category (named k.toJsonMembers) = some k := by
  have hfields : ∀ fields : List Field, list? Field.ofJson? (.array (fields.map Field.toJson)) =
      some fields := fun fields => list?_map fun f _ => f.ofJson?_toJson
  have htexts : ∀ texts : List String, list? text? (.array (texts.map .text)) = some texts :=
    fun texts => list?_map fun _ _ => rfl
  match k, h with
  | .alias target, _ =>
    simp [ofJson?, category, toJsonMembers, named, member?, required?, Value.text, text?]
  | .callback s, _ =>
    simp [ofJson?, category, toJsonMembers, named, member?, defaulted?, s.ofJson?_toJson]
  | .constant typeName value, _ =>
    simp [ofJson?, category, toJsonMembers, named, member?, required?, Value.text, text?]
  | .enumeration members, h =>
    have hmembers := list?_map fun m hm => Member.ofJson?_toJson (h m hm)
    simp only [Kind.members] at hmembers
    simp [ofJson?, category, toJsonMembers, named, member?, defaulted?, hmembers]
  | .bitfield members, h =>
    have hmembers := list?_map fun m hm => Member.ofJson?_toJson (h m hm)
    simp only [Kind.members] at hmembers
    simp [ofJson?, category, toJsonMembers, named, member?, defaulted?, hmembers]
  | .union fields, _ => simp [ofJson?, category, toJsonMembers, named, member?, defaulted?, hfields]
  | .interface prerequisites, _ =>
    simp [ofJson?, category, toJsonMembers, named, member?, defaulted?, htexts]
  | .record fields, _ =>
    simp [ofJson?, category, toJsonMembers, named, member?, defaulted?, hfields]
  | .class_ parent? fields, _ =>
    cases parent? <;>
      simp [ofJson?, category, toJsonMembers, named, member?, defaulted?, optionalMember,
        optionalText?, Value.text, hfields]
  | .function s, _ =>
    simp [ofJson?, category, toJsonMembers, named, member?, defaulted?, s.ofJson?_toJson]

/-- The names of the members that only some kinds have. -/
def Kind.keys : List String :=
  ["target", "signature", "type", "value", "members", "fields", "prerequisites", "parent"]

theorem Kind.key_mem {k : Kind} : ∀ e ∈ k.toJsonMembers, e.1 ∈ keys := by
  match k with
  | .class_ none _ | .class_ (some _) _ => simp [toJsonMembers, optionalMember, keys]
  | .alias _ | .callback _ | .constant _ _ | .enumeration _ | .bitfield _ | .union _
  | .interface _ | .record _ | .function _ => simp [toJsonMembers, keys]

/-- Members in front that are not of kinds do not hide those that are. -/
theorem Kind.ofJson?_append {c : Category} {front back : List (Literal × Value)}
    (h : ∀ key ∈ keys, ∀ e ∈ front, e.1 ≠ some key) :
    Kind.ofJson? c (front ++ back) = Kind.ofJson? c back := by
  have hlook : ∀ key ∈ keys, member? key (front ++ back) = member? key back :=
    fun key hkey => member?_append_right (h key hkey)
  simp only [keys, List.forall_mem_cons, List.not_mem_nil, false_imp_iff, implies_true,
    and_true] at hlook
  obtain ⟨htarget, hsignature, htype, hvalue, hmembers, hfields, hprerequisites, hparent⟩ := hlook
  cases c <;>
    simp only [ofJson?, htarget, hsignature, htype, hvalue, hmembers, hfields, hprerequisites,
      hparent]

/-- A member that was read fits 64 bits. -/
theorem Member.inRange_of_ofJson? {v : Value} {m : Member} (h : Member.ofJson? v = some m) :
    m.InRange := by
  unfold Member.ofJson? at h
  split at h
  case h_2 => exact absurd h (by simp)
  simp only [Option.bind_eq_bind, Option.bind_eq_some_iff] at h
  obtain ⟨name, -, i, hi, hm⟩ := h
  rw [← Option.some.inj hm]
  rename_i value _
  cases value with
  | none => exact absurd hi (by simp [required?])
  | some w =>
    simp only [required?, integer?] at hi
    split at hi
    case h_2 => exact absurd hi (by simp)
    split at hi
    case h_2 => exact absurd hi (by simp)
    split at hi
    case isFalse => exact absurd hi (by simp)
    rename_i hrange
    rw [← Option.some.inj hi]
    exact hrange

theorem Kind.inRange_of_ofJson? {c : Category} {members : List (Literal × Value)} {k : Kind}
    (h : Kind.ofJson? c members = some k) : ∀ m ∈ k.members, m.InRange := by
  intro m hm
  cases c <;> simp only [Kind.ofJson?, Option.bind_eq_bind, Option.bind_eq_some_iff] at h
  case enumeration | bitfield =>
    obtain ⟨_, -, read, hread, hk⟩ := h
    rw [← Option.some.inj hk] at hm
    obtain ⟨w, hw⟩ := exists_of_mem_defaulted? hread hm
    exact Member.inRange_of_ofJson? hw
  case constant | class_ =>
    obtain ⟨_, -, _, -, _, -, _, -, hk⟩ := h
    rw [← Option.some.inj hk] at hm
    exact absurd hm List.not_mem_nil
  all_goals
    obtain ⟨_, -, _, -, hk⟩ := h
    rw [← Option.some.inj hk] at hm
    exact absurd hm List.not_mem_nil

/-! ## Faithful values -/

namespace Json.Value

theorem itemsReadable_iff {n : Nat} {items : List Value} :
    itemsReadable n items = true ↔ ∀ v ∈ items, v.isReadable n = true := by
  induction items with
  | nil => simp [itemsReadable]
  | cons v rest ih => simp [itemsReadable, ih]

theorem membersReadable_iff {n : Nat} {members : List (Literal × Value)} :
    membersReadable n members = true ↔
      ∀ e ∈ members, e.1.isSome = true ∧ e.2.isReadable n = true := by
  induction members with
  | nil => simp [membersReadable]
  | cons e rest ih => simp [membersReadable, ih]

theorem membersWritable_iff {members : List (Literal × Value)} :
    MembersWritable members ↔ ∀ e ∈ members, e.1.isSome = true ∧ e.2.Writable := by
  induction members with
  | nil => simp [MembersWritable]
  | cons e rest ih => simp [MembersWritable, ih, and_assoc]

/-- Whether a value is written as it is and, nested no deeper than `n`, kept when it is read. -/
def Faithful (n : Nat) (v : Value) : Prop := v.isReadable n = true ∧ v.Writable

variable {n : Nat}

theorem faithful_text (n : Nat) (s : String) : (text s).Faithful n :=
  ⟨by rw [text, isReadable]; rfl, rfl⟩

theorem faithful_bool (n : Nat) (b : Bool) : (bool b).Faithful n := ⟨by rw [isReadable], trivial⟩

theorem faithful_ofInt (n : Nat) {i : Int} (h : minInteger ≤ i ∧ i ≤ maxInteger) :
    (number (.ofInt i)).Faithful n :=
  ⟨by rw [isReadable]; exact inRange_ofInt h, Number.writable_ofInt i⟩

theorem faithful_list {α : Type} {toJson : α → Value} {l : List α}
    (h : ∀ a ∈ l, (toJson a).Faithful n) : (array (l.map toJson)).Faithful (n + 1) := by
  refine ⟨?_, itemsWritable_iff.2 (List.forall_mem_map.2 fun a ha => (h a ha).2)⟩
  rw [isReadable, itemsReadable_iff]
  exact List.forall_mem_map.2 fun a ha => (h a ha).1

theorem faithful_record {members : List (String × Value)} (h : ∀ e ∈ members, e.2.Faithful n) :
    (record members).Faithful (n + 1) := by
  refine ⟨?_, membersWritable_iff.2 (List.forall_mem_map.2 fun e he => ⟨rfl, (h e he).2⟩)⟩
  unfold record
  rw [isReadable, membersReadable_iff]
  exact List.forall_mem_map.2 fun e he => ⟨rfl, (h e he).1⟩

theorem faithful_optionalMember (n : Nat) {key : String} {s? : Option String} :
    ∀ e ∈ optionalMember key s?, e.2.Faithful n := by
  cases s? with
  | none => simp [optionalMember]
  | some s => simp [optionalMember, faithful_text]

end Json.Value

open Json.Value

section Faithful

variable (n : Nat)

theorem Field.faithful_toJson (f : Field) : f.toJson.Faithful (n + 1) :=
  faithful_record (by simp [faithful_text, faithful_bool])

theorem Param.faithful_toJson (p : Param) : p.toJson.Faithful (n + 1) :=
  faithful_record (by simp [faithful_text])

theorem Member.faithful_toJson {m : Member} (h : m.InRange) : m.toJson.Faithful (n + 1) :=
  faithful_record (by simp [faithful_text, faithful_ofInt n h])

theorem Signature.faithful_toJson (s : Signature) : s.toJson.Faithful (n + 3) := by
  refine faithful_record fun e he => ?_
  rcases List.mem_cons.1 he with rfl | he
  · exact faithful_list fun p _ => p.faithful_toJson n
  · exact faithful_optionalMember (n + 2) e he

theorem Kind.faithful_toJsonMembers {k : Kind} (h : ∀ m ∈ k.members, m.InRange) :
    ∀ e ∈ k.toJsonMembers, e.2.Faithful (n + 3) := by
  have hfields : ∀ fields : List Field, (Value.array (fields.map Field.toJson)).Faithful (n + 3) :=
    fun fields => faithful_list fun f _ => f.faithful_toJson (n + 1)
  have htexts : ∀ texts : List String, (Value.array (texts.map .text)).Faithful (n + 3) :=
    fun texts => faithful_list fun s _ => faithful_text (n + 2) s
  have hmembers : (Value.array (k.members.map Member.toJson)).Faithful (n + 3) :=
    faithful_list fun m hm => Member.faithful_toJson (n + 1) (h m hm)
  match k with
  | .alias _ | .constant _ _ => simp [toJsonMembers, faithful_text]
  | .callback s | .function s => simp [toJsonMembers, s.faithful_toJson n]
  | .enumeration _ | .bitfield _ => simpa [toJsonMembers, Kind.members] using hmembers
  | .union fields | .record fields => simp [toJsonMembers, hfields]
  | .interface _ => simpa [toJsonMembers] using htexts _
  | .class_ parent? fields =>
    intro e he
    rcases List.mem_append.1 he with he | he
    · exact faithful_optionalMember (n + 3) e he
    · rw [List.mem_singleton.1 he]
      exact hfields fields

end Faithful

/-! ## Declarations -/

namespace Declaration

/-- The members that every declaration has, in front of those of its kind. -/
def commonMembers (d : Declaration) : List (String × Value) :=
  [("name", .text d.name)] ++ optionalMember "display_name" d.displayName? ++
    optionalMember "c_type" d.cType? ++ [("kind", .text d.category.name)]

theorem faithful_toJson {d : Declaration} (h : d.InRange) : d.toJson.Faithful depthLimit := by
  refine faithful_record fun e he => ?_
  rcases List.mem_append.1 he with he | he
  · simp only [List.mem_append, List.mem_singleton] at he
    rcases he with ((rfl | he) | he) | rfl
    · exact faithful_text _ _
    · exact faithful_optionalMember _ e he
    · exact faithful_optionalMember _ e he
    · exact faithful_text _ _
  · exact Kind.faithful_toJsonMembers 121 h e he

/-- The names of the members that every kind has. -/
def commonKeys : List String := ["name", "display_name", "c_type", "kind"]

theorem key_mem_commonMembers {d : Declaration} : ∀ e ∈ d.commonMembers, e.1 ∈ commonKeys := by
  unfold commonMembers
  cases d.displayName? <;> cases d.cType? <;> simp [optionalMember, commonKeys]

/-- What is found of a declaration beside its kind. -/
theorem member?_commonMembers (d : Declaration) :
    member? "name" (named d.commonMembers) = some (some (.text d.name)) ∧
    member? "display_name" (named d.commonMembers) = some (d.displayName?.map .text) ∧
    member? "c_type" (named d.commonMembers) = some (d.cType?.map .text) ∧
    member? "kind" (named d.commonMembers) = some (some (.text d.category.name)) := by
  unfold commonMembers
  cases d.displayName? <;> cases d.cType? <;> simp [optionalMember, named, member?]

theorem defaulted?_optionalText? (s? : Option String) :
    defaulted? optionalText? none (s?.map Value.text) = some s? := by
  cases s? <;> rfl

/-- **A declaration is read back.** -/
theorem ofJson?_toJson {d : Declaration} (h : d.InRange) : ofJson? d.toJson = some d := by
  have hsplit : d.toJson = .object (named d.commonMembers ++ named d.kind.toJsonMembers) := by
    unfold toJson Value.record named
    rw [← List.map_append]
    rfl
  -- no member that every kind has is named like one that only some have
  have hdisjoint : ∀ key ∈ Kind.keys, key ∉ commonKeys := by decide
  have hkind : Kind.ofJson? d.category (named d.commonMembers ++ named d.kind.toJsonMembers) =
      some d.kind := by
    rw [Kind.ofJson?_append, category, Kind.ofJson?_toJsonMembers h]
    refine fun key hkey => List.forall_mem_map.2 fun e he hname => ?_
    rw [← Option.some.inj hname] at hkey
    exact hdisjoint e.1 hkey (key_mem_commonMembers e he)
  have hcommon : ∀ key ∈ commonKeys,
      member? key (named d.commonMembers ++ named d.kind.toJsonMembers) =
        member? key (named d.commonMembers) := by
    refine fun key hkey => member?_append_left (List.forall_mem_map.2 fun e he hname => ?_)
    rw [← Option.some.inj hname] at hkey
    exact hdisjoint e.1 (Kind.key_mem e he) hkey
  simp only [commonKeys, List.forall_mem_cons, List.not_mem_nil, false_imp_iff, implies_true,
    and_true] at hcommon
  obtain ⟨hname, hdisplay, hctype, hcategory⟩ := hcommon
  obtain ⟨hname', hdisplay', hctype', hcategory'⟩ := member?_commonMembers d
  unfold ofJson?
  rw [if_pos (faithful_toJson h).1, hsplit]
  simp only [hname, hdisplay, hctype, hcategory, hname', hdisplay', hctype', hcategory',
    Option.bind_eq_bind, Option.bind_some, required?, Value.text, Category.ofJson?,
    Category.ofName?_name, hkind, text?, defaulted?_optionalText?]
  rfl

/-- What was read has members of 64 bits only. -/
theorem inRange_of_ofJson? {v : Value} {d : Declaration} (h : ofJson? v = some d) : d.InRange := by
  unfold ofJson? at h
  split at h
  case isFalse => exact absurd h (by simp)
  split at h
  case h_2 => exact absurd h (by simp)
  simp only [Option.bind_eq_bind, Option.bind_eq_some_iff] at h
  obtain ⟨_, -, c, -, _, -, name, -, _, -, display?, -, _, -, cType?, -, kind, hkind, hd⟩ := h
  rw [← Option.some.inj hd]
  exact Kind.inRange_of_ofJson? hkind

end Declaration

/-! ## Modules -/

namespace Module

theorem ofJson?_toJson {m : Module} (h : m.InRange) : ofJson? m.toJson = some m := by
  have hnames : namesReadable m.toJson = true := by simp [namesReadable, toJson, Value.record]
  have hdeclarations : list? Declaration.ofJson? (.array (m.declarations.map Declaration.toJson)) =
      some m.declarations := list?_map fun d hd => Declaration.ofJson?_toJson (h d hd)
  unfold ofJson?
  rw [if_pos hnames]
  simp [toJson, Value.record, Value.text, slots?, member?, defaulted?, text?, hdeclarations]

theorem faithful_toJson {m : Module} (h : m.InRange) :
    m.toJson.Faithful (Declaration.depthLimit + 2) := by
  have hdeclarations := faithful_list fun d hd => Declaration.faithful_toJson (h d hd)
  exact faithful_record (by simp [faithful_text, hdeclarations])

theorem parse?_print {m : Module} (h : m.InRange) : parse? m.print = some m := by
  unfold parse? print
  rw [parse_print m.toJson (faithful_toJson h).2, Option.bind_some, ofJson?_toJson h]

/-- What was read can be written. -/
theorem inRange_of_parse? {text : String} {m : Module} (h : parse? text = some m) : m.InRange := by
  obtain ⟨v, -, hv⟩ := Option.bind_eq_some_iff.1 h
  unfold ofJson? at hv
  split at hv
  case isFalse => exact absurd hv (by simp)
  split at hv
  case h_2 => exact absurd hv (by simp)
  simp only [Option.bind_eq_bind, Option.bind_eq_some_iff] at hv
  obtain ⟨name, -, boilerplate, -, declarations, hdeclarations, hm⟩ := hv
  rw [← Option.some.inj hm]
  intro d hd
  obtain ⟨w, hw⟩ := exists_of_mem_defaulted? hdeclarations hd
  exact Declaration.inRange_of_ofJson? hw

/-- **A module is read back from its text, and a text that was read is written in a form that is
read again and written as itself.** Only members beyond 64 bits are in the way, and a text never
gives one. -/
theorem print_roundTrip :
    (∀ m : Module, m.InRange → parse? m.print = some m) ∧
    ∀ (text : String) (m : Module), parse? text = some m →
      ∃ m', parse? m.print = some m' ∧ m'.print = m.print := by
  refine ⟨fun m => parse?_print, fun text m h => ⟨m, ?_, rfl⟩⟩
  exact parse?_print (inRange_of_parse? h)

/-- Flags with the least and the greatest value, beside a record that is first read from a text
with a field written as an array, an unknown member and no name space. -/
theorem print_roundTrip_flags :
    let flags : Module := ⟨"Test", "// a \"b\" \\ \n", [⟨"Flags", some "", none,
      .bitfield [⟨"low", minInteger⟩, ⟨"high", maxInteger⟩]⟩]⟩
    let pen : Module := ⟨"", "", [⟨"pen", some "Pen", none, .record [⟨"nib", "int", false⟩]⟩]⟩
    let text := "\x7b\"since\": 1, \"declarations\": [\x7b\"kind\": \"record\", " ++
      "\"display_name\": \"Pen\", \"fields\": [[\"nib\", \"int\"]], \"name\": \"pen\"\x7d]\x7d"
    flags.InRange ∧ parse? flags.print = some flags ∧
    parse? text = some pen ∧ ∃ m', parse? pen.print = some m' ∧ m'.print = pen.print := by
  intro flags pen text
  have hflags : flags.InRange := by
    intro d hd m hm
    rw [List.mem_singleton.1 hd] at hm
    simp only [Kind.members, List.mem_cons, List.not_mem_nil, or_false] at hm
    rcases hm with rfl | rfl <;> decide
  have hpen : parse? text = some pen := by decide +kernel
  exact ⟨hflags, print_roundTrip.1 flags hflags, hpen, print_roundTrip.2 text pen hpen⟩

end Module

end SwiftBindings
