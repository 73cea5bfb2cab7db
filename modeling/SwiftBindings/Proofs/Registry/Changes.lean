import SwiftBindings.Proofs.Registry.Lookup
import SwiftBindings.Swift.Types

/-!
# Registries that change

A registry starts with nothing, and declarations, modules and evictions change it. Of all that was
registered under a name, the declarations since its last eviction stand, and each table has what the
last of them says that goes to the table. So the data types tell of the last declaration that is no
function, while the records tell of the last record or class, though another declaration may have
taken its place since.

* `Change`, `after`: the changes of a registry, and the registry that they lead to.
* `standing`: the declarations that stand for a name.
* `knownIn?_after`: **what a table has of a name after any changes.**
* `agreesOn_iff`: the names on which records and data types agree.
-/

namespace SwiftBindings

namespace Registry

/-- A change of a registry. -/
inductive Change where
  | register (d : Declaration)
  | preload (m : Module)
  | evict (name : String)
  | evictAll (names : List String)

namespace Change

/-- The registry after a change. -/
def apply (r : Registry) : Change → Registry
  | .register d => r.register d
  | .preload m => r.preload m
  | .evict name => (r.remove name).2
  | .evictAll names => (r.evictAll names).2

/-- The declarations that stand for a name after a change, from those that stood before it. -/
def stand (name : String) (ds : List Declaration) : Change → List Declaration
  | .register d => if d.name = name then ds ++ [d] else ds
  | .preload m => ds ++ m.declarations.filter (·.name = name)
  | .evict other => if other = name then [] else ds
  | .evictAll names => if name ∈ names then [] else ds

end Change

/-- The registry that changes lead to, from one that knows nothing. -/
def after (changes : List Change) : Registry := changes.foldl Change.apply empty

/-- The declarations that stand for a name after changes: those since its last eviction, in
order. -/
def standing (changes : List Change) (name : String) : List Declaration :=
  changes.foldl (Change.stand name) []

/-- The last declaration in a list that goes to a table. -/
def Part.last? (p : Part) (ds : List Declaration) : Option Declaration :=
  (ds.filter fun d => p.holds d.category).getLast?

theorem Part.last?_append (p : Part) (ds es : List Declaration) :
    p.last? (ds ++ es) = (p.last? es).or (p.last? ds) := by
  unfold Part.last?
  rw [List.filter_append, List.getLast?_append]

theorem Part.last?_singleton (p : Part) (d : Declaration) :
    p.last? [d] = if p.holds d.category then some d else none := by
  unfold Part.last?
  rw [List.filter_cons]
  split <;> rfl

/-- The last declaration of a name in a module that goes to a table. -/
theorem Part.last?_filter_name (p : Part) (m : Module) (name : String) :
    p.last? (m.declarations.filter (·.name = name)) = m.last? p.holds name := by
  unfold Part.last? Module.last?
  rw [List.filter_filter]
  refine congrArg List.getLast? (List.filter_congr fun d _ => ?_)
  rw [Bool.decide_and, Bool.decide_eq_true, Bool.and_comm]

/-- **One change.** If a table has of a name what the last declaration says that stands and goes to
the table, it does so after the change as well. -/
theorem knownIn?_apply {r : Registry} {p : Part} {name : String} {ds : List Declaration}
    (h : r.knownIn? p name = (p.last? ds).map .ofDeclaration) (change : Change) :
    (change.apply r).knownIn? p name = (p.last? (change.stand name ds)).map .ofDeclaration := by
  cases change with
  | register d =>
    show (r.register d).knownIn? p name = (p.last? (if d.name = name then ds ++ [d] else ds)).map _
    rw [knownIn?_register, h]
    by_cases hname : d.name = name
    · rw [if_pos hname, Part.last?_append, Part.last?_singleton]
      by_cases hp : p.holds d.category = true
      · rw [if_pos ⟨hname, hp⟩, if_pos hp]
        rfl
      · rw [if_neg fun hd => hp hd.2, if_neg hp]
        rfl
    · rw [if_neg hname, if_neg fun hd => hname hd.1]
  | preload m =>
    show (r.preload m).knownIn? p name =
      (p.last? (ds ++ m.declarations.filter (·.name = name))).map _
    rw [knownIn?_preload, h, Part.last?_append, Part.last?_filter_name, Option.map_or]
  | evict other =>
    show (r.evict other).knownIn? p name = (p.last? (if other = name then [] else ds)).map _
    rw [knownIn?_evict, h]
    split <;> rfl
  | evictAll names =>
    show (r.evictAll names).2.knownIn? p name = (p.last? (if name ∈ names then [] else ds)).map _
    rw [knownIn?_evictAll, h]
    split <;> rfl

/-- **What a table has of a name after any changes:** what the last declaration says that stands for
the name and goes to the table. -/
theorem knownIn?_after (changes : List Change) (p : Part) (name : String) :
    (after changes).knownIn? p name =
      (p.last? (standing changes name)).map .ofDeclaration := by
  unfold after standing
  induction changes using List.reverseRecOn with
  | nil => cases p <;> rfl
  | append_singleton changes change ih =>
    rw [List.foldl_append, List.foldl_append]
    exact knownIn?_apply ih change

theorem dataType?_after (changes : List Change) (name : String) :
    (after changes).dataType? name =
      (Part.dataTypes.last? (standing changes name)).map .ofDeclaration :=
  knownIn?_after changes .dataTypes name

theorem record?_after (changes : List Change) (name : String) :
    (after changes).record? name =
      (Part.records.last? (standing changes name)).map .ofDeclaration :=
  knownIn?_after changes .records name

/-! ## Records and data types -/

/-- Records and data types agree on a name if the records have what the data types have of it,
provided that this is a record or a class, and nothing otherwise. -/
def AgreesOn (r : Registry) (name : String) : Prop :=
  ∀ known, r.record? name = some known ↔
    r.dataType? name = some known ∧ (known.category = .record ∨ known.category = .class_)

/-- A record or class stands for a name, but the last declaration of the name that is no function is
neither. -/
def Outdated (changes : List Change) (name : String) : Prop :=
  (∃ d ∈ standing changes name, d.category = .record ∨ d.category = .class_) ∧
    ∃ d, Part.dataTypes.last? (standing changes name) = some d ∧
      ¬(d.category = .record ∨ d.category = .class_)

variable {ds : List Declaration} {d : Declaration}

theorem holds_records_iff {c : Category} :
    Part.records.holds c = true ↔ c = .record ∨ c = .class_ := decide_eq_true_iff

/-- Records and classes are data types. -/
theorem filter_records (ds : List Declaration) :
    ds.filter (fun d => Part.records.holds d.category) =
      (ds.filter fun d => Part.dataTypes.holds d.category).filter
        fun d => Part.records.holds d.category := by
  rw [List.filter_filter]
  refine List.filter_congr fun d _ => ?_
  cases d.category <;> rfl

/-- A last data type that is a record or class is the last of these. -/
theorem last?_records (hlast : Part.dataTypes.last? ds = some d)
    (hd : Part.records.holds d.category = true) : Part.records.last? ds = some d := by
  unfold Part.last? at hlast ⊢
  obtain ⟨front, hfront⟩ := List.getLast?_eq_some_iff.1 hlast
  rw [filter_records, hfront, List.filter_append, List.filter_cons, if_pos hd, List.filter_nil]
  exact List.getLast?_concat

theorem last?_records_eq_none_iff : Part.records.last? ds = none ↔
    ∀ d ∈ ds, ¬(d.category = .record ∨ d.category = .class_) := by
  unfold Part.last?
  rw [List.getLast?_eq_none_iff, List.filter_eq_nil_iff]
  exact forall₂_congr fun d _ => not_congr holds_records_iff

/-- Without a data type there is no record or class. -/
theorem last?_records_eq_none (h : Part.dataTypes.last? ds = none) :
    Part.records.last? ds = none := by
  unfold Part.last? at h ⊢
  rw [filter_records, List.getLast?_eq_none_iff.1 h]
  rfl

/-- What the data types tell of a record or class, the records tell as well. -/
theorem record?_of_dataType? {changes : List Change} {name : String} {known : KnownType}
    (h : (after changes).dataType? name = some known)
    (hcategory : known.category = .record ∨ known.category = .class_) :
    (after changes).record? name = some known := by
  rw [dataType?_after] at h
  obtain ⟨d, hlast, rfl⟩ := Option.map_eq_some_iff.1 h
  rw [record?_after, last?_records hlast (holds_records_iff.2 hcategory)]
  rfl

/-- A name that is not fundamental is referred to by its wrapper if it is known as a record. -/
theorem typeName_eq_wrapper_iff {ctx : Context} {reference : String}
    (h : Swift.fundamental? reference = none) :
    Swift.typeName ctx reference = Swift.qualifiedName ctx reference ++ "Ref" ↔
      (ctx.registry.record? (Swift.bareName reference)).isSome = true := by
  unfold Swift.typeName
  rw [h]
  have hlonger : ∀ name : String, name ≠ name ++ "Ref" := by
    intro name hname
    have hlength := congrArg String.length hname
    rw [String.length_append] at hlength
    exact absurd hlength (Nat.ne_of_lt (Nat.lt_add_of_pos_right (by decide)))
  by_cases hrecord : (ctx.registry.record? (Swift.bareName reference)).isSome = true
  · simp [hrecord]
  · simp [hrecord, hlonger]

/-- **Where records and data types agree.** What the data types tell of a record or class, the
records always tell as well. But a record or class stays in the records when another declaration
takes its place among the data types: on a name they agree exactly if no record or class stands for
it or the last declaration that is no function is one. And a type of this name is referred to by its
wrapper exactly if a record or class stands for it, whatever has been declared since. -/
theorem agreesOn_iff (changes : List Change) (name : String) :
    (∀ known, (after changes).dataType? name = some known →
      known.category = .record ∨ known.category = .class_ →
      (after changes).record? name = some known) ∧
    ((after changes).AgreesOn name ↔ ¬ Outdated changes name) ∧
    ∀ (ctx : Context) (reference : String), ctx.registry = after changes →
      Swift.fundamental? reference = none → Swift.bareName reference = name →
      (Swift.typeName ctx reference = Swift.qualifiedName ctx reference ++ "Ref" ↔
        ∃ d ∈ standing changes name, d.category = .record ∨ d.category = .class_) := by
  have hstands : ((after changes).record? name).isSome ↔
      ∃ d ∈ standing changes name, d.category = .record ∨ d.category = .class_ := by
    rw [record?_after, Option.isSome_map, Option.isSome_iff_ne_none, ne_eq, last?_records_eq_none_iff]
    push Not
    rfl
  refine ⟨fun known => record?_of_dataType?, ⟨?_, ?_⟩, ?_⟩
  · rintro hagrees ⟨hrecords, d, hlast, hd⟩
    obtain ⟨known, hknown⟩ := Option.isSome_iff_exists.1 (hstands.2 hrecords)
    obtain ⟨hsame, hcategory⟩ := (hagrees known).1 hknown
    rw [dataType?_after, hlast] at hsame
    rw [← Option.some.inj hsame] at hcategory
    exact hd hcategory
  · intro hcurrent known
    refine ⟨fun hknown => ?_, fun h => record?_of_dataType? h.1 h.2⟩
    have hrecords := hstands.1 (Option.isSome_iff_exists.2 ⟨known, hknown⟩)
    -- something stands among the data types, and its last is a record or class
    obtain ⟨d, hlast⟩ : ∃ d, Part.dataTypes.last? (standing changes name) = some d := by
      refine Option.ne_none_iff_exists'.1 fun hnone => ?_
      obtain ⟨d, hd, hcategory⟩ := hrecords
      exact last?_records_eq_none_iff.1 (last?_records_eq_none hnone) d hd hcategory
    have hd : d.category = .record ∨ d.category = .class_ := by
      by_contra hd
      exact hcurrent ⟨hrecords, d, hlast, hd⟩
    rw [record?_after, last?_records hlast (holds_records_iff.2 hd)] at hknown
    rw [dataType?_after, hlast, ← Option.some.inj hknown]
    exact ⟨rfl, hd⟩
  · rintro ctx reference hctx hfundamental rfl
    rw [typeName_eq_wrapper_iff hfundamental, hctx, hstands]

/-- A record and a class, after which the name of the record is declared an alias. -/
def nibChanges : List Change :=
  [.register ⟨"Nib", none, none, .record []⟩, .register ⟨"Pen", none, none, .class_ none []⟩,
    .preload ⟨"T", "", [⟨"Nib", none, none, .alias "gint"⟩]⟩]

/-- Records and data types agree on the class, but not on the record that has become an alias. It is
still referred to by its wrapper. -/
theorem agreesOn_iff_nib :
    (after nibChanges).record? "Pen" = some ⟨"Pen", .class_, none⟩ ∧
      (after nibChanges).record? "Nib" = some ⟨"Nib", .record, none⟩ ∧
      (after nibChanges).dataType? "Nib" = some ⟨"Nib", .alias, none⟩ ∧
      ¬(after nibChanges).AgreesOn "Nib" ∧
      Swift.typeName ⟨"T", after nibChanges, .default⟩ "Nib" = "NibRef" := by
  have houtdated : Outdated nibChanges "Nib" :=
    ⟨⟨⟨"Nib", none, none, .record []⟩, by decide +kernel, .inl rfl⟩,
      ⟨"Nib", none, none, .alias "gint"⟩, by decide +kernel, by decide⟩
  obtain ⟨hpen, -, -⟩ := agreesOn_iff nibChanges "Pen"
  obtain ⟨-, hagrees, href⟩ := agreesOn_iff nibChanges "Nib"
  refine ⟨hpen _ (by decide +kernel) (.inr rfl), by decide +kernel, by decide +kernel,
    fun h => hagrees.1 h houtdated, ?_⟩
  exact (href ⟨"T", after nibChanges, .default⟩ "Nib" rfl (by decide) (by decide +kernel)).2
    houtdated.1

end Registry

end SwiftBindings
