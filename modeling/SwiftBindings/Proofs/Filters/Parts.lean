import SwiftBindings.Proofs.Filters.Split

/-!
# The parts of a module

The rules divide the declarations of a module into three parts: the selected ones, those on the
blacklist, and the records that are details of a class. To which part a declaration belongs is told
by its own name and category and by the classes of the module, whether these are on the blacklist or
not. So a part only changes by what the rules say of its own declarations.

* `Declaration.IsDetail`: a record that is a detail of a class, by the names and fields alone.
* `Selection.Exact`: every declaration is in one part, and every part is in order.
* `Selection.exact_monotone`: **selections are exact,** and how they change with the rules.
-/

namespace SwiftBindings

variable {m : Module} {f : Filters} {all : Bool} {d : Declaration} {c : Category}

/-- A record named after a class which is private to it: if the module has a class of that name,
then no field of the first one that is not private has the record as its type. -/
def Declaration.IsDetail (d : Declaration) (m : Module) : Prop :=
  d.category = .record ∧ ∃ owner, d.name = owner ++ "Private" ∧
    ∀ c, m.declarations.find? (fun c => c.category = .class_ ∧ c.name = owner) = some c →
      ¬∃ field ∈ c.fields, field.isPrivate = false ∧ field.typeName = d.name

/-- A declaration that is left out as a detail, though it is not on the blacklist. -/
def Declaration.Elided (d : Declaration) (m : Module) (f : Filters) (all : Bool) : Prop :=
  all = false ∧ d.name ∉ f.blacklist ∧ d.IsDetail m

/-! ## The part of a declaration -/

theorem ownerName?_eq_some_iff {name owner : String} :
    ownerName? name = some owner ↔ name = owner ++ "Private" := by
  show (if "Private".toList.isSuffixOf name.toList then _ else _) = some owner ↔ _
  rw [← String.toList_inj, String.toList_append]
  split
  · rename_i hsuffix
    obtain ⟨front, hfront⟩ := List.isSuffixOf_iff_suffix.1 hsuffix
    have hlength : name.toList.length - privateSuffix.toList.length = front.length := by
      rw [← hfront, List.length_append]
      exact Nat.add_sub_cancel_right ..
    rw [hlength, ← hfront, List.take_left, Option.some_inj, ← String.toList_inj,
      String.toList_ofList]
    exact List.append_left_inj _ |>.symm
  · rename_i hsuffix
    refine ⟨fun h => by simp at h, fun h => ?_⟩
    exact absurd (List.isSuffixOf_iff_suffix.2 ⟨owner.toList, h.symm⟩) hsuffix

theorem Module.class?_eq_find? (m : Module) (name : String) :
    m.class? name = m.declarations.find? fun c => c.category = .class_ ∧ c.name = name := by
  unfold class? Module.of
  rw [List.find?_filter]
  simp only [decide_eq_true_eq]

theorem isPrivateRecord_iff : isPrivateRecord d m = true ↔
    ∃ owner, d.name = owner ++ "Private" ∧ ∀ c, m.class? owner = some c →
      ¬∃ field ∈ c.fields, field.isPrivate = false ∧ field.typeName = d.name := by
  simp only [← ownerName?_eq_some_iff]
  unfold isPrivateRecord
  cases ownerName? d.name with
  | none => simp
  | some owner =>
    simp only [Option.some_inj, exists_eq_left']
    cases m.class? owner with
    | none => simp
    | some c => simp [or_iff_not_imp_right]

theorem Filters.isBlacklisted_iff {name : String} :
    f.isBlacklisted name = true ↔ name ∈ f.blacklist := List.contains_iff_mem

theorem Verdict.of_eq_blacklisted_iff :
    Verdict.of m f all d = .blacklisted ↔ d.name ∈ f.blacklist := by
  rw [← Filters.isBlacklisted_iff]
  unfold Verdict.of
  by_cases hname : f.isBlacklisted d.name = true
  · simp [hname]
  · rw [if_neg hname]
    split <;> simp [hname]

theorem Verdict.of_eq_elided_iff : Verdict.of m f all d = .elided ↔ d.Elided m f all := by
  have hdetail : d.IsDetail m ↔ d.category = .record ∧ isPrivateRecord d m = true := by
    rw [isPrivateRecord_iff]
    simp only [Module.class?_eq_find?]
    rfl
  unfold Declaration.Elided
  rw [← Filters.isBlacklisted_iff, hdetail]
  unfold Verdict.of
  by_cases hname : f.isBlacklisted d.name = true
  · simp [hname]
  · rw [if_neg hname]
    by_cases h : d.category = .record ∧ all = false ∧ isPrivateRecord d m = true
    · simp [h, hname]
    · rw [if_neg h]
      simp only [reduceCtorEq, false_iff]
      exact fun he => h ⟨he.2.2.1, he.1, he.2.2.2⟩

instance (d : Declaration) (m : Module) (f : Filters) (all : Bool) : Decidable (d.Elided m f all) :=
  decidable_of_iff (Verdict.of m f all d = .elided) Verdict.of_eq_elided_iff

theorem Verdict.of_eq_selected_iff : Verdict.of m f all d = .selected ↔
    d.name ∉ f.blacklist ∧ ¬d.Elided m f all := by
  have hblacklisted : Verdict.of m f all d = .blacklisted ↔ d.name ∈ f.blacklist :=
    Verdict.of_eq_blacklisted_iff
  rw [← hblacklisted, ← Verdict.of_eq_elided_iff]
  cases Verdict.of m f all d <;> simp

/-! ## The parts over all categories -/

/-- What a selection has of its category, from all declarations of the module. -/
theorem filter_of (m : Module) (c : Category) (p : Declaration → Bool) :
    (m.of c).filter p = (m.declarations.filter p).filter (·.category = c) := by
  unfold Module.of
  rw [List.filter_filter, List.filter_filter]
  exact List.filter_congr fun d _ => Bool.and_comm _ _

namespace Selection

theorem declarations_select : (select m c f all).declarations =
    (m.declarations.filter fun d => d.name ∉ f.blacklist ∧ ¬d.Elided m f all).filter
      (·.category = c) := by
  unfold select
  rw [← filter_of]
  exact List.filter_congr fun d _ => decide_eq_decide.2 Verdict.of_eq_selected_iff

theorem blacklisted_select : (select m c f all).blacklisted =
    ((m.declarations.filter fun d => d.name ∈ f.blacklist).filter (·.category = c)).length := by
  unfold select
  rw [← filter_of]
  exact congrArg List.length
    (List.filter_congr fun d _ => decide_eq_decide.2 Verdict.of_eq_blacklisted_iff)

theorem elided_select : (select m c f all).elided =
    ((m.declarations.filter fun d => d.Elided m f all).filter (·.category = c)).map (·.name) := by
  unfold select
  rw [← filter_of]
  exact congrArg (List.map _)
    (List.filter_congr fun d _ => decide_eq_decide.2 Verdict.of_eq_elided_iff)

/-- Only records are elided. -/
theorem elided_flatMap : (Category.all.flatMap fun c => (select m c f all).elided) =
    (m.declarations.filter fun d => d.Elided m f all).map (·.name) := by
  have hrecord : ∀ d ∈ m.declarations.filter fun d => d.Elided m f all, d.category = .record := by
    intro d hd
    exact (of_decide_eq_true (List.mem_filter.1 hd).2).2.2.1
  have hfilter : ∀ c, (m.declarations.filter fun d => d.Elided m f all).filter (·.category = c) =
      if c = .record then m.declarations.filter fun d => d.Elided m f all else [] := by
    intro c
    split
    · rename_i hc
      exact List.filter_eq_self.2 fun d hd => decide_eq_true ((hrecord d hd).trans hc.symm)
    · rename_i hc
      refine List.filter_eq_nil_iff.2 fun d hd hdc => hc ?_
      exact (of_decide_eq_true hdc).symm.trans (hrecord d hd)
  simp only [elided_select, hfilter]
  simp [Category.all]

theorem blacklisted_sum :
    (Category.all.map fun c => (select m c f all).blacklisted).foldr (· + ·) 0 =
      (m.declarations.filter fun d => d.name ∈ f.blacklist).length := by
  simp only [blacklisted_select]
  exact Module.sum_length_of
    ⟨m.name, m.boilerplate, m.declarations.filter fun d => d.name ∈ f.blacklist⟩

/-- The declarations that code is made for, over all categories. -/
def ofModule (m : Module) (f : Filters) (all : Bool) : List Declaration :=
  Category.all.flatMap fun c => (select m c f all).declarations

/-- A selection that is exact: every declaration is selected, blacklisted or elided, and only one of
these. -/
structure Exact (m : Module) (f : Filters) (all : Bool) : Prop where
  /-- The parts hold every declaration, and as often as the module does. -/
  parts : (ofModule m f all ++ (m.declarations.filter fun d => d.name ∈ f.blacklist) ++
    m.declarations.filter fun d => d.Elided m f all).Perm m.declarations
  /-- A selected declaration is in neither of the other parts. -/
  selected_only : ∀ d ∈ ofModule m f all, d.name ∉ f.blacklist ∧ ¬d.Elided m f all
  /-- A declaration on the blacklist is not elided. -/
  blacklisted_only : ∀ d : Declaration, d.name ∈ f.blacklist → ¬d.Elided m f all
  /-- The selected declarations of a category are of this category. -/
  selected_category : ∀ c, ∀ d ∈ (select m c f all).declarations, d.category = c
  /-- The selected declarations of a category are in order. -/
  selected_ordered : ∀ c, (select m c f all).declarations.Sublist m.declarations
  /-- The elided names of a category are in order. -/
  elided_ordered : ∀ c, (select m c f all).elided.Sublist (m.declarations.map (·.name))
  /-- The blacklisted declarations of a category are counted. -/
  blacklisted_category : ∀ c, (select m c f all).blacklisted =
    ((m.of c).filter fun d => d.name ∈ f.blacklist).length
  /-- The blacklisted declarations are counted. -/
  blacklisted_eq : (Category.all.map fun c => (select m c f all).blacklisted).foldr (· + ·) 0 =
    (m.declarations.filter fun d => d.name ∈ f.blacklist).length
  /-- The elided declarations are named. -/
  elided_eq : (Category.all.flatMap fun c => (select m c f all).elided) =
    (m.declarations.filter fun d => d.Elided m f all).map (·.name)

theorem ofModule_perm : (ofModule m f all).Perm
    (m.declarations.filter fun d => d.name ∉ f.blacklist ∧ ¬d.Elided m f all) := by
  unfold ofModule
  simp only [declarations_select]
  exact flatMap_category_perm _

theorem exact_select (m : Module) (f : Filters) (all : Bool) : Exact m f all where
  parts := by
    rw [List.perm_iff_count]
    intro d
    rw [List.count_append, List.count_append, ofModule_perm.count_eq, count_filter_eq_ite,
      count_filter_eq_ite, count_filter_eq_ite]
    by_cases hname : d.name ∈ f.blacklist
    · have helided : ¬d.Elided m f all := fun he => he.2.1 hname
      simp [hname, helided]
    · by_cases helided : d.Elided m f all <;> simp [hname, helided]
  selected_only := by
    intro d hd
    have hd := (List.mem_filter.1 (ofModule_perm.mem_iff.1 hd)).2
    exact of_decide_eq_true hd
  blacklisted_only := fun d hd he => he.2.1 hd
  selected_category := by
    intro c d hd
    rw [declarations_select] at hd
    exact of_decide_eq_true (List.mem_filter.1 hd).2
  selected_ordered := by
    intro c
    rw [declarations_select]
    exact (List.filter_sublist).trans List.filter_sublist
  elided_ordered := by
    intro c
    rw [elided_select]
    exact (List.filter_sublist.trans List.filter_sublist).map _
  blacklisted_category := by
    intro c
    rw [blacklisted_select, filter_of]
  blacklisted_eq := blacklisted_sum
  elided_eq := elided_flatMap

/-! ## Selections under other rules -/

/-- Without details, what is selected is what remains of the selection with them. -/
theorem declarations_false : (select m c f false).declarations =
    (select m c f true).declarations.filter fun d => ¬d.Elided m f false := by
  have htrue : ∀ d : Declaration, ¬d.Elided m f true := fun d he => absurd he.1 (by decide)
  simp only [declarations_select, htrue, not_false_eq_true, and_true]
  rw [List.filter_filter, List.filter_filter, List.filter_filter]
  refine List.filter_congr fun d _ => ?_
  by_cases h : d.Elided m f false <;> simp [h]

/-- What is not selected without details, though it is with them, is elided. -/
theorem elided_false : (select m c f false).elided =
    ((select m c f true).declarations.filter fun d =>
      d ∉ (select m c f false).declarations).map (·.name) := by
  have hleft : ∀ d ∈ (select m c f true).declarations,
      decide (d ∉ (select m c f false).declarations) = decide (d.Elided m f false) := by
    intro d hd
    rw [declarations_false]
    simp [hd]
  have htrue : ∀ d : Declaration, ¬d.Elided m f true := fun d he => absurd he.1 (by decide)
  rw [List.filter_congr hleft, elided_select, declarations_select]
  simp only [htrue, not_false_eq_true, and_true]
  rw [List.filter_filter, List.filter_filter, List.filter_filter]
  refine congrArg (List.map _) (List.filter_congr fun d _ => ?_)
  by_cases h : d.Elided m f false
  · simp [h, h.2.1]
  · simp [h]

theorem elided_true : (select m c f true).elided = [] := by
  rw [elided_select, List.map_eq_nil_iff, List.filter_eq_nil_iff]
  intro d hd
  exact absurd (of_decide_eq_true (List.mem_filter.1 hd).2).1 (by decide)

section Enlarged

variable {f' : Filters} {names : List String}

theorem elided_enlarged_iff
    (h : ∀ name, name ∈ f'.blacklist ↔ name ∈ f.blacklist ∨ name ∈ names) :
    d.Elided m f' all ↔ d.Elided m f all ∧ d.name ∉ names := by
  unfold Declaration.Elided
  rw [h]
  tauto

/-- More names on the blacklist take away the declarations of these names, and no others. -/
theorem declarations_enlarged
    (h : ∀ name, name ∈ f'.blacklist ↔ name ∈ f.blacklist ∨ name ∈ names) :
    (select m c f' all).declarations =
      (select m c f all).declarations.filter fun d => d.name ∉ names := by
  rw [declarations_select, declarations_select, List.filter_filter, List.filter_filter,
    List.filter_filter]
  refine List.filter_congr fun d _ => ?_
  by_cases hname : d.name ∈ names
  · simp [h, hname]
  · simp [h, hname, elided_enlarged_iff h]

theorem elided_enlarged
    (h : ∀ name, name ∈ f'.blacklist ↔ name ∈ f.blacklist ∨ name ∈ names) :
    (select m c f' all).elided = (select m c f all).elided.filter (· ∉ names) := by
  rw [elided_select, elided_select, List.filter_map, List.filter_filter, List.filter_filter,
    List.filter_filter]
  refine congrArg (List.map _) (List.filter_congr fun d _ => ?_)
  by_cases hname : d.name ∈ names
  · simp [hname, elided_enlarged_iff h]
  · simp [hname, elided_enlarged_iff h]

end Enlarged

/-- **Selections are exact and monotone.** Under any rules, every declaration of a module is
selected, blacklisted or elided in its category, and only one of these; the parts are in order, the
blacklisted declarations are those whose name is on the blacklist, and the elided ones are the
details that are not on it. So the selection without details is part of the one with them, and lacks
exactly the elided declarations. And a blacklist with further names takes away from each part the
declarations of these names, and no others. -/
theorem exact_monotone (m : Module) (f : Filters) :
    (∀ all, Exact m f all) ∧
      (∀ c, (select m c f false).declarations.Sublist (select m c f true).declarations ∧
        ((select m c f true).declarations.filter fun d =>
          d ∉ (select m c f false).declarations).map (·.name) = (select m c f false).elided ∧
        (select m c f true).elided = []) ∧
      ∀ (f' : Filters) (names : List String),
        (∀ name, name ∈ f'.blacklist ↔ name ∈ f.blacklist ∨ name ∈ names) →
        ∀ c all,
          (select m c f' all).declarations =
            (select m c f all).declarations.filter (fun d => d.name ∉ names) ∧
          (select m c f' all).elided = (select m c f all).elided.filter (· ∉ names) := by
  refine ⟨exact_select m f, fun c => ⟨?_, elided_false.symm, elided_true⟩, fun f' names h c all =>
    ⟨declarations_enlarged h, elided_enlarged h⟩⟩
  rw [declarations_false]
  exact List.filter_sublist

/-- Two classes and their private records, one of which is in a public field, and an alias. -/
def drawer : Module :=
  ⟨"T", "", [⟨"Pen", none, none, .class_ none [⟨"own", "PenPrivate", true⟩]⟩,
    ⟨"PenPrivate", none, none, .record []⟩,
    ⟨"Cap", none, none, .class_ none [⟨"own", "CapPrivate", false⟩]⟩,
    ⟨"CapPrivate", none, none, .record []⟩, ⟨"Ink", none, none, .record []⟩]⟩

/-- One private record is elided, also if its class is on the blacklist, and the other one is only
left out by its own name. -/
theorem exact_monotone_drawer :
    (Category.all.flatMap fun c => (select drawer c .default false).elided) = ["PenPrivate"] ∧
      (select drawer .record { Filters.default with blacklist := ["Pen", "Ink"] } false).elided =
        ["PenPrivate"] ∧
      (select drawer .record
        { Filters.default with blacklist := ["Pen", "Ink"] } false).declarations.map (·.name) =
          ["CapPrivate"] := by
  obtain ⟨hexact, -, henlarged⟩ := exact_monotone drawer .default
  obtain ⟨hselected, helided⟩ := henlarged { Filters.default with blacklist := ["Pen", "Ink"] }
    ["Pen", "Ink"] (by simp [Filters.default]) .record false
  refine ⟨(hexact false).elided_eq.trans ?_, helided.trans (by decide +kernel), ?_⟩
  · decide +kernel
  · rw [hselected]
    decide +kernel

end Selection

end SwiftBindings
