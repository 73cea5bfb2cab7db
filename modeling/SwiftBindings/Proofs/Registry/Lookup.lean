import Mathlib.Data.List.Induction
import Mathlib.Tactic.Common
import SwiftBindings.Registry

/-!
# Look-ups in a registry

A registry has three tables. A declaration is entered into those that hold its category, where it
takes the place of what was entered under its name before; an eviction empties the place of a name
in all three. So what a table has of a name after a module has been registered is what the last of
the module's declarations says that have the name and go to this table, and without one, what the
table had before.

* `knownIn?_register`, `knownIn?_evict`: what one change does to a name in a table.
* `knownIn?_preload`, `knownIn?_evictAll`: **what a module and a list of forgotten names do to it.**
* `isKnown_preload`: the names that are known after a module has been registered.
-/

namespace SwiftBindings

namespace Module

/-- The last declaration of a name whose category is among the given ones. -/
def last? (m : Module) (among : Category → Bool) (name : String) : Option Declaration :=
  (m.declarations.filter fun d => d.name = name ∧ among d.category).getLast?

/-- There is a last declaration of a name if there is one at all. -/
theorem isSome_last? {m : Module} {among : Category → Bool} {name : String} :
    (m.last? among name).isSome ↔
      ∃ d ∈ m.declarations, d.name = name ∧ among d.category = true := by
  unfold last?
  rw [List.getLast?_isSome, ne_eq, List.filter_eq_nil_iff]
  simp

end Module

namespace Registry

/-- A table of a registry. -/
inductive Part where
  | dataTypes
  | records
  | functions
  deriving DecidableEq

/-- Whether declarations of a category are entered into a table. -/
def Part.holds : Part → Category → Bool
  | .dataTypes, c => c ≠ .function
  | .records, c => c = .record ∨ c = .class_
  | .functions, c => c = .function

/-- What a table has of a name. -/
def knownIn? (r : Registry) : Part → String → Option KnownType
  | .dataTypes => r.dataType?
  | .records => r.record?
  | .functions => r.function?

variable (r : Registry) (p : Part)

/-- Every category is entered somewhere. -/
theorem exists_holds (c : Category) : ∃ p : Part, p.holds c = true := by
  by_cases h : c = .function
  · exact ⟨.functions, by simp [Part.holds, h]⟩
  · exact ⟨.dataTypes, by simp [Part.holds, h]⟩

theorem isKnown_iff {name : String} : r.isKnown name = true ↔ ∃ p, (r.knownIn? p name).isSome := by
  constructor
  · intro h
    simp only [isKnown, Bool.or_eq_true] at h
    rcases h with (h | h) | h
    · exact ⟨.dataTypes, h⟩
    · exact ⟨.records, h⟩
    · exact ⟨.functions, h⟩
  · rintro ⟨p, h⟩
    simp only [isKnown, Bool.or_eq_true]
    cases p with
    | dataTypes => exact .inl (.inl h)
    | records => exact .inl (.inr h)
    | functions => exact .inr h

/-- A declaration takes the place of its name in the tables that hold its category. -/
theorem knownIn?_register (d : Declaration) (name : String) :
    (r.register d).knownIn? p name =
      if d.name = name ∧ p.holds d.category then some (.ofDeclaration d) else r.knownIn? p name := by
  obtain ⟨hdata, hrecord, hfunction⟩ := find?_register r d name
  cases p with
  | dataTypes => rw [knownIn?, hdata]; simp [Part.holds, knownIn?, and_comm]
  | records => rw [knownIn?, hrecord]; simp [Part.holds, knownIn?, and_comm]
  | functions => rw [knownIn?, hfunction]; simp [Part.holds, knownIn?, and_comm]

/-- An eviction empties the place of its name in every table. -/
theorem knownIn?_evict (name other : String) :
    (r.evict name).knownIn? p other = if name = other then none else r.knownIn? p other := by
  cases p <;> exact Table.find?_erase ..

/-- **What a table has of a name after a module has been registered:** the last of the module's
declarations of this name that go to the table, else what it had before. -/
theorem knownIn?_preload (m : Module) (name : String) :
    (r.preload m).knownIn? p name =
      ((m.last? p.holds name).map .ofDeclaration).or (r.knownIn? p name) := by
  unfold preload Module.last?
  -- from the end of the module, since what is registered last wins
  induction m.declarations using List.reverseRecOn with
  | nil => rfl
  | append_singleton ds d ih =>
    rw [List.foldl_append, List.foldl_cons, List.foldl_nil, knownIn?_register, ih,
      List.filter_append]
    by_cases h : d.name = name ∧ p.holds d.category = true
    · rw [if_pos h, List.filter_cons_of_pos (by simpa using h), List.filter_nil,
        List.getLast?_append]
      rfl
    · rw [if_neg h, List.filter_cons_of_neg (by simpa using h), List.filter_nil, List.append_nil]

/-- **What a table has of a name after names have been forgotten.** -/
theorem knownIn?_evictAll (names : List String) (name : String) :
    (r.evictAll names).2.knownIn? p name = if name ∈ names then none else r.knownIn? p name := by
  induction names generalizing r with
  | nil => simp [evictAll]
  | cons first rest ih =>
    show ((r.evict first).evictAll rest).2.knownIn? p name = _
    rw [ih, knownIn?_evict]
    by_cases hr : name ∈ rest
    · rw [if_pos hr, if_pos (List.mem_cons_of_mem _ hr)]
    · by_cases hf : first = name
      · rw [if_neg hr, if_pos hf, if_pos (hf ▸ List.mem_cons_self)]
      · rw [if_neg hr, if_neg hf, if_neg (by simp [hr, Ne.symm hf])]

/-- A name is known after a module has been registered if the module declares it or it was known
before. -/
theorem isKnown_preload (m : Module) (name : String) :
    (r.preload m).isKnown name = true ↔
      (∃ d ∈ m.declarations, d.name = name) ∨ r.isKnown name = true := by
  simp only [isKnown_iff, knownIn?_preload, Option.isSome_or, Bool.or_eq_true, Option.isSome_map,
    Module.isSome_last?, exists_or]
  refine or_congr_left ⟨?_, ?_⟩
  · rintro ⟨p, d, hd, hname, -⟩
    exact ⟨d, hd, hname⟩
  · rintro ⟨d, hd, hname⟩
    obtain ⟨p, hp⟩ := exists_holds d.category
    exact ⟨p, d, hd, hname, hp⟩

theorem isKnown_evictAll (names : List String) (name : String) :
    (r.evictAll names).2.isKnown name = true ↔ r.isKnown name = true ∧ name ∉ names := by
  simp only [isKnown_iff, knownIn?_evictAll]
  by_cases h : name ∈ names <;> simp [h]

end Registry

end SwiftBindings
