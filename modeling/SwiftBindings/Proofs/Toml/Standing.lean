import Mathlib.Data.List.Basic
import Mathlib.Data.List.Count
import SwiftBindings.Toml.Value

/-!
# How a table grows

A path of names is free in a table, set to a value that is no table, or taken by something else: a
table, an array of tables, or what would lie below a value. Entries and headers only ever set what
was free, so a table accounts for the keys that were set in it.

* `Standing`, `Entries.standing`: what a table says of a path.
* `Grows`: **what was set was free before, and by one key.**
* `Grows.at_key`: a table grows as the table in it does.
* `assign?_grows`, `changeAt?_grows`: a key that is set, and a change further down.
* `declareTable?_grows`, `declareItem?_grows`: headers set nothing.
-/

namespace SwiftBindings.Toml

/-- What a table says of a path. -/
inductive Standing where
  /-- Nothing yet. -/
  | free
  /-- A value that is no table and holds none with headers. -/
  | set
  /-- Something else, so that the path cannot be set. -/
  | taken
  deriving DecidableEq

/-- Whether a value is an array of tables with headers. -/
def Value.isArrayOfTables : Value → Bool
  | .array true items =>
    match items.getLast? with
    | some (.table _ _) => true
    | _ => false
  | _ => false

/-- What a value says of a path below it, if it is no table. -/
def Value.leafStanding (v : Value) (path : List String) : Standing :=
  if v.isArrayOfTables ∨ path ≠ [] then .taken else .set

/-- What a table says of a path. -/
def Entries.standing (entries : Entries) : List String → Standing
  | [] => .taken
  | key :: rest =>
    match entries.find? key with
    | none => .free
    | some (.table _ inner) => standing inner rest
    | some v => v.leafStanding rest

/-- What a value says of a path below it. -/
def Value.standing : Value → List String → Standing
  | .table _ inner, path => Entries.standing inner path
  | v, path => v.leafStanding path

/-- How what is said of paths changes while keys are set: a path is taken afterwards, or nothing is
said of it that was not said before, or it was free and is set by exactly one key. -/
def Grows (before after : List String → Standing) (keys : List (List String)) : Prop :=
  ∀ path, after path = .taken ∨ (path ∉ keys ∧ after path = before path) ∨
    (before path = .free ∧ after path = .set ∧ keys.count path = 1)

namespace Grows

variable {s t u : List String → Standing} {K L : List (List String)}

theorem refl (s : List String → Standing) : Grows s s [] :=
  fun _ => .inr (.inl ⟨List.not_mem_nil, rfl⟩)

/-- Keys that are set one after another. -/
theorem trans (h : Grows s t K) (h' : Grows t u L) : Grows s u (K ++ L) := by
  intro path
  rcases h' path with htaken | ⟨hL, hsame⟩ | ⟨hfree, hset, hcount⟩
  · exact .inl htaken
  · rcases h path with htaken | ⟨hK, hbefore⟩ | ⟨hfree, hset, hcount⟩
    · exact .inl (hsame.trans htaken)
    · have hnot : path ∉ K ++ L := fun hm => (List.mem_append.1 hm).elim hK hL
      exact .inr (.inl ⟨hnot, hsame.trans hbefore⟩)
    · refine .inr (.inr ⟨hfree, hsame.trans hset, ?_⟩)
      rw [List.count_append, hcount, List.count_eq_zero_of_not_mem hL]
  · rcases h path with htaken | ⟨hK, hbefore⟩ | ⟨_, hbefore, _⟩
    · rw [htaken] at hfree
      cases hfree
    · refine .inr (.inr ⟨hbefore ▸ hfree, hset, ?_⟩)
      rw [List.count_append, hcount, List.count_eq_zero_of_not_mem hK]
    · -- what the first keys set is no longer free for the others
      rw [hbefore] at hfree
      cases hfree

/-- A path that was free and is set at the end has exactly one key. -/
theorem count_eq_one {path : List String} (h : Grows s t K) (hfree : s path = .free)
    (hset : t path = .set) : K.count path = 1 := by
  rcases h path with htaken | ⟨-, hsame⟩ | ⟨-, -, hcount⟩
  · rw [hset] at htaken
    cases htaken
  · rw [hset, hfree] at hsame
    cases hsame
  · exact hcount

end Grows

namespace Entries

variable {entries after : Entries} {key : String} {path : List String} {v : Value}

/-! ## Entries that are added and replaced -/

theorem find?_append (entries : Entries) (key k : String) (v : Value) :
    find? (entries ++ [(key, v)]) k =
      (entries.find? k).or (if k = key then some v else none) := by
  unfold find?
  rw [List.lookup_append]
  by_cases hk : k = key
  · simp [hk]
  · simp [hk, List.lookup_cons, beq_false_of_ne hk]

theorem find?_append_of_ne {k : String} (hk : k ≠ key) :
    find? (entries ++ [(key, v)]) k = entries.find? k := by
  rw [find?_append, if_neg hk, Option.or_none]

theorem find?_append_self (h : entries.find? key = none) :
    find? (entries ++ [(key, v)]) key = some v := by
  rw [find?_append, h, if_pos rfl, Option.none_or]

theorem find?_replace_of_ne {k : String} (hk : k ≠ key) :
    (entries.replace key v).find? k = entries.find? k := by
  unfold find? replace
  induction entries with
  | nil => rfl
  | cons e rest ih =>
    rw [List.map_cons, List.lookup_cons, List.lookup_cons, ih]
    by_cases he : e.1 = key
    · rw [if_pos he, he, beq_false_of_ne hk]
    · rw [if_neg he]

theorem find?_replace_self (h : (entries.find? key).isSome) :
    (entries.replace key v).find? key = some v := by
  unfold find? replace at *
  induction entries with
  | nil => cases h
  | cons e rest ih =>
    rw [List.lookup_cons] at h
    rw [List.map_cons, List.lookup_cons]
    by_cases he : e.1 = key
    · rw [if_pos he]
      simp
    · rw [if_neg he]
      have hne : (key == e.1) = false := by simpa using fun hk => he hk.symm
      rw [hne] at h ⊢
      exact ih h

/-! ## Standing below a key -/

theorem standing_cons_of_none (h : entries.find? key = none) (path : List String) :
    entries.standing (key :: path) = .free := by
  rw [standing, h]

theorem standing_cons_of_some (h : entries.find? key = some v) (path : List String) :
    entries.standing (key :: path) = v.standing path := by
  rw [standing, h]
  cases v <;> rfl

theorem standing_empty (key : String) (path : List String) :
    standing [] (key :: path) = .free := rfl

end Entries

namespace Grows

open Entries (find?_append_of_ne find?_append_self find?_replace_of_ne find?_replace_self)

variable {entries after inner next : Entries} {key : String} {v : Value}
  {s t : List String → Standing} {K : List (List String)}

theorem of_taken (h : ∀ path, t path = .taken) : Grows s t K := fun path => .inl (h path)

/-- A new table grows from nothing. -/
theorem of_empty (h : Grows (Entries.standing []) inner.standing K) :
    Grows (fun _ => .free) inner.standing K := by
  intro path
  cases path with
  | nil => exact .inl rfl
  | cons key rest => exact h (key :: rest)

/-- **A table grows as the value of one key does**, if the other entries stay. -/
theorem at_key (hother : ∀ k, k ≠ key → after.find? k = entries.find? k)
    (hself : after.find? key = some v)
    (hbelow : Grows (fun path => entries.standing (key :: path)) v.standing K) :
    Grows entries.standing after.standing (K.map (key :: ·)) := by
  intro path
  cases path with
  | nil => exact .inl rfl
  | cons k rest =>
    by_cases hk : k = key
    · subst hk
      have hinjective : Function.Injective (k :: · : List String → List String) :=
        fun _ _ h => (List.cons.inj h).2
      rw [Entries.standing_cons_of_some hself, List.mem_map_of_injective hinjective,
        List.count_map_of_injective K _ hinjective]
      exact hbelow rest
    · have hnot : k :: rest ∉ K.map (key :: ·) := by
        intro hm
        obtain ⟨_, -, he⟩ := List.mem_map.1 hm
        exact hk (List.cons.inj he).1.symm
      refine .inr (.inl ⟨hnot, ?_⟩)
      rw [Entries.standing, Entries.standing, hother k hk]

end Grows

/-! ## Changes of tables -/

/-- How a table changes when a table in it does, or becomes one. -/
inductive ChangedBelow (entries : Entries) (key : String) (inner next : Entries) :
    Entries → Prop where
  | new {origin : Origin} (hnone : entries.find? key = none) (hinner : inner = []) :
    ChangedBelow entries key inner next (entries ++ [(key, .table origin next)])
  | table {origin origin' : Origin} (hsome : entries.find? key = some (.table origin inner)) :
    ChangedBelow entries key inner next (entries.replace key (.table origin' next))
  | item {origin : Origin} {items before : List Value}
    (hsome : entries.find? key = some (.array true items)) :
    ChangedBelow entries key inner next
      (entries.replace key (.array true (before ++ [.table origin next])))

namespace ChangedBelow

variable {entries inner next after : Entries} {key : String} {K : List (List String)}

/-- **A table accounts for the keys of the table in it** that changes. -/
theorem grows (h : ChangedBelow entries key inner next after)
    (hinner : Grows inner.standing next.standing K) :
    Grows entries.standing after.standing (K.map (key :: ·)) := by
  cases h with
  | new hnone hempty =>
    subst hempty
    refine .at_key (fun k hk => Entries.find?_append_of_ne hk) (Entries.find?_append_self hnone) ?_
    simp only [Entries.standing_cons_of_none hnone]
    exact hinner.of_empty
  | table hsome =>
    refine .at_key (fun k hk => Entries.find?_replace_of_ne hk)
      (Entries.find?_replace_self (Option.isSome_of_eq_some hsome)) ?_
    simp only [Entries.standing_cons_of_some hsome]
    exact hinner
  | item hsome =>
    refine .at_key (fun k hk => Entries.find?_replace_of_ne hk)
      (Entries.find?_replace_self (Option.isSome_of_eq_some hsome)) (.of_taken fun path => ?_)
    simp [Value.standing, Value.leafStanding, Value.isArrayOfTables]

end ChangedBelow

namespace Entries

variable {entries after : Entries} {key : String} {path rest : List String} {v : Value}
  {K : List (List String)}

theorem changedBelow_of_assign? (h : entries.assign? (key :: rest) v = some after)
    (hrest : rest ≠ []) :
    ∃ inner next, inner.assign? rest v = some next ∧ ChangedBelow entries key inner next after := by
  obtain ⟨second, more, rfl⟩ := List.exists_cons_of_ne_nil hrest
  rw [assign?] at h
  split at h
  · rename_i hnone
    obtain ⟨next, hnext, rfl⟩ := Option.map_eq_some_iff.1 h
    exact ⟨[], next, hnext, .new hnone rfl⟩
  · rename_i hsome
    split at h
    · cases h
    · obtain ⟨next, hnext, rfl⟩ := Option.map_eq_some_iff.1 h
      exact ⟨_, next, hnext, .table hsome⟩
  · rename_i hsome
    split at h
    · split at h
      · cases h
      · obtain ⟨next, hnext, rfl⟩ := Option.map_eq_some_iff.1 h
        exact ⟨_, next, hnext, .item hsome⟩
    · cases h
  · cases h

theorem changedBelow_of_changeAt? {change : Entries → Option Entries}
    (h : entries.changeAt? (key :: rest) change = some after) :
    ∃ inner next, inner.changeAt? rest change = some next ∧
      ChangedBelow entries key inner next after := by
  rw [changeAt?] at h
  split at h
  · rename_i hnone
    obtain ⟨next, hnext, rfl⟩ := Option.map_eq_some_iff.1 h
    exact ⟨[], next, hnext, .new hnone rfl⟩
  · rename_i hsome
    split at h
    · cases h
    · obtain ⟨next, hnext, rfl⟩ := Option.map_eq_some_iff.1 h
      exact ⟨_, next, hnext, .table hsome⟩
  · rename_i hsome
    split at h
    · obtain ⟨next, hnext, rfl⟩ := Option.map_eq_some_iff.1 h
      exact ⟨_, next, hnext, .item hsome⟩
    · cases h
  · cases h

theorem map_cons_map (key : String) (path : List String) (K : List (List String)) :
    (K.map (path ++ ·)).map (key :: ·) = K.map (key :: path ++ ·) := by
  rw [List.map_map]
  rfl

/-- **A key that is set** accounts for itself and for the keys of its value. -/
theorem assign?_grows (h : entries.assign? path v = some after)
    (hv : Grows (fun _ => .free) v.standing K) :
    Grows entries.standing after.standing (K.map (path ++ ·)) := by
  induction path generalizing entries after with
  | nil => cases h
  | cons key rest ih =>
    by_cases hrest : rest = []
    · subst hrest
      rw [assign?] at h
      split at h
      · cases h
      · rename_i hsome
        have hnone : entries.find? key = none := Option.not_isSome_iff_eq_none.1 hsome
        cases h
        refine .at_key (fun k hk => find?_append_of_ne hk) (find?_append_self hnone) ?_
        simp only [standing_cons_of_none hnone]
        exact hv
    · obtain ⟨inner, next, hnext, hbelow⟩ := changedBelow_of_assign? h hrest
      rw [← map_cons_map]
      exact hbelow.grows (ih hnext)

/-- **A change further down** accounts for its keys behind the path that leads to it. -/
theorem changeAt?_grows {change : Entries → Option Entries}
    (h : entries.changeAt? path change = some after)
    (hchange : ∀ {inner next : Entries}, change inner = some next →
      Grows inner.standing next.standing K) :
    Grows entries.standing after.standing (K.map (path ++ ·)) := by
  induction path generalizing entries after with
  | nil =>
    rw [changeAt?] at h
    simpa using hchange h
  | cons key rest ih =>
    obtain ⟨inner, next, hnext, hbelow⟩ := changedBelow_of_changeAt? h
    rw [← map_cons_map]
    exact hbelow.grows (ih hnext)

/-! ## Headers -/

/-- The header of a table sets nothing. -/
theorem declareTable?_grows (h : declareTable? key entries = some after) :
    Grows entries.standing after.standing [] := by
  have hnothing : ∀ {inner : Entries}, ChangedBelow entries key inner inner after →
      Grows entries.standing after.standing [] := fun hbelow => hbelow.grows (.refl _)
  unfold declareTable? at h
  split at h
  · rename_i hnone
    cases h
    exact hnothing (.new hnone rfl)
  · rename_i hsome
    cases h
    exact hnothing (.table hsome)
  · cases h

/-- The header of an item of an array of tables sets nothing. -/
theorem declareItem?_grows (h : declareItem? key entries = some after) :
    Grows entries.standing after.standing [] := by
  have hnothing : ∀ items : List Value,
      (∀ k, k ≠ key → after.find? k = entries.find? k) →
      after.find? key = some (.array true (items ++ [.table .header []])) →
      Grows entries.standing after.standing [] := by
    intro items hother hself
    refine Grows.at_key hother hself (K := []) (.of_taken fun path => ?_)
    simp [Value.standing, Value.leafStanding, Value.isArrayOfTables]
  unfold declareItem? at h
  split at h
  · rename_i hnone
    cases h
    exact hnothing [] (fun k hk => find?_append_of_ne hk) (find?_append_self hnone)
  · rename_i hsome
    cases h
    exact hnothing _ (fun k hk => find?_replace_of_ne hk)
      (find?_replace_self (Option.isSome_of_eq_some hsome))
  · cases h

end Entries

end SwiftBindings.Toml
