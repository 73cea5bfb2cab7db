import Mathlib.Data.List.Nodup
import SwiftBindings.Command.Check
import SwiftBindings.Proofs.Filters.NameLists
import SwiftBindings.Proofs.Registry.Changes
import SwiftBindings.Proofs.Table.Merge

/-!
# Well-formed registries

Whatever changes a registry goes through, each of its tables has a name once, under the name that
its entry gives, and with a category that goes to the table; and every record is a data type. So the
entries that an eviction takes away can be counted beforehand, and it does not matter in which order
names are evicted.

* `WellFormed`, `wellFormed_after`: **the shape that every change keeps.**
* `table_evictAll`: evicting names leaves all other entries, in order.
* `evictAll_count`: how many of the names were known.
* `evictions_counted`: the count does not depend on the order and is the one that a check tells.
-/

namespace SwiftBindings

namespace Registry

/-- The table that is a part of a registry. -/
def table (r : Registry) : Part → Table String KnownType
  | .dataTypes => r.dataTypes
  | .records => r.records
  | .functions => r.functions

/-- All entries of a registry, table by table. -/
def entries (r : Registry) : List (String × KnownType) :=
  r.dataTypes.entries ++ r.records.entries ++ r.functions.entries

/-- A table that has every name once, under the name that its entry gives, and only with categories
that go to it. -/
structure Part.Fits (p : Part) (t : Table String KnownType) : Prop where
  nodup_keys : t.keys.Nodup
  name_eq : ∀ e ∈ t.entries, e.2.name = e.1
  holds : ∀ e ∈ t.entries, p.holds e.2.category = true

/-- A registry whose tables fit, and whose records are data types as well. -/
structure WellFormed (r : Registry) : Prop where
  fits : ∀ p : Part, p.Fits (r.table p)
  keys_records : r.records.keys ⊆ r.dataTypes.keys

variable {r : Registry} {p : Part} {name : String} {names : List String}

theorem size_eq (r : Registry) : r.size = r.entries.length := by
  unfold size entries
  rw [List.length_append, List.length_append]
  rfl

theorem isSome_knownIn?_iff : (r.knownIn? p name).isSome = true ↔ name ∈ (r.table p).keys := by
  cases p <;> exact Table.contains_iff

/-- A name is known if some table has it. -/
theorem isKnown_iff_mem_keys : r.isKnown name = true ↔ ∃ p, name ∈ (r.table p).keys := by
  rw [isKnown_iff]
  exact exists_congr fun p => isSome_knownIn?_iff

/-! ## The shape that changes keep -/

theorem table_register (r : Registry) (p : Part) (d : Declaration) :
    (r.register d).table p =
      if p.holds d.category then (r.table p).insert d.name (.ofDeclaration d) else r.table p := by
  unfold register
  cases p <;> cases d.category <;> rfl

theorem table_remove (r : Registry) (p : Part) (name : String) :
    (r.remove name).2.table p = (r.table p).erase name := by
  cases p <;> rfl

theorem Part.Fits.insert {t : Table String KnownType} {d : Declaration} (h : p.Fits t)
    (hd : p.holds d.category = true) : p.Fits (t.insert d.name (.ofDeclaration d)) where
  nodup_keys := Table.nodup_keys_insert h.nodup_keys
  name_eq := by
    intro e he
    rcases Table.mem_entries_insert he with rfl | he
    · rfl
    · exact h.name_eq e he
  holds := by
    intro e he
    rcases Table.mem_entries_insert he with rfl | he
    · exact hd
    · exact h.holds e he

theorem Part.Fits.erase {t : Table String KnownType} (h : p.Fits t) (name : String) :
    p.Fits (t.erase name) where
  nodup_keys := Table.nodup_keys_erase h.nodup_keys
  name_eq := fun e he => h.name_eq e (List.mem_of_mem_filter he)
  holds := fun e he => h.holds e (List.mem_of_mem_filter he)

theorem wellFormed_empty : empty.WellFormed where
  fits := by
    intro p
    cases p <;> exact ⟨List.nodup_nil, by simp [table, empty, Table.empty],
      by simp [table, empty, Table.empty]⟩
  keys_records := List.nil_subset _

namespace WellFormed

theorem register (h : r.WellFormed) (d : Declaration) : (r.register d).WellFormed where
  fits := by
    intro p
    rw [table_register]
    split
    · rename_i hd
      exact (h.fits p).insert hd
    · exact h.fits p
  keys_records := by
    show ((r.register d).table .records).keys ⊆ ((r.register d).table .dataTypes).keys
    rw [table_register, table_register]
    by_cases hrecord : Part.records.holds d.category = true
    · -- a record or class is entered into both tables
      have hdata : Part.dataTypes.holds d.category = true := by
        rcases holds_records_iff.1 hrecord with hd | hd <;> rw [hd] <;> rfl
      rw [if_pos hrecord, if_pos hdata]
      intro k hk
      exact Table.mem_keys_insert.2 ((Table.mem_keys_insert.1 hk).imp_right (h.keys_records ·))
    · rw [if_neg hrecord]
      intro k hk
      have hk : k ∈ (r.table .dataTypes).keys := h.keys_records hk
      split
      · exact Table.mem_keys_insert.2 (.inr hk)
      · exact hk

theorem remove (h : r.WellFormed) (name : String) : (r.remove name).2.WellFormed where
  fits := by
    intro p
    rw [table_remove]
    exact (h.fits p).erase name
  keys_records := by
    show ((r.remove name).2.table .records).keys ⊆ ((r.remove name).2.table .dataTypes).keys
    rw [table_remove, table_remove, Table.keys_erase, Table.keys_erase]
    exact List.filter_subset _ h.keys_records

theorem preload (h : r.WellFormed) (m : Module) : (r.preload m).WellFormed := by
  unfold Registry.preload
  induction m.declarations generalizing r with
  | nil => exact h
  | cons d rest ih => exact ih (h.register d)

theorem evictAll (h : r.WellFormed) (names : List String) :
    (r.evictAll names).2.WellFormed := by
  induction names generalizing r with
  | nil => exact h
  | cons name rest ih =>
    rw [evictAll_cons]
    exact ih (h.remove name)

/-- **One change** keeps a registry well-formed. -/
theorem apply (h : r.WellFormed) (change : Change) : (change.apply r).WellFormed := by
  cases change with
  | register d => exact h.register d
  | preload m => exact h.preload m
  | evict name => exact h.remove name
  | evictAll names => exact h.evictAll names

end WellFormed

/-- **Every registry is well-formed,** whatever changes have led to it. -/
theorem wellFormed_after (changes : List Change) : (after changes).WellFormed := by
  unfold after
  induction changes using List.reverseRecOn with
  | nil => exact wellFormed_empty
  | append_singleton changes change ih =>
    rw [List.foldl_append]
    exact ih.apply change

/-! ## What evictions take away -/

/-- **What evictions leave:** the entries of all other names, in order. -/
theorem table_evictAll (r : Registry) (p : Part) (names : List String) :
    ((r.evictAll names).2.table p).entries =
      (r.table p).entries.filter fun e => e.1 ∉ names := by
  induction names generalizing r with
  | nil => simp [evictAll]
  | cons name rest ih =>
    rw [evictAll_cons, ih, table_remove]
    unfold Table.erase
    rw [List.filter_filter]
    refine List.filter_congr fun e _ => ?_
    simp [Bool.and_comm]

theorem entries_evictAll (r : Registry) (names : List String) :
    (r.evictAll names).2.entries = r.entries.filter fun e => e.1 ∉ names := by
  unfold entries
  rw [List.filter_append, List.filter_append]
  exact congrArg₂ _ (congrArg₂ _ (table_evictAll r .dataTypes names)
    (table_evictAll r .records names)) (table_evictAll r .functions names)

/-- Evictions take away as many entries as their names had. -/
theorem size_evictAll (r : Registry) (names : List String) :
    (r.evictAll names).2.size + (r.entries.filter fun e => e.1 ∈ names).length = r.size := by
  rw [size_eq, size_eq, entries_evictAll,
    List.length_eq_length_filter_add (l := r.entries) fun e => e.1 ∈ names, Nat.add_comm]
  simp

/-- **How many names were known,** if they are distinct: an eviction does not touch the others. -/
theorem evictAll_count (r : Registry) (h : names.Nodup) :
    (r.evictAll names).1 = (names.filter r.isKnown).length := by
  induction names generalizing r with
  | nil => rfl
  | cons name rest ih =>
    obtain ⟨hname, hrest⟩ := List.nodup_cons.1 h
    have hkept : rest.filter (r.remove name).2.isKnown = rest.filter r.isKnown := by
      refine List.filter_congr fun other hother => ?_
      rw [remove_eq, isKnown_evict, if_neg]
      rintro rfl
      exact hname hother
    rw [evictAll_cons, ih _ hrest, hkept, remove_eq, List.filter_cons]
    cases r.isKnown name <;> rfl

/-- **Evictions are counted right** in every registry that changes have led to. It is well-formed:
its tables have distinct names, each with an entry of that name and of a category that goes to the
table, and its records are data types. Evicting a name tells whether some table had it, and leaves
the name in no table and all that is known of others. Evicting distinct names, in whatever order,
tells how many of them were known before, and takes away as many entries as they had. This is also
the number that a check tells, which counts the known names of the whitelist and evicts none. -/
theorem evictions_counted (changes : List Change) :
    let r := after changes
    r.WellFormed ∧
      (∀ name,
        ((r.remove name).1 = true ↔ r.isKnown name = true) ∧
        (r.isKnown name = true ↔ ∃ p, name ∈ (r.table p).keys) ∧
        (∀ p, name ∉ ((r.remove name).2.table p).keys) ∧
        ∀ p other, other ≠ name → (r.remove name).2.knownIn? p other = r.knownIn? p other) ∧
      (∀ names order : List String, names.Nodup → order.Perm names →
        (r.evictAll order).1 = (names.filter r.isKnown).length ∧
        (r.evictAll order).2.size + (r.entries.filter fun e => e.1 ∈ names).length = r.size) ∧
      ∀ store dir generateAll moduleName m,
        (checkModule store dir r generateAll moduleName m).evicted =
          (r.evictAll (Filters.load store dir moduleName).1.whitelist).1 := by
  intro r
  refine ⟨wellFormed_after changes, fun name => ⟨?_, isKnown_iff_mem_keys, ?_, ?_⟩, ?_, ?_⟩
  · rw [remove_eq]
  · intro p hmem
    rw [table_remove, Table.keys_erase] at hmem
    exact of_decide_eq_true (List.mem_filter.1 hmem).2 rfl
  · intro p other hother
    rw [remove_eq, knownIn?_evict, if_neg hother.symm]
  · intro names order hnames horder
    have hsame : (fun e : String × KnownType => decide (e.1 ∈ names)) =
        fun e => decide (e.1 ∈ order) := by
      funext e
      exact decide_eq_decide.2 horder.mem_iff.symm
    rw [evictAll_count r (horder.nodup_iff.2 hnames), (horder.filter r.isKnown).length_eq, hsame]
    exact ⟨rfl, size_evictAll r order⟩
  · intro store dir generateAll moduleName m
    rw [evictAll_count r (Filters.namesDistinct_load store dir moduleName).whitelist]
    rfl

/-- A class, a record and a function of one library. -/
def deskChanges : List Change :=
  [.preload ⟨"T", "", [⟨"Pen", none, none, .class_ none []⟩, ⟨"Ink", none, none, .record []⟩,
    ⟨"refill", none, none, .function ⟨[], none⟩⟩]⟩]

/-- Of three names two are known, in whatever order they are evicted, and the three entries that
they have go. -/
theorem evictions_counted_desk :
    ((after deskChanges).evictAll ["refill", "Nib", "Pen"]).1 = 2 ∧
      ((after deskChanges).evictAll ["refill", "Nib", "Pen"]).2.size + 3 = 5 ∧
      ((after deskChanges).remove "Pen").2.knownIn? .records "Ink" =
        some ⟨"Ink", .record, none⟩ := by
  obtain ⟨-, hremove, hcount, -⟩ := evictions_counted deskChanges
  obtain ⟨htold, hsize⟩ := hcount ["Pen", "Nib", "refill"] ["refill", "Nib", "Pen"] (by decide)
    (List.reverse_perm ["Pen", "Nib", "refill"])
  obtain ⟨-, -, -, hkept⟩ := hremove "Pen"
  refine ⟨htold.trans (by decide +kernel), ?_, ?_⟩
  · exact hsize
  · exact (hkept .records "Ink" (by decide)).trans (by decide +kernel)

end Registry

end SwiftBindings
