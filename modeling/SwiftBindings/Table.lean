/-!
# Insertion-ordered tables

A table keeps its entries in the order in which their keys were first inserted. Inserting a key
again replaces its value in place, and erasing a key keeps the order of the others.

* `find?_insert`, `find?_erase`: what a look-up gives after a change.
* `keys_insert`, `keys_erase`: the keys after a change.
-/

namespace SwiftBindings

/-- Entries in insertion order. -/
structure Table (κ α : Type) where
  entries : List (κ × α)

namespace Table

variable {κ α : Type} [DecidableEq κ]

/-- The table without entries. -/
def empty : Table κ α := ⟨[]⟩

instance : Inhabited (Table κ α) := ⟨empty⟩

/-- The value of the first entry with a key. -/
def lookup (k : κ) : List (κ × α) → Option α
  | [] => none
  | (k', a) :: rest => if k' = k then some a else lookup k rest

/-- The value of a key. -/
def find? (t : Table κ α) (k : κ) : Option α := lookup k t.entries

/-- Whether a table has a key. -/
def contains (t : Table κ α) (k : κ) : Bool := (t.find? k).isSome

/-- Entries with the value of a key replaced, or with a new entry at the end. -/
def insertEntry (k : κ) (a : α) : List (κ × α) → List (κ × α)
  | [] => [(k, a)]
  | (k', a') :: rest => if k' = k then (k', a) :: rest else (k', a') :: insertEntry k a rest

/-- The table with a key set to a value. -/
def insert (t : Table κ α) (k : κ) (a : α) : Table κ α := ⟨insertEntry k a t.entries⟩

/-- The table without a key. -/
def erase (t : Table κ α) (k : κ) : Table κ α := ⟨t.entries.filter fun e => e.1 ≠ k⟩

/-- The value of a key, and the table without the key. -/
def remove (t : Table κ α) (k : κ) : Option α × Table κ α := (t.find? k, t.erase k)

/-- The number of entries. -/
def size (t : Table κ α) : Nat := t.entries.length

/-- The keys in order. -/
def keys (t : Table κ α) : List κ := t.entries.map Prod.fst

/-- The table of a list of entries, inserted one after the other. -/
def ofList (entries : List (κ × α)) : Table κ α :=
  entries.foldl (fun t e => t.insert e.1 e.2) empty

@[simp] theorem find?_empty (k : κ) : (empty : Table κ α).find? k = none := rfl

theorem lookup_insertEntry (k k' : κ) (a : α) (es : List (κ × α)) :
    lookup k' (insertEntry k a es) = if k = k' then some a else lookup k' es := by
  induction es with
  | nil => simp [insertEntry, lookup]
  | cons e rest ih =>
    obtain ⟨k₀, a₀⟩ := e
    by_cases h : k₀ = k
    · subst h
      by_cases h' : k₀ = k' <;> simp [insertEntry, lookup, h']
    · by_cases h' : k₀ = k'
      · subst h'
        simp [insertEntry, lookup, h, Ne.symm h]
      · simp [insertEntry, lookup, h, h', ih]

/-- A look-up after an insertion finds the new value at its key and the old ones elsewhere. -/
@[simp] theorem find?_insert (t : Table κ α) (k k' : κ) (a : α) :
    (t.insert k a).find? k' = if k = k' then some a else t.find? k' :=
  lookup_insertEntry k k' a t.entries

theorem lookup_filter_ne (k k' : κ) (es : List (κ × α)) :
    lookup k' (es.filter fun e => e.1 ≠ k) = if k = k' then none else lookup k' es := by
  induction es with
  | nil => simp [lookup]
  | cons e rest ih =>
    obtain ⟨k₀, a₀⟩ := e
    by_cases h : k₀ = k
    · subst h
      by_cases h' : k₀ = k' <;> simp_all [lookup]
    · by_cases h' : k₀ = k'
      · subst h'
        simp [lookup, h, Ne.symm h]
      · by_cases hk : k = k' <;> simp_all [lookup]

/-- A look-up after an erasure finds nothing at the key and the old values elsewhere. -/
@[simp] theorem find?_erase (t : Table κ α) (k k' : κ) :
    (t.erase k).find? k' = if k = k' then none else t.find? k' :=
  lookup_filter_ne k k' t.entries

theorem lookup_isSome {k : κ} {es : List (κ × α)} :
    (lookup k es).isSome ↔ k ∈ es.map Prod.fst := by
  induction es with
  | nil => simp [lookup]
  | cons e rest ih =>
    obtain ⟨k₀, a₀⟩ := e
    by_cases h : k₀ = k
    · simp [lookup, h]
    · simp [lookup, h, Ne.symm h, ih]

/-- A table contains exactly its keys. -/
theorem contains_iff {t : Table κ α} {k : κ} : t.contains k = true ↔ k ∈ t.keys :=
  lookup_isSome

theorem map_fst_insertEntry (k : κ) (a : α) (es : List (κ × α)) :
    (insertEntry k a es).map Prod.fst =
      if k ∈ es.map Prod.fst then es.map Prod.fst else es.map Prod.fst ++ [k] := by
  induction es with
  | nil => simp [insertEntry]
  | cons e rest ih =>
    obtain ⟨k₀, a₀⟩ := e
    by_cases h : k₀ = k
    · simp [insertEntry, h]
    · by_cases hm : k ∈ rest.map Prod.fst
      · simp [insertEntry, h, ih, hm]
      · simp [insertEntry, h, ih, hm, Ne.symm h]

/-- A key is inserted at the end unless it is there. -/
theorem keys_insert (t : Table κ α) (k : κ) (a : α) :
    (t.insert k a).keys = if k ∈ t.keys then t.keys else t.keys ++ [k] :=
  map_fst_insertEntry k a t.entries

/-- An erasure removes its key and keeps the order of the others. -/
theorem keys_erase (t : Table κ α) (k : κ) : (t.erase k).keys = t.keys.filter (· ≠ k) := by
  simp [erase, keys, List.filter_map, Function.comp_def]

end Table

end SwiftBindings
