import Mathlib.Data.List.Induction
import Mathlib.Data.List.Nodup
import SwiftBindings.Table

/-!
# Tables put together

Entries that are inserted into a table one after the other keep the places of the keys that are
there and give them the last values. It makes no difference whether a list of entries is inserted or
the table that was made of it.

* `nodup_keys_insert`, `mem_keys_insert`, `mem_entries_insert`: what one insertion leaves.
* `insertAll`, `keys_insertAll`, `find?_insertAll`: what many leave.
* `mem_of_find?_ofList`: what is found in a table was entered.
* `ofList_append`: **a table of two lists** is that of the first with the table of the second
  inserted.
* `ofList_entries`: a table is made of its entries.
-/

namespace SwiftBindings.Table

variable {κ α : Type} [DecidableEq κ] {t u : Table κ α} {k k' : κ} {a b : α} {e : κ × α}
  {es fs : List (κ × α)}

/-! ## One insertion -/

theorem mem_insertEntry {es : List (κ × α)} (h : e ∈ insertEntry k a es) :
    e = (k, a) ∨ e ∈ es := by
  induction es with
  | nil => exact .inl (List.mem_singleton.1 h)
  | cons first rest ih =>
    obtain ⟨k', a'⟩ := first
    rw [insertEntry] at h
    split at h
    · rename_i hk
      rcases List.mem_cons.1 h with rfl | h
      · exact .inl (by rw [hk])
      · exact .inr (List.mem_cons_of_mem _ h)
    · rcases List.mem_cons.1 h with rfl | h
      · exact .inr List.mem_cons_self
      · exact (ih h).imp_right (List.mem_cons_of_mem _)

/-- An insertion brings in no entry but its own. -/
theorem mem_entries_insert (h : e ∈ (t.insert k a).entries) : e = (k, a) ∨ e ∈ t.entries :=
  mem_insertEntry h

theorem mem_keys_insert {k' : κ} : k' ∈ (t.insert k a).keys ↔ k' = k ∨ k' ∈ t.keys := by
  rw [keys_insert]
  split
  · rename_i hk
    exact ⟨.inr, fun h => h.elim (fun he => he ▸ hk) id⟩
  · rw [List.mem_append, List.mem_singleton, or_comm]

theorem nodup_keys_insert (h : t.keys.Nodup) : (t.insert k a).keys.Nodup := by
  rw [keys_insert]
  split
  · exact h
  · rename_i hk
    rw [List.nodup_append]
    refine ⟨h, List.nodup_singleton k, ?_⟩
    intro k₁ h₁ k₂ h₂ he
    rw [he, List.mem_singleton.1 h₂] at h₁
    exact hk h₁

theorem nodup_keys_erase (h : t.keys.Nodup) : (t.erase k).keys.Nodup := by
  rw [keys_erase]
  exact h.filter _

theorem insertEntry_insertEntry (k : κ) (a b : α) (es : List (κ × α)) :
    insertEntry k b (insertEntry k a es) = insertEntry k b es := by
  induction es with
  | nil => simp [insertEntry]
  | cons e rest ih =>
    obtain ⟨k₀, a₀⟩ := e
    by_cases h : k₀ = k
    · simp [insertEntry, h]
    · simp [insertEntry, h, ih]

/-- The later of two values for a key replaces the earlier. -/
@[simp] theorem insert_insert (t : Table κ α) (k : κ) (a b : α) :
    (t.insert k a).insert k b = t.insert k b :=
  congrArg Table.mk (insertEntry_insertEntry k a b t.entries)

theorem insertEntry_comm (hne : k ≠ k') (hk : k ∈ es.map Prod.fst) :
    insertEntry k a (insertEntry k' b es) = insertEntry k' b (insertEntry k a es) := by
  induction es with
  | nil => simp at hk
  | cons e rest ih =>
    obtain ⟨k₀, a₀⟩ := e
    by_cases h : k₀ = k
    · have hne' : k₀ ≠ k' := fun he => hne (h.symm.trans he)
      simp [insertEntry, h, hne]
    · have hrest : k ∈ rest.map Prod.fst := by
        rw [List.map_cons, List.mem_cons] at hk
        exact hk.resolve_left fun he => h he.symm
      by_cases h' : k₀ = k'
      · simp [insertEntry, h', Ne.symm hne]
      · simp [insertEntry, h, h', ih hrest]

/-- A key that is there keeps its place, so its value can be replaced before another key comes. -/
theorem insert_comm (hne : k ≠ k') (hk : k ∈ t.keys) :
    (t.insert k' b).insert k a = (t.insert k a).insert k' b :=
  congrArg Table.mk (insertEntry_comm hne hk)

/-! ## Many insertions -/

/-- A table with entries inserted one after the other. -/
def insertAll (t : Table κ α) (es : List (κ × α)) : Table κ α :=
  es.foldl (fun t e => t.insert e.1 e.2) t

@[simp] theorem insertAll_nil (t : Table κ α) : t.insertAll [] = t := rfl

@[simp] theorem insertAll_cons (t : Table κ α) (e : κ × α) (es : List (κ × α)) :
    t.insertAll (e :: es) = (t.insert e.1 e.2).insertAll es := rfl

theorem insertAll_append (t : Table κ α) (es fs : List (κ × α)) :
    t.insertAll (es ++ fs) = (t.insertAll es).insertAll fs := List.foldl_append

theorem insertAll_singleton (t : Table κ α) (e : κ × α) :
    t.insertAll [e] = t.insert e.1 e.2 := rfl

theorem ofList_eq_insertAll (es : List (κ × α)) : ofList es = empty.insertAll es := rfl

/-- Insertions bring in no entries but their own. -/
theorem mem_entries_insertAll (h : e ∈ (t.insertAll es).entries) : e ∈ es ∨ e ∈ t.entries := by
  induction es generalizing t with
  | nil => exact .inr h
  | cons first rest ih =>
    rcases ih h with hrest | hinsert
    · exact .inl (List.mem_cons_of_mem _ hrest)
    · rcases mem_entries_insert hinsert with rfl | ht
      · exact .inl List.mem_cons_self
      · exact .inr ht

/-- What is found in a table was entered. -/
theorem mem_of_find?_ofList (h : (ofList es).find? k = some a) : (k, a) ∈ es := by
  have hlookup : ∀ fs : List (κ × α), lookup k fs = some a → (k, a) ∈ fs := by
    intro fs
    induction fs with
    | nil => exact fun h => absurd h (by simp [lookup])
    | cons e rest ih =>
      intro h
      rw [lookup] at h
      split at h
      · rename_i hk
        rw [← hk, ← Option.some.inj h]
        exact List.mem_cons_self
      · exact List.mem_cons_of_mem _ (ih h)
  refine (mem_entries_insertAll (t := empty) (hlookup _ h)).resolve_right ?_
  exact List.not_mem_nil

theorem nodup_keys_insertAll (h : t.keys.Nodup) (es : List (κ × α)) :
    (t.insertAll es).keys.Nodup := by
  induction es generalizing t with
  | nil => exact h
  | cons e rest ih => exact ih (nodup_keys_insert h)

/-- The keys of a table that was made of a list are distinct. -/
theorem nodup_keys_ofList (es : List (κ × α)) : (ofList es).keys.Nodup :=
  nodup_keys_insertAll (t := empty) List.nodup_nil es

/-- The value of a key that is there can be replaced before other keys come. -/
theorem insert_insertAll (hk : k ∈ t.keys) (hes : k ∉ es.map Prod.fst) :
    (t.insertAll es).insert k a = (t.insert k a).insertAll es := by
  induction es generalizing t with
  | nil => rfl
  | cons e rest ih =>
    rw [List.map_cons, List.mem_cons, not_or] at hes
    rw [insertAll_cons, insertAll_cons, ih (mem_keys_insert.2 (.inr hk)) hes.2,
      insert_comm hes.1 hk]

/-- Inserting the entries of a table with one more insertion is inserting those of the table and
then the one. -/
theorem insertAll_insertEntry (t : Table κ α) (hes : (es.map Prod.fst).Nodup) (k : κ) (a : α) :
    t.insertAll (insertEntry k a es) = (t.insertAll es).insert k a := by
  induction es generalizing t with
  | nil => rfl
  | cons e rest ih =>
    obtain ⟨k₀, a₀⟩ := e
    rw [List.map_cons, List.nodup_cons] at hes
    by_cases h : k₀ = k
    · subst h
      rw [insertEntry, if_pos rfl, insertAll_cons, insertAll_cons,
        insert_insertAll (mem_keys_insert.2 (.inl rfl)) hes.1, insert_insert]
    · rw [insertEntry, if_neg h, insertAll_cons, insertAll_cons, ih _ hes.2]

/-- **Inserting a table that was made of a list** is inserting the list. The induction takes entries
off the end of the list. -/
theorem insertAll_entries_ofList (t : Table κ α) (es : List (κ × α)) :
    t.insertAll (ofList es).entries = t.insertAll es := by
  induction es using List.reverseRecOn with
  | nil => rfl
  | append_singleton es e ih =>
    have hlast : ofList (es ++ [e]) = (ofList es).insert e.1 e.2 := by
      rw [ofList_eq_insertAll, insertAll_append]
      rfl
    rw [hlast, insertAll_append, insertAll_singleton, ← ih]
    exact insertAll_insertEntry t (nodup_keys_ofList es) e.1 e.2

/-- **A table of two lists** is that of the first with the table of the second inserted. -/
theorem ofList_append (es fs : List (κ × α)) :
    ofList (es ++ fs) = (ofList es).insertAll (ofList fs).entries := by
  rw [insertAll_entries_ofList, ofList_eq_insertAll, insertAll_append]
  rfl

/-- Keys that are there keep their places, and new ones follow in order. -/
theorem keys_insertAll (hes : (es.map Prod.fst).Nodup) :
    (t.insertAll es).keys = t.keys ++ (es.map Prod.fst).filter (· ∉ t.keys) := by
  induction es generalizing t with
  | nil => simp
  | cons e rest ih =>
    rw [List.map_cons, List.nodup_cons] at hes
    rw [insertAll_cons, ih hes.2, List.map_cons]
    by_cases hk : e.1 ∈ t.keys
    · have hkeys : (t.insert e.1 e.2).keys = t.keys := by rw [keys_insert, if_pos hk]
      rw [hkeys, List.filter_cons_of_neg (by simpa using hk)]
    · have hkeys : (t.insert e.1 e.2).keys = t.keys ++ [e.1] := by rw [keys_insert, if_neg hk]
      -- the key does not come again, so it hides none of the others
      have hrest : (rest.map Prod.fst).filter (· ∉ t.keys ++ [e.1]) =
          (rest.map Prod.fst).filter (· ∉ t.keys) := by
        refine List.filter_congr fun k hmem => ?_
        have hne : k ≠ e.1 := fun he => hes.1 (he ▸ hmem)
        simp [hne]
      rw [hkeys, hrest, List.filter_cons_of_pos (by simpa using hk), List.append_assoc]
      rfl

/-- A key has the value that was inserted last, if one was, and else the one that it had. -/
theorem find?_insertAll (hes : (es.map Prod.fst).Nodup) (k : κ) :
    (t.insertAll es).find? k = (lookup k es).or (t.find? k) := by
  induction es generalizing t with
  | nil => rfl
  | cons e rest ih =>
    obtain ⟨k₀, a₀⟩ := e
    rw [List.map_cons, List.nodup_cons] at hes
    rw [insertAll_cons, ih hes.2, find?_insert, lookup]
    by_cases h : k₀ = k
    · have hnone : lookup k rest = none := by
        rw [← Option.not_isSome_iff_eq_none, lookup_isSome, ← h]
        exact hes.1
      rw [hnone, if_pos h, if_pos h]
      rfl
    · rw [if_neg h, if_neg h]

theorem entries_insert_of_notMem (hk : k ∉ t.keys) :
    (t.insert k a).entries = t.entries ++ [(k, a)] := by
  have hentry : ∀ es : List (κ × α), k ∉ es.map Prod.fst →
      insertEntry k a es = es ++ [(k, a)] := by
    intro es hes
    induction es with
    | nil => rfl
    | cons e rest ih =>
      rw [List.map_cons, List.mem_cons, not_or] at hes
      rw [insertEntry, if_neg fun he => hes.1 he.symm, ih hes.2]
      rfl
  exact hentry t.entries hk

/-- **A table is made of its entries,** if its keys are distinct. -/
theorem ofList_entries (h : t.keys.Nodup) : ofList t.entries = t := by
  have hes : ∀ es : List (κ × α), (es.map Prod.fst).Nodup → (ofList es).entries = es := by
    intro es
    induction es using List.reverseRecOn with
    | nil => exact fun _ => rfl
    | append_singleton es e ih =>
      intro hnodup
      rw [List.map_append, List.nodup_append] at hnodup
      obtain ⟨hfirst, -, hapart⟩ := hnodup
      have hnew : e.1 ∉ (ofList es).keys := by
        intro hmem
        rw [keys, ih hfirst] at hmem
        exact hapart e.1 hmem e.1 (by simp) rfl
      rw [ofList_eq_insertAll, insertAll_append, insertAll_singleton, ← ofList_eq_insertAll,
        entries_insert_of_notMem hnew, ih hfirst]
  exact congrArg Table.mk (hes t.entries h)

end SwiftBindings.Table
