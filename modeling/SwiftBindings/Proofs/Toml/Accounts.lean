import SwiftBindings.Proofs.Toml.Keys

/-!
# A document accounts for its keys

Reading sets a path only where nothing is said of it yet, so what a document sets has been set by
one key, wherever that key stands: under a header, behind dots or in braces.

* `readWord_isScalar`: what is written without quotes and brackets is no table.
* `KeysAccounted`, `keysAccounted`: values and tables in braces account for the keys in them, by
  induction on the steps.
* `added_grows`, `readLines_grows`: **each line accounts for its keys, and so do all of them.**
* `exists_key_of_set`: **a value that is set has exactly one key.**
-/

namespace SwiftBindings.Toml

variable {steps depth : Nat} {cs rest : List Char} {entries after : Entries} {v : Value}

/-! ## Values -/

/-- Whether a value is neither a table nor an array of tables with headers. -/
def Value.isScalar : Value → Bool
  | .table _ _ => false
  | .array ofTables _ => !ofTables
  | _ => true

/-- A scalar is set by its key and has none in it. -/
theorem Value.grows_of_isScalar (h : v.isScalar = true) :
    Grows (fun _ => .free) v.standing [[]] := by
  have hstanding : ∀ path, v.standing path = if path ≠ [] then .taken else .set := by
    intro path
    cases v with
    | table origin inner => cases h
    | array ofTables items =>
      cases ofTables with
      | true => cases h
      | false => simp [Value.standing, Value.leafStanding, Value.isArrayOfTables]
    | _ => simp [Value.standing, Value.leafStanding, Value.isArrayOfTables]
  intro path
  rw [hstanding path]
  cases path with
  | nil => exact .inr (.inr ⟨rfl, rfl, rfl⟩)
  | cons key rest => exact .inl rfl

/-- The key of a table sets nothing, but those in it do. -/
theorem Grows.table {origin : Origin} {K : List (List String)}
    (h : Grows (Entries.standing []) after.standing K) :
    Grows (fun _ => .free) (Value.table origin after).standing ([] :: K) := by
  intro path
  cases path with
  | nil => exact .inl rfl
  | cons key rest =>
    have hmem : key :: rest ∈ [] :: K ↔ key :: rest ∈ K := by simp
    have hcount : ([] :: K).count (key :: rest) = K.count (key :: rest) :=
      List.count_cons_of_ne (by simp)
    rw [hmem, hcount]
    exact h.of_empty (key :: rest)

theorem isScalar_of_scalar? {word : List Char} (h : scalar? word = some v) : v.isScalar = true := by
  unfold scalar? at h
  split at h
  · cases h
    rfl
  split at h
  · cases h
    rfl
  split at h
  · cases h
    rfl
  · cases h
    rfl
  · split at h
    · cases h
      rfl
    · cases h

/-- What is written without quotes and brackets is no table. -/
theorem readWord_isScalar (h : readWord cs = some (v, rest)) : v.isScalar = true := by
  have hscalar : ∀ {word after : List Char},
      (scalar? word).map (fun v => (v, after)) = some (v, rest) → v.isScalar = true := by
    intro word after hword
    obtain ⟨_, hv, hpair⟩ := Option.map_eq_some_iff.1 hword
    cases hpair
    exact isScalar_of_scalar? hv
  unfold readWord at h
  dsimp only at h
  split at h
  · split at h
    · exact hscalar h
    · exact hscalar h
  · exact hscalar h

theorem keysOfValue_eq_nil (h : ∀ rest, cs ≠ '\x7b' :: rest) : keysOfValue steps depth cs = [] := by
  unfold keysOfValue
  split
  · exact absurd rfl (h _)
  · rfl

/-! ## Entries -/

theorem path_under (path : List String) (K : List Key) :
    (K.map (·.under path)).map (·.path) = (K.map (·.path)).map (path ++ ·) := by
  rw [List.map_map, List.map_map]
  rfl

theorem path_entryKeys (e : Entry) (inner : List Key) :
    (e.keys inner).map (·.path) = ([] :: inner.map (·.path)).map (e.key ++ ·) := by
  unfold Entry.keys
  rw [List.map_cons, path_under, List.map_cons, List.append_nil]

/-- An entry accounts for its key and those of its value. -/
theorem assign?_entry_grows {e : Entry} {inner : List Key}
    (hvalue : Grows (fun _ => .free) e.value.standing ([] :: inner.map (·.path)))
    (h : entries.assign? e.key e.value = some after) :
    Grows entries.standing after.standing ((e.keys inner).map (·.path)) := by
  rw [path_entryKeys]
  exact Entries.assign?_grows h hvalue

/-- Whether everything that is read in a number of steps accounts for its keys: values and the
entries of tables in braces. -/
structure KeysAccounted (steps : Nat) : Prop where
  value : ∀ {depth : Nat} {cs rest : List Char} {v : Value},
    readValue steps depth cs = some (v, rest) →
      Grows (fun _ => .free) v.standing ([] :: (keysOfValue steps depth cs).map (·.path))
  inline : ∀ {depth : Nat} {entries after : Entries} {cs rest : List Char},
    readInline steps depth entries cs = some (after, rest) →
      Grows entries.standing after.standing ((keysOfInline steps depth cs).map (·.path))

namespace KeysAccounted

theorem value_succ (haccounted : KeysAccounted steps)
    (h : readValue (steps + 1) depth cs = some (v, rest)) :
    Grows (fun _ => .free) v.standing ([] :: (keysOfValue (steps + 1) depth cs).map (·.path)) := by
  have hscalar : v.isScalar = true → (∀ rest, cs ≠ '\x7b' :: rest) →
      Grows (fun _ => .free) v.standing
        ([] :: (keysOfValue (steps + 1) depth cs).map (·.path)) := by
    intro hv hcs
    rw [keysOfValue_eq_nil hcs]
    exact Value.grows_of_isScalar hv
  unfold readValue at h
  split at h
  · split at h
    · cases h
    · obtain ⟨⟨_, _⟩, -, hpair⟩ := Option.map_eq_some_iff.1 h
      cases hpair
      exact hscalar rfl (by simp)
  · split at h
    · cases h
    · obtain ⟨⟨_, _⟩, hinline, hpair⟩ := Option.map_eq_some_iff.1 h
      cases hpair
      exact (haccounted.inline hinline).table
  · obtain ⟨⟨_, _⟩, -, hpair⟩ := Option.map_eq_some_iff.1 h
    cases hpair
    exact hscalar rfl (by simp)
  · obtain ⟨⟨_, _⟩, -, hpair⟩ := Option.map_eq_some_iff.1 h
    cases hpair
    exact hscalar rfl (by simp)
  · rename_i hbrace _ _
    exact hscalar (readWord_isScalar h) hbrace

theorem inline_succ (haccounted : KeysAccounted steps)
    (h : readInline (steps + 1) depth entries cs = some (after, rest)) :
    Grows entries.standing after.standing ((keysOfInline (steps + 1) depth cs).map (·.path)) := by
  have hentry : ∀ {start : List Char} {e : Entry} {next : Entries},
      readInlineEntry steps depth start = some e → entries.assign? e.key e.value = some next →
      Grows entries.standing next.standing
        ((e.keys (keysOfValue steps depth e.fromValue)).map (·.path)) := by
    intro start e next he hassign
    obtain ⟨_, _, -, -, -, -, hvalue⟩ := readInlineEntry_eq_some he
    exact assign?_entry_grows (haccounted.value hvalue) hassign
  unfold keysOfInline
  cases inlineRead_of_readInline h with
  | closed hclosed =>
    -- a closing brace begins no key
    have hnone : readInlineEntry steps depth ('\x7d' :: rest) = none := rfl
    simp only [hclosed, Option.bind_some, hnone, List.map_nil]
    exact .refl _
  | last hstart he hassign hclosed =>
    have hkeys := hentry he hassign
    rw [← List.append_nil (Entry.keys _ _)] at hkeys
    simp only [hstart, Option.bind_some, he, hclosed]
    exact hkeys
  | more hstart he hassign hcomma hmore =>
    simp only [hstart, Option.bind_some, he, hcomma, List.map_append]
    exact (hentry he hassign).trans (haccounted.inline hmore)

end KeysAccounted

/-- **What is read accounts for its keys.** -/
theorem keysAccounted (steps : Nat) : KeysAccounted steps := by
  induction steps with
  | zero => exact ⟨nofun, nofun⟩
  | succ steps ih => exact ⟨ih.value_succ, ih.inline_succ⟩

/-! ## Lines -/

/-- **A line accounts for its keys.** -/
theorem added_grows {d next : Document} {line : Line} (hline : LineRead steps cs line rest)
    (h : d.Added line next) :
    Grows d.entries.standing next.entries.standing
      ((keysOfLine steps d.path cs line).map (·.path)) := by
  cases h with
  | blank => exact .refl _
  | table hchange => exact Entries.changeAt?_grows hchange Entries.declareTable?_grows
  | item hchange => exact Entries.changeAt?_grows hchange Entries.declareItem?_grows
  | entry hchange =>
    cases hline with
    | entry hentry _ =>
      obtain ⟨_, -, -, -, hvalue⟩ := readLineEntry_eq_some hentry
      unfold keysOfLine
      simp only [hentry, path_under]
      exact Entries.changeAt?_grows hchange
        (assign?_entry_grows ((keysAccounted steps).value hvalue))

/-- **All lines account for their keys.** -/
theorem readLines_grows {d last : Document} (h : readLines steps d cs = some last) :
    Grows d.entries.standing last.entries.standing
      ((keysOfLines steps d.path cs).map (·.path)) := by
  induction steps generalizing d cs with
  | zero => cases h
  | succ steps ih =>
    cases cs with
    | nil =>
      cases h
      exact .refl _
    | cons c more =>
      unfold readLines at h
      split at h
      · cases h
      · rename_i line rest hline
        split at h
        · cases h
        · rename_i next hadd
          have hadded := Document.added_of_add? hadd
          have hnext := added_grows (lineRead_of_readLine hline) hadded
          rw [keysOfLines_of_readLine hline, List.map_append, ← hadded.path_eq]
          exact hnext.trans (ih h)

/-- The one key of a path is a key of the document and sets the path. -/
theorem mem_keys_of_filter_eq {text : String} {path : List String} {key : Key}
    (h : (keys text).filter (·.path == path) = [key]) : key ∈ keys text ∧ key.path = path := by
  have hkey : key ∈ (keys text).filter (·.path == path) := by
    rw [h]
    exact List.mem_singleton.2 rfl
  exact ⟨(List.mem_filter.1 hkey).1, beq_iff_eq.1 (List.mem_filter.1 hkey).2⟩

/-- **A value that is set has exactly one key.** -/
theorem exists_key_of_set {text : String} {path : List String} (h : parse text = some entries)
    (hset : entries.standing path = .set) :
    ∃ key, (keys text).filter (·.path == path) = [key] := by
  rw [parse_eq] at h
  obtain ⟨last, hlast, rfl⟩ := Option.map_eq_some_iff.1 h
  have hfree : Entries.standing [] path = .free := by
    cases path with
    | nil => cases hset
    | cons key rest => exact Entries.standing_empty key rest
  have hcount : ((keys text).map (·.path)).count path = 1 :=
    (readLines_grows hlast).count_eq_one hfree hset
  rw [List.count, List.countP_map, List.countP_eq_length_filter] at hcount
  exact List.length_eq_one_iff.1 hcount

/-- The key of a value under a header, behind a dot and in braces. -/
example :
    (keys "b = 1\n[a]\nb = 2\nc.d = \x7b b = 3 \x7d\n").filter (·.path == ["a", "c", "d", "b"]) =
      [⟨["a", "c", "d", "b"], "b = 3 \x7d\n".toList⟩] := by
  decide +kernel

end SwiftBindings.Toml
