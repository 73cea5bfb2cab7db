import SwiftBindings.Proofs.Toml.Standing
import SwiftBindings.Proofs.Toml.Suffixes

/-!
# The keys of a document

A key sets a path: that of the table opened last, with the key's parts behind it, and for an entry
in braces with those of its key behind the key of the braces. Where its last part begins is a place
in the document.

* `Key`, `keys`: the keys of a document, in order.
* `Key.StandsIn`: a key is read in a text, as the last part of its path.
* `standsIn_of_mem_keys`: **each key is read where it stands.**
-/

namespace SwiftBindings.Toml

/-- A key as it stands in a document. -/
structure Key where
  /-- The path that it sets, from the top of the document. -/
  path : List String
  /-- What the document holds from the last part of the key on. -/
  text : List Char
  deriving DecidableEq

namespace Key

/-- A key of a table that a path leads to. -/
def under (path : List String) (key : Key) : Key := ⟨path ++ key.path, key.text⟩

/-- Whether the last part of a key is written without quotes. -/
def isPlain (key : Key) : Bool := key.text.head?.any isBare

/-- Whether a key is read in a text, as the last part of its path. -/
structure StandsIn (key : Key) (cs : List Char) : Prop where
  suffix : key.text <:+ cs
  reads : ∃ name rest, readKeyPart key.text = some (name, rest) ∧ key.path.getLast? = some name

end Key

/-- The key of an entry, and the keys of its value behind it. -/
def Entry.keys (e : Entry) (inner : List Key) : List Key :=
  ⟨e.key, e.fromName⟩ :: inner.map (·.under e.key)

mutual

/-- The keys of a value, which has some if it is a table in braces. -/
def keysOfValue : Nat → Nat → List Char → List Key
  | steps + 1, depth + 1, '\x7b' :: rest => keysOfInline steps depth rest
  | _, _, _ => []

/-- The keys of a table in braces. -/
def keysOfInline : Nat → Nat → List Char → List Key
  | 0, _, _ => []
  | steps + 1, depth, cs =>
    match (skipGaps (steps + 1) cs).bind (readInlineEntry steps depth) with
    | none => []
    | some e =>
      e.keys (keysOfValue steps depth e.fromValue) ++
        match skipGaps (steps + 1) e.rest with
        | some (',' :: more) => keysOfInline steps depth more
        | _ => []

end

/-- The keys of a line in the table that a path leads to. -/
def keysOfLine (steps : Nat) (path : List String) (cs : List Char) : Line → List Key
  | .entry _ _ =>
    match readLineEntry steps (skipBlanks cs) with
    | none => []
    | some e => (e.keys (keysOfValue steps maxDepth e.fromValue)).map (·.under path)
  | _ => []

/-- The keys of the lines that are left, `path` leading to the table opened last. -/
def keysOfLines : Nat → List String → List Char → List Key
  | 0, _, _ => []
  | _ + 1, _, [] => []
  | steps + 1, path, cs =>
    match readLine (cs.length + 1) cs with
    | none => []
    | some (line, rest) =>
      keysOfLine (cs.length + 1) path cs line ++ keysOfLines steps (line.pathAfter path) rest

/-- The characters of a document after its byte order mark. -/
def body (text : String) : List Char :=
  match text.toList with
  | c :: rest => if c = Char.ofNat 0xFEFF then rest else c :: rest
  | [] => []

/-- The keys of a document, in order. -/
def keys (text : String) : List Key := keysOfLines ((body text).length + 1) [] (body text)

theorem parse_eq (text : String) :
    parse text = (readLines ((body text).length + 1) ⟨[], []⟩ (body text)).map (·.entries) := rfl

theorem keysOfLines_of_readLine {steps : Nat} {c : Char} {more rest : List Char} {line : Line}
    (h : readLine ((c :: more).length + 1) (c :: more) = some (line, rest)) (path : List String) :
    keysOfLines (steps + 1) path (c :: more) =
      keysOfLine ((c :: more).length + 1) path (c :: more) line ++
        keysOfLines steps (line.pathAfter path) rest := by
  rw [keysOfLines, h]
  exact nofun

theorem body_suffix (text : String) : body text <:+ text.toList := by
  unfold body
  split
  · rename_i htext
    rw [htext]
    split
    · exact List.suffix_cons _ _
    · exact List.suffix_rfl
  · exact List.nil_suffix

variable {steps depth : Nat} {cs rest : List Char} {key : Key}

/-! ## Where keys stand -/

namespace Key.StandsIn

theorem mono {ds : List Char} (h : key.StandsIn cs) (hsuffix : cs <:+ ds) : key.StandsIn ds :=
  ⟨h.suffix.trans hsuffix, h.reads⟩

theorem under (h : key.StandsIn cs) (path : List String) : (key.under path).StandsIn cs := by
  obtain ⟨name, rest, hread, hlast⟩ := h.reads
  refine ⟨h.suffix, name, rest, hread, ?_⟩
  unfold Key.under
  rw [List.getLast?_append, hlast]
  rfl

end Key.StandsIn

theorem lastPart_of_dot {part : String} {afterPart more : List Char}
    (hpart : readKeyPart (skipBlanks cs) = some (part, afterPart))
    (hdot : skipBlanks afterPart = '.' :: more) :
    lastPart (steps + 1) cs = lastPart steps more := by
  rw [lastPart, hpart]
  simp only [hdot]

theorem lastPart_of_not_dot {part : String} {afterPart : List Char}
    (hpart : readKeyPart (skipBlanks cs) = some (part, afterPart))
    (hnot : ∀ more, skipBlanks afterPart = '.' :: more → False) :
    lastPart (steps + 1) cs = skipBlanks cs := by
  rw [lastPart, hpart]
  dsimp only
  split
  · rename_i more hdot
    exact (hnot more hdot).elim
  · rfl

/-- The last part of a key is read where it begins. -/
theorem standsIn_lastPart {path : List String} (h : readKeyParts steps cs = some (path, rest)) :
    Key.StandsIn ⟨path, lastPart steps cs⟩ cs := by
  induction steps generalizing cs path with
  | zero => cases h
  | succ steps ih =>
    unfold readKeyParts at h
    split at h
    · cases h
    · rename_i part afterPart hpart
      split at h
      · rename_i more hdot
        obtain ⟨⟨parts, _⟩, hparts, hpair⟩ := Option.map_eq_some_iff.1 h
        cases hpair
        have hafter : '.' :: more <:+ afterPart := hdot ▸ skipBlanks_suffix afterPart
        have hmore : more <:+ cs := (List.suffix_cons _ _).trans
          (hafter.trans ((readKeyPart_suffix hpart).trans (skipBlanks_suffix cs)))
        rw [lastPart_of_dot hpart hdot]
        exact ((ih hparts).mono hmore).under [part]
      · rename_i hnot
        cases h
        rw [lastPart_of_not_dot hpart hnot]
        exact ⟨skipBlanks_suffix cs, part, afterPart, hpart, rfl⟩

theorem standsIn_of_mem_entryKeys {e : Entry} {inner : List Key}
    (hname : Key.StandsIn ⟨e.key, e.fromName⟩ cs) (hinner : ∀ k ∈ inner, k.StandsIn cs)
    (h : key ∈ e.keys inner) : key.StandsIn cs := by
  rcases List.mem_cons.1 h with rfl | h
  · exact hname
  · obtain ⟨k, hk, rfl⟩ := List.mem_map.1 h
    exact (hinner k hk).under e.key

/-- Only a table in braces has keys. -/
theorem exists_inline_of_mem_keysOfValue (h : key ∈ keysOfValue (steps + 1) depth cs) :
    ∃ inner rest, cs = '\x7b' :: rest ∧ key ∈ keysOfInline steps inner rest := by
  unfold keysOfValue at h
  split at h
  · rename_i hsteps
    cases hsteps
    exact ⟨_, _, rfl, h⟩
  · cases h

/-- The keys of values and of tables in braces stand in what these are read from. -/
theorem standsIn_of_mem_keysOf (steps : Nat) :
    (∀ depth cs, ∀ key ∈ keysOfValue steps depth cs, key.StandsIn cs) ∧
    (∀ depth cs, ∀ key ∈ keysOfInline steps depth cs, key.StandsIn cs) := by
  induction steps with
  | zero =>
    refine ⟨?_, ?_⟩
    · intro depth cs key h
      unfold keysOfValue at h
      cases h
    · intro depth cs key h
      cases h
  | succ steps ih =>
    obtain ⟨ihValue, ihInline⟩ := ih
    refine ⟨?_, ?_⟩
    · intro depth cs key h
      obtain ⟨inner, rest, rfl, hkey⟩ := exists_inline_of_mem_keysOfValue h
      exact (ihInline inner rest key hkey).mono (List.suffix_cons _ _)
    · intro depth cs key h
      unfold keysOfInline at h
      split at h
      · cases h
      · rename_i e hbind
        obtain ⟨start, hstart, hentry⟩ := Option.bind_eq_some_iff.1 hbind
        obtain ⟨_, _, hkey, hname, -⟩ := readInlineEntry_eq_some hentry
        obtain ⟨hvalue, hrest⟩ := readInlineEntry_suffix hentry
        have hgaps := skipGaps_suffix hstart
        rcases List.mem_append.1 h with h | h
        · refine (standsIn_of_mem_entryKeys ?_ (fun k hk => ?_) h).mono hgaps
          · exact hname ▸ standsIn_lastPart (readKey_eq_some hkey)
          · exact (ihValue _ _ k hk).mono hvalue
        · split at h
          · rename_i more hcomma
            have hmore := (List.suffix_cons _ _).trans (skipGaps_suffix hcomma)
            exact (ihInline _ _ key h).mono ((hmore.trans hrest).trans hgaps)
          · cases h

theorem standsIn_of_mem_keysOfLine {path : List String} {line : Line}
    (h : key ∈ keysOfLine steps path cs line) : key.StandsIn cs := by
  unfold keysOfLine at h
  split at h
  · split at h
    · cases h
    · rename_i e hentry
      obtain ⟨k, hk, rfl⟩ := List.mem_map.1 h
      obtain ⟨_, hkey, hname, -⟩ := readLineEntry_eq_some hentry
      have hvalue := (readLineEntry_suffix hentry).1
      have hstands : k.StandsIn (skipBlanks cs) := by
        refine standsIn_of_mem_entryKeys ?_ (fun k hk => ?_) hk
        · exact hname ▸ standsIn_lastPart (readKey_eq_some hkey)
        · exact ((standsIn_of_mem_keysOf steps).1 _ _ k hk).mono hvalue
      exact (hstands.mono (skipBlanks_suffix cs)).under path
  · cases h

theorem standsIn_of_mem_keysOfLines {path : List String} (h : key ∈ keysOfLines steps path cs) :
    key.StandsIn cs := by
  induction steps generalizing path cs with
  | zero => cases h
  | succ steps ih =>
    cases cs with
    | nil => cases h
    | cons c more =>
      unfold keysOfLines at h
      split at h
      · cases h
      · rename_i hline
        rcases List.mem_append.1 h with h | h
        · exact standsIn_of_mem_keysOfLine h
        · exact (ih h).mono (readLine_suffix hline)

/-- **Each key of a document is read where it stands.** -/
theorem standsIn_of_mem_keys {text : String} (h : key ∈ keys text) : key.StandsIn text.toList :=
  (standsIn_of_mem_keysOfLines h).mono (body_suffix text)

end SwiftBindings.Toml
