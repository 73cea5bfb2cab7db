import Mathlib.Tactic.Common
import SwiftBindings.Toml.Reader

/-!
# Entries as they are read

The readers give the value of an entry and what follows it. Here an entry also says where the last
part of its key and its value begin, which is what points into a document need.

* `lastPart`: where the last part of a key begins.
* `readInlineEntry`, `readLineEntry`: an entry of a table in braces and one on a line of its own.
* `inlineRead_of_readInline`: **a table in braces is read entry by entry.**
* `Document.added_of_add?`, `lineRead_of_readLine`: **a document goes on line by line**, each of which
  is a header, an entry or nothing.
-/

namespace SwiftBindings.Toml

/-- An entry of a table as it is read. -/
structure Entry where
  key : List String
  /-- What the text holds from the last part of the key on. -/
  fromName : List Char
  /-- What the text holds from the value on. -/
  fromValue : List Char
  value : Value
  rest : List Char

/-- What the text holds from the last part of a key on. -/
def lastPart : Nat → List Char → List Char
  | 0, cs => cs
  | steps + 1, cs =>
    match readKeyPart (skipBlanks cs) with
    | none => skipBlanks cs
    | some (_, rest) =>
      match skipBlanks rest with
      | '.' :: rest => lastPart steps rest
      | _ => skipBlanks cs

/-- An entry of a table in braces. -/
def readInlineEntry (steps depth : Nat) (cs : List Char) : Option Entry :=
  match readKey (steps + 1) cs with
  | none => none
  | some (key, rest) =>
    match skipGaps (steps + 1) rest with
    | some ('=' :: rest) =>
      match skipGaps (steps + 1) rest with
      | none => none
      | some fromValue =>
        (readValue steps depth fromValue).map fun (v, rest) =>
          ⟨key, lastPart (steps + 1) cs, fromValue, v, rest⟩
    | _ => none

/-- An entry on a line of its own. -/
def readLineEntry (steps : Nat) (cs : List Char) : Option Entry :=
  match readKey steps cs with
  | some (key, '=' :: rest) =>
    (readValue steps maxDepth (skipBlanks rest)).map fun (v, after) =>
      ⟨key, lastPart steps cs, skipBlanks rest, v, after⟩
  | _ => none

/-- How the entries of a table in braces are read: none is left, one is left, or there are more. -/
inductive InlineRead (steps depth : Nat) (entries : Entries) (cs : List Char) :
    Entries → List Char → Prop where
  | closed {rest : List Char} (hclosed : skipGaps (steps + 1) cs = some ('\x7d' :: rest)) :
    InlineRead steps depth entries cs entries rest
  | last {start rest : List Char} {e : Entry} {after : Entries}
    (hstart : skipGaps (steps + 1) cs = some start)
    (hentry : readInlineEntry steps depth start = some e)
    (hassign : entries.assign? e.key e.value = some after)
    (hclosed : skipGaps (steps + 1) e.rest = some ('\x7d' :: rest)) :
    InlineRead steps depth entries cs after rest
  | more {start more rest : List Char} {e : Entry} {next after : Entries}
    (hstart : skipGaps (steps + 1) cs = some start)
    (hentry : readInlineEntry steps depth start = some e)
    (hassign : entries.assign? e.key e.value = some next)
    (hcomma : skipGaps (steps + 1) e.rest = some (',' :: more))
    (hmore : readInline steps depth next more = some (after, rest)) :
    InlineRead steps depth entries cs after rest

variable {steps depth : Nat} {entries after : Entries} {cs rest : List Char}

/-- **A table in braces is read entry by entry.** -/
theorem inlineRead_of_readInline
    (h : readInline (steps + 1) depth entries cs = some (after, rest)) :
    InlineRead steps depth entries cs after rest := by
  unfold readInline at h
  split at h
  · cases h
  · rename_i hclosed
    cases h
    exact .closed hclosed
  · rename_i start _ hstart
    split at h
    · cases h
    · rename_i key afterKey hkey
      split at h
      · rename_i afterMark hmark
        cases hgaps : skipGaps (steps + 1) afterMark with
        | none =>
          rw [hgaps] at h
          cases h
        | some fromValue =>
          rw [hgaps, Option.bind_some] at h
          split at h
          · cases h
          · rename_i v afterValue hvalue
            have hentry : readInlineEntry steps depth start =
                some ⟨key, lastPart (steps + 1) start, fromValue, v, afterValue⟩ := by
              unfold readInlineEntry
              simp only [hkey, hmark, hgaps, hvalue, Option.map_some]
            split at h
            · cases h
            · rename_i next hassign
              split at h
              · rename_i hcomma
                exact .more hstart hentry hassign hcomma h
              · rename_i hclosed
                cases h
                exact .last hstart hentry hassign hclosed
              · cases h
      · cases h

/-- The key of an entry in braces was read where the entry begins, and its value where it says. -/
theorem readInlineEntry_eq_some {e : Entry} (h : readInlineEntry steps depth cs = some e) :
    ∃ afterKey afterMark, readKey (steps + 1) cs = some (e.key, afterKey) ∧
      e.fromName = lastPart (steps + 1) cs ∧
      skipGaps (steps + 1) afterKey = some ('=' :: afterMark) ∧
      skipGaps (steps + 1) afterMark = some e.fromValue ∧
      readValue steps depth e.fromValue = some (e.value, e.rest) := by
  unfold readInlineEntry at h
  split at h
  · cases h
  · rename_i hkey
    split at h
    · rename_i hmark
      split at h
      · cases h
      · rename_i hgaps
        obtain ⟨⟨_, _⟩, hvalue, he⟩ := Option.map_eq_some_iff.1 h
        cases he
        exact ⟨_, _, hkey, rfl, hmark, hgaps, hvalue⟩
    · cases h

theorem readLineEntry_eq_some {e : Entry} (h : readLineEntry steps cs = some e) :
    ∃ afterMark, readKey steps cs = some (e.key, '=' :: afterMark) ∧
      e.fromName = lastPart steps cs ∧ e.fromValue = skipBlanks afterMark ∧
      readValue steps maxDepth e.fromValue = some (e.value, e.rest) := by
  unfold readLineEntry at h
  split at h
  · rename_i hkey
    obtain ⟨⟨_, _⟩, hvalue, he⟩ := Option.map_eq_some_iff.1 h
    cases he
    exact ⟨_, hkey, rfl, rfl, hvalue⟩
  · cases h

/-- How a document goes on with a line: an entry is set in the table opened last, and a header opens
a table behind the path that leads to it. -/
inductive Document.Added (d : Document) : Line → Document → Prop where
  | blank : Added d .blank d
  | entry {key : List String} {v : Value} {after : Entries}
    (hchange : d.entries.changeAt? d.path (fun es => es.assign? key v) = some after) :
    Added d (.entry key v) ⟨after, d.path⟩
  | table {path : List String} {key : String} {after : Entries}
    (hchange : d.entries.changeAt? path.dropLast (Entries.declareTable? key) = some after) :
    Added d (.table path) ⟨after, path⟩
  | item {path : List String} {key : String} {after : Entries}
    (hchange : d.entries.changeAt? path.dropLast (Entries.declareItem? key) = some after) :
    Added d (.item path) ⟨after, path⟩

/-- **A document goes on line by line.** -/
theorem Document.added_of_add? {d next : Document} {line : Line} (h : d.add? line = some next) :
    d.Added line next := by
  unfold Document.add? at h
  split at h
  · cases h
    exact .blank
  · obtain ⟨_, hchange, hnext⟩ := Option.map_eq_some_iff.1 h
    cases hnext
    exact .entry hchange
  · split at h
    · cases h
    · obtain ⟨_, hchange, hnext⟩ := Option.map_eq_some_iff.1 h
      cases hnext
      exact .table hchange
  · split at h
    · cases h
    · obtain ⟨_, hchange, hnext⟩ := Option.map_eq_some_iff.1 h
      cases hnext
      exact .item hchange

/-- The path of the table that a line leaves open, `path` being that of the one before. -/
def Line.pathAfter (path : List String) : Line → List String
  | .table opened | .item opened => opened
  | .entry _ _ | .blank => path

theorem Document.Added.path_eq {d next : Document} {line : Line} (h : d.Added line next) :
    next.path = line.pathAfter d.path := by
  cases h <;> rfl

/-- What a line is read from: blanks or a header up to its end, or an entry. -/
inductive LineRead (steps : Nat) (cs : List Char) : Line → List Char → Prop where
  | blank {rest : List Char} (hend : endLine (skipBlanks cs) = some rest) :
    LineRead steps cs .blank rest
  | item {start after rest : List Char} {path : List String}
    (hstart : skipBlanks cs = '[' :: '[' :: start)
    (hkey : readKey steps start = some (path, ']' :: ']' :: after))
    (hend : endLine after = some rest) : LineRead steps cs (.item path) rest
  | table {start after rest : List Char} {path : List String}
    (hstart : skipBlanks cs = '[' :: start)
    (hkey : readKey steps start = some (path, ']' :: after))
    (hend : endLine after = some rest) : LineRead steps cs (.table path) rest
  | entry {rest : List Char} {e : Entry} (hentry : readLineEntry steps (skipBlanks cs) = some e)
    (hend : endLine e.rest = some rest) : LineRead steps cs (.entry e.key e.value) rest

/-- **A line is read as a header, an entry or nothing**, up to its end. -/
theorem lineRead_of_readLine {line : Line} (h : readLine steps cs = some (line, rest)) :
    LineRead steps cs line rest := by
  unfold readLine at h
  split at h
  · rename_i hstart
    split at h
    · rename_i hkey
      obtain ⟨_, hend, hpair⟩ := Option.map_eq_some_iff.1 h
      cases hpair
      exact .item hstart hkey hend
    · cases h
  · rename_i hstart
    split at h
    · rename_i hkey
      obtain ⟨_, hend, hpair⟩ := Option.map_eq_some_iff.1 h
      cases hpair
      exact .table hstart hkey hend
    · cases h
  · split at h
    · rename_i hend
      cases h
      exact .blank hend
    · split at h
      · rename_i key afterMark hkey
        split at h
        · rename_i v afterValue hvalue
          obtain ⟨_, hend, hpair⟩ := Option.map_eq_some_iff.1 h
          cases hpair
          have hentry : readLineEntry steps (skipBlanks cs) =
              some ⟨key, lastPart steps (skipBlanks cs), skipBlanks afterMark, v, afterValue⟩ := by
            unfold readLineEntry
            simp only [hkey, hvalue, Option.map_some]
          exact .entry hentry hend
        · cases h
      · cases h

end SwiftBindings.Toml
