import Mathlib.Data.List.Induction
import SwiftBindings.Proofs.FileStore.Within
import SwiftBindings.Proofs.Run.Delivery

/-!
# Files written by several chunks

A chunk with a file of its own replaces whatever the file holds. So a file holds the last chunk that
was written to it, and which one that is depends on the order of writing. Whether the chunks can be
written at all does not.

* `Writer.Writes`: whether chunks can be written in their order.
* `Writes.perm`: **if they can be written in one order, they can be written in every order.**
* `Writes.readBytes`: **a file holds the last chunk written to it.**
-/

namespace SwiftBindings

open FileStore

/-- Whether a chunk goes to the file at a location. -/
def Chunk.isAt (working l : Location) (chunk : Chunk) : Bool :=
  match chunk.target with
  | .file p => p.destination working = l
  | .bucket _ => false

/-- The last of some chunks that goes to the file at a location. -/
def Chunk.lastAt (working l : Location) (chunks : List Chunk) : Option Chunk :=
  (chunks.filter (Chunk.isAt working l)).getLast?

theorem Chunk.lastAt_append_singleton (working l : Location) (chunks : List Chunk) (chunk : Chunk) :
    lastAt working l (chunks ++ [chunk]) =
      if chunk.isAt working l then some chunk else lastAt working l chunks := by
  unfold lastAt
  rw [List.filter_append]
  by_cases h : chunk.isAt working l <;> simp [h]

theorem Chunk.mem_of_lastAt {working l : Location} {chunks : List Chunk} {chunk : Chunk}
    (h : lastAt working l chunks = some chunk) : chunk ∈ chunks ∧ chunk.isAt working l = true :=
  List.mem_filter.1 (List.mem_of_getLast? h)

/-- Whether chunks have files of their own. -/
def Chunk.OwnFiles (chunks : List Chunk) : Prop := ∀ chunk ∈ chunks, ∃ p, chunk.target = .file p

namespace Writer

variable {w : Writer} {p : Path} {content : String} {chunk : Chunk} {cs ds : List Chunk}
  {t : FileStore}

/-- A writer after chunks have been written in order, none of them refused. -/
def written (w : Writer) (cs : List Chunk) : Writer := w.writeAll (cs.map fun chunk => (chunk, false))

/-- Whether chunks can be written in their order: nothing is told of any of them. -/
def Writes (w : Writer) (cs : List Chunk) : Prop := (w.written cs).diagnostics = w.diagnostics

instance (w : Writer) (cs : List Chunk) : Decidable (w.Writes cs) :=
  inferInstanceAs (Decidable (_ = _))

theorem written_cons (w : Writer) (chunk : Chunk) (cs : List Chunk) :
    w.written (chunk :: cs) = (w.write false chunk).written cs := rfl

theorem written_append (w : Writer) (cs ds : List Chunk) :
    w.written (cs ++ ds) = (w.written cs).written ds := by
  unfold written writeAll
  rw [List.map_append, List.foldl_append]

@[simp] theorem written_preamble (w : Writer) (cs : List Chunk) :
    (w.written cs).preamble = w.preamble := writeAll_preamble w _

/-- Chunks can be written if those before and those behind a cut can. -/
theorem writes_append : w.Writes (cs ++ ds) ↔ w.Writes cs ∧ (w.written cs).Writes ds := by
  unfold Writes
  rw [written_append]
  have h₁ : w.diagnostics <+: (w.written cs).diagnostics := writeAll_diagnostics w _
  have h₂ : (w.written cs).diagnostics <+: ((w.written cs).written ds).diagnostics :=
    writeAll_diagnostics _ _
  constructor
  · intro h
    rw [h] at h₂
    have he := h₁.eq_of_length_le h₂.length_le
    exact ⟨he.symm, by rw [h, ← he]⟩
  · rintro ⟨h, h'⟩
    rw [h', h]

theorem writes_cons :
    w.Writes (chunk :: cs) ↔ w.Accepts false chunk ∧ (w.write false chunk).Writes cs := by
  rw [← List.singleton_append, writes_append]
  rfl

/-! ## One file -/

theorem overwrite_eq_of_put {s : FileStore} {preamble : String} {r : Except FileError Unit}
    (h : s.put p (preamble ++ content).toUTF8 = (r, t)) :
    s.overwrite p preamble content = (r.map fun _ => .created, t) := by
  unfold FileStore.overwrite
  rw [h]
  cases r <;> rfl

/-- A chunk can be written to a file exactly if the file can be put there. -/
theorem accepts_file_iff :
    w.Accepts false ⟨.file p, content⟩ ↔
      w.store.put p (w.preamble ++ content).toUTF8 =
        (.ok (), (w.write false ⟨.file p, content⟩).store) := by
  have hw : w.write false ⟨.file p, content⟩ = w.overwrite false p content := rfl
  unfold Accepts
  rw [hw]
  unfold overwrite overwriteUnless
  cases hp : w.store.put p (w.preamble ++ content).toUTF8 with
  | mk r t =>
    rw [if_neg Bool.false_ne_true, overwrite_eq_of_put hp]
    simp only [record_store]
    rw [record_diagnostics_eq_iff { w with store := t }]
    cases r <;> simp [Except.map]

theorem write_file_effect (w : Writer) (p : Path) (content : String) :
    ChangesOnly {p.destination w.store.working} w.store (w.write false ⟨.file p, content⟩).store ∧
      (w.Accepts false ⟨.file p, content⟩ →
        (w.write false ⟨.file p, content⟩).store.readBytes p =
          .ok (w.preamble ++ content).toUTF8) :=
  have h := overwrite_effect w false p content
  ⟨h.1, h.2.1⟩

theorem within_write (h : w.Accepts false ⟨.file p, content⟩) :
    w.store.Within (w.write false ⟨.file p, content⟩).store :=
  within_of_put (accepts_file_iff.1 h)

/-! ## Several files -/

theorem Writes.within (hw : w.Writes cs) (hf : Chunk.OwnFiles cs) :
    w.store.Within (w.written cs).store := by
  induction cs generalizing w with
  | nil => exact .refl _
  | cons chunk rest ih =>
    obtain ⟨ha, hw⟩ := writes_cons.1 hw
    obtain ⟨target, content⟩ := chunk
    obtain ⟨p, rfl⟩ : ∃ p, target = .file p := hf _ List.mem_cons_self
    rw [written_cons]
    exact (within_write ha).trans (ih hw fun c hc => hf c (List.mem_cons_of_mem _ hc))

/-- **A file holds the last chunk written to it.** -/
theorem Writes.readBytes (hw : w.Writes cs) (hf : Chunk.OwnFiles cs)
    (hm : ∃ chunk ∈ cs, chunk.target = .file p) :
    ∃ a, Chunk.lastAt w.store.working (p.destination w.store.working) cs = some a ∧
      (w.written cs).store.readBytes p = .ok (w.preamble ++ a.content).toUTF8 := by
  induction cs using List.reverseRecOn with
  | nil => simp at hm
  | append_singleton cs chunk ih =>
    obtain ⟨hw₁, hw₂⟩ := writes_append.1 hw
    have hf₁ : Chunk.OwnFiles cs := fun c hc => hf c (List.mem_append_left _ hc)
    have hwork : (w.written cs).store.working = w.store.working := (hw₁.within hf₁).grows.working
    have ha : (w.written cs).Accepts false chunk := (writes_cons.1 hw₂).1
    obtain ⟨target, content⟩ := chunk
    obtain ⟨q, rfl⟩ : ∃ q, target = .file q :=
      hf _ (List.mem_append_right cs (List.mem_singleton_self _))
    obtain ⟨hchange, hread⟩ := write_file_effect (w.written cs) q content
    have hread := hread ha
    rw [hwork] at hchange
    rw [written_append, Chunk.lastAt_append_singleton]
    show ∃ a, _ ∧ ((w.written cs).write false ⟨.file q, content⟩).store.readBytes p = _
    by_cases hd : q.destination w.store.working = p.destination w.store.working
    · -- the new chunk is the last one, and the path leads to its file
      rw [if_pos (by simpa [Chunk.isAt] using hd)]
      refine ⟨_, rfl, ?_⟩
      rw [written_preamble] at hread
      by_cases hq : p = q
      · rw [hq]; exact hread
      · have hm₁ : ∃ chunk ∈ cs, chunk.target = .file p := by
          obtain ⟨c, hc, ht⟩ := hm
          rcases List.mem_append.1 hc with hc | hc
          · exact ⟨c, hc, ht⟩
          · rw [List.mem_singleton.1 hc, Target.file.injEq] at ht
            exact absurd ht.symm hq
        obtain ⟨_, -, hp⟩ := ih hw₁ hf₁ hm₁
        obtain ⟨l, hl, -⟩ := readBytes_eq_ok_iff.1 hp
        obtain ⟨l', hl', hfile⟩ := readBytes_eq_ok_iff.1 hread
        have hp' := hchange.grows.locate hl
        have hsame : l = l' := by
          rw [locate_eq_destination hp', locate_eq_destination hl', hchange.working, hwork, hd]
        exact readBytes_eq_ok_iff.2 ⟨l, hp', by rw [hsame]; exact hfile⟩
    · rw [if_neg (by simpa [Chunk.isAt] using hd)]
      have hm₁ : ∃ chunk ∈ cs, chunk.target = .file p := by
        obtain ⟨c, hc, ht⟩ := hm
        rcases List.mem_append.1 hc with hc | hc
        · exact ⟨c, hc, ht⟩
        · rw [List.mem_singleton.1 hc, Target.file.injEq] at ht
          exact absurd (by rw [ht]) hd
      obtain ⟨a, hlast, hp⟩ := ih hw₁ hf₁ hm₁
      refine ⟨a, hlast, hchange.readBytes ?_ hp⟩
      rw [hwork, Set.mem_singleton_iff]
      exact fun he => hd he.symm

/-- Chunks whose files are in a greater store can be written. -/
theorem writes_of_within (h : w.store.Within t)
    (hc : ∀ chunk ∈ cs, ∃ p bytes, chunk.target = .file p ∧ t.readBytes p = .ok bytes ∧
      w.store.lookup? (p.origin w.store.working) = some .directory) : w.Writes cs := by
  induction cs generalizing w with
  | nil => rfl
  | cons chunk rest ih =>
    obtain ⟨target, content⟩ := chunk
    obtain ⟨p, bytes, rfl, hread, ho⟩ := hc _ List.mem_cons_self
    -- the write succeeds because the greater store has the file, and stays within that store
    obtain ⟨s', hput, hin⟩ := h.put ho hread (w.preamble ++ content).toUTF8
    have ha : w.Accepts false ⟨.file p, content⟩ ∧
        (w.write false ⟨.file p, content⟩).store = s' := by
      have hw : w.write false ⟨.file p, content⟩ = w.overwrite false p content := rfl
      have hstore : (w.overwrite false p content).store = s' := by
        unfold overwrite overwriteUnless
        rw [if_neg Bool.false_ne_true, overwrite_eq_of_put hput]
        simp
      refine ⟨accepts_file_iff.2 ?_, hstore⟩
      rw [hw, hstore, hput]
    obtain ⟨ha, hstore⟩ := ha
    have hg := (within_write ha).grows
    refine writes_cons.2 ⟨ha, ih (by rw [hstore]; exact hin) fun c hm => ?_⟩
    obtain ⟨q, bytes', hq, hread', ho'⟩ := hc c (List.mem_cons_of_mem _ hm)
    refine ⟨q, bytes', hq, hread', ?_⟩
    rw [hg.working]
    exact hg.directory _ ho'

/-- **If chunks can be written in one order, they can be written in every order.** Their paths are
all absolute or all relative. -/
theorem Writes.perm (hw : w.Writes cs) (hf : Chunk.OwnFiles cs) {absolute : Bool}
    (habs : ∀ chunk ∈ cs, ∀ p, chunk.target = .file p → p.isAbsolute = absolute)
    (hp : ds.Perm cs) : w.Writes ds := by
  refine writes_of_within (hw.within hf) fun chunk hm => ?_
  have hm := hp.mem_iff.1 hm
  obtain ⟨p, ht⟩ := hf chunk hm
  obtain ⟨a, -, hread⟩ := hw.readBytes hf ⟨chunk, hm, ht⟩
  refine ⟨p, _, ht, hread, ?_⟩
  -- all paths start where the first one starts
  cases cs with
  | nil => simp at hm
  | cons first rest =>
    obtain ⟨target, content⟩ := first
    obtain ⟨q, rfl⟩ : ∃ q, target = .file q := hf _ List.mem_cons_self
    have ho := lookup?_origin_of_put (accepts_file_iff.1 (writes_cons.1 hw).1)
    have hsame : p.origin w.store.working = q.origin w.store.working := by
      unfold Path.origin
      rw [habs _ hm p ht, habs _ List.mem_cons_self q rfl]
    rw [hsame]
    exact ho

end Writer

end SwiftBindings
