import Mathlib.Data.Set.Insert
import SwiftBindings.FileStore.Output
import SwiftBindings.Proofs.FileStore.Destination

/-!
# Effects of file operations

An operation on a path changes the file at the path's destination, if anything, and may make
directories. `ChangesOnly L s t` says so of stores `s` before and `t` after: directories stay, and
outside `L` the same files are there with the same bytes.

* `put_spec`: a file put somewhere is there afterwards; without success no file has changed.
* `overwrite_spec`, `append_spec`, `removeStale_spec`: what the operations on output files leave.
* `ChangesOnly.readBytes`: a file whose destination is untouched reads as before.
-/

namespace SwiftBindings.FileStore

variable {s t u : FileStore} {l : Location} {p : Path} {L M : Set Location}

/-- Directories stay, and no file outside `L` is made, changed or removed. -/
structure ChangesOnly (L : Set Location) (s t : FileStore) : Prop where
  grows : s.Grows t
  file : ∀ l bytes, l ∉ L →
    (t.lookup? l = some (.file bytes) ↔ s.lookup? l = some (.file bytes))

namespace ChangesOnly

theorem refl (L : Set Location) (s : FileStore) : ChangesOnly L s s :=
  ⟨Grows.refl s, fun _ _ _ => Iff.rfl⟩

theorem trans (h₁ : ChangesOnly L s t) (h₂ : ChangesOnly L t u) : ChangesOnly L s u :=
  ⟨h₁.grows.trans h₂.grows, fun l b hl => (h₂.file l b hl).trans (h₁.file l b hl)⟩

theorem mono (h : ChangesOnly L s t) (hLM : L ⊆ M) : ChangesOnly M s t :=
  ⟨h.grows, fun l b hl => h.file l b fun hm => hl (hLM hm)⟩

theorem of_empty (h : ChangesOnly ∅ s t) : ChangesOnly L s t := h.mono (Set.empty_subset L)

theorem working (h : ChangesOnly L s t) : t.working = s.working := h.grows.working

/-- A file whose destination is untouched reads as before. -/
theorem readBytes (h : ChangesOnly L s t) (hp : p.destination s.working ∉ L) {bytes : ByteArray}
    (hr : s.readBytes p = .ok bytes) : t.readBytes p = .ok bytes := by
  obtain ⟨l, hl, he⟩ := readBytes_eq_ok_iff.1 hr
  have hd := locate_eq_destination hl
  subst hd
  exact readBytes_eq_ok_iff.2 ⟨_, h.grows.locate hl, (h.file _ _ hp).2 he⟩

end ChangesOnly

@[simp] theorem isOk_ok {α β : Type} (a : α) : (Except.ok a : Except β α).isOk = true := rfl

@[simp] theorem isOk_error {α β : Type} (b : β) : (Except.error b : Except β α).isOk = false := rfl

theorem ne_nil_of_lookup? (h : s.lookup? l ≠ some .directory) : l ≠ [] := by
  rintro rfl
  exact h rfl

/-- A new directory is found at its location, and nothing else changes. -/
theorem lookup?_setDirectory (s : FileStore) (hl : l ≠ []) (l' : Location) :
    (s.setDirectory l).lookup? l' = if l = l' then some .directory else s.lookup? l' := by
  unfold lookup? setDirectory
  by_cases h : l' = []
  · subst h; simp [hl]
  · simp [h]

theorem setDirectory_changesOnly (h : s.lookup? l = none) : ChangesOnly ∅ s (s.setDirectory l) := by
  have hl : l ≠ [] := ne_nil_of_lookup? (s := s) (by simp [h])
  refine ⟨⟨rfl, fun l' hd => ?_⟩, fun l' b _ => ?_⟩
  · rw [lookup?_setDirectory s hl]
    split
    · rfl
    · exact hd
  · rw [lookup?_setDirectory s hl]
    split
    · rename_i he; subst he; simp [h]
    · rfl

theorem setFile_changesOnly (h : s.lookup? l ≠ some .directory) (bytes : ByteArray) :
    ChangesOnly {l} s (s.setFile l bytes) := by
  have hl : l ≠ [] := ne_nil_of_lookup? h
  refine ⟨⟨rfl, fun l' hd => ?_⟩, fun l' b hn => ?_⟩
  · rw [lookup?_setFile s hl, if_neg (by rintro rfl; exact h hd)]
    exact hd
  · rw [lookup?_setFile s hl, if_neg fun he => hn he.symm]

theorem unlink_changesOnly (h : s.lookup? l ≠ some .directory) : ChangesOnly {l} s (s.unlink l) := by
  have hl : l ≠ [] := ne_nil_of_lookup? h
  refine ⟨⟨rfl, fun l' hd => ?_⟩, fun l' b hn => ?_⟩
  · rw [lookup?_unlink s hl, if_neg (by rintro rfl; exact h hd)]
    exact hd
  · rw [lookup?_unlink s hl, if_neg fun he => hn he.symm]

theorem makeDirectory_eq_ok_iff :
    s.makeDirectory p = .ok t ↔
      ∃ l, s.locate p = .ok l ∧ s.lookup? l = none ∧ t = s.setDirectory l := by
  unfold makeDirectory
  cases hl : s.locate p with
  | error e => simp
  | ok l =>
    cases he : s.lookup? l with
    | none => simp [he, eq_comm]
    | some e => simp [he]

theorem makeDirectory_changesOnly (h : s.makeDirectory p = .ok t) : ChangesOnly ∅ s t := by
  obtain ⟨l, -, hn, rfl⟩ := makeDirectory_eq_ok_iff.1 h
  exact setDirectory_changesOnly hn

/-- Making directories changes no file, whether it succeeds or not. -/
theorem makeDirectories_changesOnly (s : FileStore) (dirs : List Path) :
    ChangesOnly ∅ s (s.makeDirectories dirs).2 := by
  induction dirs generalizing s with
  | nil => exact .refl ∅ s
  | cons dir above ih =>
    unfold makeDirectories
    split
    · exact .refl ∅ s
    split
    · rename_i s' h
      exact makeDirectory_changesOnly h
    · have ha := ih s
      split
      · rename_i e s' h
        rw [h] at ha; exact ha
      · rename_i s' h
        rw [h] at ha
        split
        · rename_i s'' h'
          exact ha.trans (makeDirectory_changesOnly h')
        · split <;> exact ha
    · split <;> exact .refl ∅ s

theorem writeBytes_eq_ok_iff {bytes : ByteArray} :
    s.writeBytes p bytes = .ok t ↔
      ∃ l, s.locate p = .ok l ∧ s.lookup? l ≠ some .directory ∧ t = s.setFile l bytes := by
  unfold writeBytes
  cases hl : s.locate p with
  | error e => simp
  | ok l =>
    cases he : s.lookup? l with
    | none => simp [he, eq_comm]
    | some e => cases e <;> simp [he, eq_comm]

/-- **The store after a file is put somewhere.** The file is at the destination of its path;
without success no file has changed. -/
theorem put_spec {bytes : ByteArray} {r : Except FileError Unit} (h : s.put p bytes = (r, t)) :
    ChangesOnly {p.destination s.working} s t ∧
      (r = .ok () → t.locate p = .ok (p.destination s.working) ∧ t.readBytes p = .ok bytes) ∧
      (r ≠ .ok () → ChangesOnly ∅ s t) := by
  -- whatever directories are made first, the write itself is the same
  have hfin : ∀ s', ChangesOnly ∅ s s' → put.finish p bytes s' = (r, t) →
      ChangesOnly {p.destination s.working} s t ∧
        (r = .ok () → t.locate p = .ok (p.destination s.working) ∧ t.readBytes p = .ok bytes) ∧
        (r ≠ .ok () → ChangesOnly ∅ s t) := by
    intro s' hs hf
    unfold put.finish at hf
    cases hw : s'.writeBytes p bytes with
    | error e =>
      rw [hw] at hf
      obtain ⟨rfl, rfl⟩ := Prod.mk.inj hf
      exact ⟨hs.of_empty, fun h => by simp at h, fun _ => hs⟩
    | ok t' =>
      rw [hw] at hf
      obtain ⟨rfl, rfl⟩ := Prod.mk.inj hf
      obtain ⟨l, hl, hd, rfl⟩ := writeBytes_eq_ok_iff.1 hw
      have hdest : l = p.destination s.working := by
        rw [← hs.working]; exact locate_eq_destination hl
      subst hdest
      have hc := setFile_changesOnly hd bytes
      have hloc := hc.grows.locate hl
      refine ⟨hs.of_empty.trans hc, fun _ => ⟨hloc, ?_⟩, fun h => absurd rfl h⟩
      refine readBytes_eq_ok_iff.2 ⟨_, hloc, ?_⟩
      rw [lookup?_setFile s' (ne_nil_of_lookup? hd), if_pos rfl]
  unfold put at h
  split at h
  · exact hfin s (.refl ∅ s) h
  · rename_i dir _
    have hm := makeDirectories_changesOnly s dir.ancestors
    split at h
    · rename_i e s' hd
      rw [hd] at hm
      obtain ⟨rfl, rfl⟩ := Prod.mk.inj h
      exact ⟨hm.of_empty, fun h => by simp at h, fun _ => hm⟩
    · rename_i s' hd
      rw [hd] at hm
      exact hfin s' hm h

variable {preamble content : String} {r : Except FileError Written}

/-- **The store after an overwriting.** -/
theorem overwrite_spec (h : s.overwrite p preamble content = (r, t)) :
    ChangesOnly {p.destination s.working} s t ∧
      (r.isOk → t.readBytes p = .ok (preamble ++ content).toUTF8) ∧
      (¬ r.isOk → ChangesOnly ∅ s t) := by
  unfold overwrite at h
  cases hp : s.put p (preamble ++ content).toUTF8 with
  | mk o s' =>
    obtain ⟨hc, hok, herr⟩ := put_spec hp
    rw [hp] at h
    cases o with
    | error e =>
      obtain ⟨rfl, rfl⟩ := Prod.mk.inj h
      exact ⟨hc, fun h => by simp at h, fun _ => herr (by simp)⟩
    | ok v =>
      obtain ⟨rfl, rfl⟩ := Prod.mk.inj h
      exact ⟨hc, fun _ => (hok rfl).2, fun h => absurd rfl h⟩

/-- **The store after an appending** to a file that reads as a text. -/
theorem append_spec (h : s.append p preamble content = (r, t)) :
    ChangesOnly {p.destination s.working} s t ∧
      (r.isOk → ∀ text : String, s.readBytes p = .ok text.toUTF8 →
        t.readBytes p = .ok (text ++ content).toUTF8) ∧
      (¬ r.isOk → ChangesOnly ∅ s t) := by
  unfold append at h
  split at h
  · cases ht : s.readText p with
    | error e =>
      rw [ht] at h
      obtain ⟨rfl, rfl⟩ := Prod.mk.inj h
      exact ⟨.refl _ s, fun h => by simp at h, fun _ => .refl _ s⟩
    | ok text =>
      rw [ht] at h
      cases hp : s.put p (text ++ content).toUTF8 with
      | mk o s' =>
        obtain ⟨hc, hok, herr⟩ := put_spec hp
        simp only [hp] at h
        cases o with
        | error e =>
          obtain ⟨rfl, rfl⟩ := Prod.mk.inj h
          exact ⟨hc, fun h => by simp at h, fun _ => herr (by simp)⟩
        | ok v =>
          obtain ⟨rfl, rfl⟩ := Prod.mk.inj h
          refine ⟨hc, fun _ text' hr => ?_, fun h => absurd rfl h⟩
          rw [readText_of_readBytes hr] at ht
          obtain rfl := Except.ok.inj ht
          exact (hok rfl).2
  · rename_i hx
    obtain ⟨hc, -, herr⟩ := overwrite_spec h
    refine ⟨hc, fun _ text hr => ?_, herr⟩
    -- a file that can be read is there
    obtain ⟨l, hl, he⟩ := readBytes_eq_ok_iff.1 hr
    have : s.stat p = .ok (.file text.toUTF8) := stat_eq_ok_iff.2 ⟨l, hl, he⟩
    simp [exists?, this] at hx

/-- **The store after a removal.** -/
theorem removeStale_spec {r : Except FileError Bool} (h : s.removeStale p = (r, t)) :
    ChangesOnly {p.destination s.working} s t ∧ (¬ r.isOk → t = s) := by
  unfold removeStale at h
  split at h
  · rename_i s' hr
    obtain ⟨rfl, rfl⟩ := Prod.mk.inj h
    refine ⟨?_, fun h => absurd rfl h⟩
    unfold removeFile at hr
    cases hl : s.locate p with
    | error e => rw [hl] at hr; simp at hr
    | ok l =>
      rw [hl] at hr
      cases he : s.lookup? l with
      | none => simp [he] at hr
      | some e =>
        cases e with
        | directory => simp [he] at hr
        | file b =>
          simp only [he, Except.ok.injEq] at hr
          rw [← hr, ← locate_eq_destination hl]
          exact unlink_changesOnly (by simp [he])
  · obtain ⟨rfl, rfl⟩ := Prod.mk.inj h
    exact ⟨.refl _ s, fun _ => rfl⟩
  · obtain ⟨rfl, rfl⟩ := Prod.mk.inj h
    exact ⟨.refl _ s, fun _ => rfl⟩

end SwiftBindings.FileStore
