import SwiftBindings.Proofs.FileStore.Effect
import SwiftBindings.Run.Writer

/-!
# Steps of a writer

What one step of a writer does to the files and to what it tells. A step that succeeds adds nothing
to the diagnostics and a step that fails adds one, so success can be seen from outside:
`w.Accepts refused chunk` says that nothing is told of the chunk.

* `overwrite_effect`, `send_effect`: the files after a chunk is put into its file or its bucket.
* `closed_write`: writing closes no bucket.
* `prepareBucket_effect`: the files after a bucket is cleared and made anew.
* `write_diagnostics`: what is told is never taken back.
-/

namespace SwiftBindings.Writer

open FileStore

variable {w : Writer} {refused : Bool} {p : Path} {content : String} {chunk : Chunk}

/-- Whether a chunk can be written: nothing is told of it. -/
def Accepts (w : Writer) (refused : Bool) (chunk : Chunk) : Prop :=
  (w.write refused chunk).diagnostics = w.diagnostics

instance (w : Writer) (refused : Bool) (chunk : Chunk) : Decidable (w.Accepts refused chunk) :=
  inferInstanceAs (Decidable (_ = _))

section Record

variable (w : Writer) (stage : Stage) (p : Path) (r : Except FileError Written)

@[simp] theorem record_store : (w.record stage p r).store = w.store := by cases r <;> rfl
@[simp] theorem record_names : (w.record stage p r).names = w.names := by cases r <;> rfl
@[simp] theorem record_preamble : (w.record stage p r).preamble = w.preamble := by cases r <;> rfl
@[simp] theorem record_buckets? : (w.record stage p r).buckets? = w.buckets? := by cases r <;> rfl
@[simp] theorem record_closed : (w.record stage p r).closed = w.closed := by cases r <;> rfl

/-- A failure is told, and nothing else. -/
theorem record_diagnostics :
    (w.record stage p r).diagnostics = w.diagnostics ++
      match r with
      | .ok _ => []
      | .error e => [(Diagnostic.warning stage e.detail).located p] := by
  cases r <;> simp [record, produce, report]

theorem record_diagnostics_eq_iff :
    (w.record stage p r).diagnostics = w.diagnostics ↔ r.isOk := by
  rw [record_diagnostics]
  cases r <;> simp

theorem prefix_record_diagnostics : w.diagnostics <+: (w.record stage p r).diagnostics := by
  rw [record_diagnostics]; exact List.prefix_append _ _

end Record

/-! ## One file -/

theorem overwriteUnless_spec {s t : FileStore} {preamble : String} {r : Except FileError Written}
    (h : overwriteUnless s refused p preamble content = (r, t)) :
    ChangesOnly {p.destination s.working} s t ∧
      (r.isOk → t.readBytes p = .ok (preamble ++ content).toUTF8) ∧
      (¬ r.isOk → ChangesOnly ∅ s t) := by
  unfold overwriteUnless at h
  split at h
  · obtain ⟨rfl, rfl⟩ := Prod.mk.inj h
    exact ⟨.refl _ s, fun h => by simp at h, fun _ => .refl _ s⟩
  · exact overwrite_spec h

theorem appendUnless_spec {s t : FileStore} {preamble : String} {r : Except FileError Written}
    (h : appendUnless s refused p preamble content = (r, t)) :
    ChangesOnly {p.destination s.working} s t ∧
      (r.isOk → ∀ text : String, s.readBytes p = .ok text.toUTF8 →
        t.readBytes p = .ok (text ++ content).toUTF8) ∧
      (¬ r.isOk → ChangesOnly ∅ s t) := by
  unfold appendUnless at h
  split at h
  · obtain ⟨rfl, rfl⟩ := Prod.mk.inj h
    exact ⟨.refl _ s, fun h => by simp at h, fun _ => .refl _ s⟩
  · exact append_spec h

/-- **The files after an overwriting.** The file holds the preamble and the content, or something
is told and no file has changed. -/
theorem overwrite_effect (w : Writer) (refused : Bool) (p : Path) (content : String) :
    ChangesOnly {p.destination w.store.working} w.store (w.overwrite refused p content).store ∧
      ((w.overwrite refused p content).diagnostics = w.diagnostics →
        (w.overwrite refused p content).store.readBytes p =
          .ok (w.preamble ++ content).toUTF8) ∧
      ((w.overwrite refused p content).diagnostics ≠ w.diagnostics →
        ChangesOnly ∅ w.store (w.overwrite refused p content).store) := by
  unfold overwrite
  cases h : overwriteUnless w.store refused p w.preamble content with
  | mk r t =>
    obtain ⟨hc, hok, herr⟩ := overwriteUnless_spec h
    have hd := record_diagnostics_eq_iff { w with store := t } .write p r
    simp only [record_store] at hd ⊢
    exact ⟨hc, fun h => hok (hd.1 h), fun h => herr fun h' => h (hd.2 h')⟩

/-! ## Buckets -/

/-- Content sent to a bucket that takes it. -/
theorem send_of_open {ms : List Bucket} {b : Bucket} (hw : w.buckets? = some ms)
    (hopen : b ∉ w.closed) (refused : Bool) (content : String) :
    w.send refused b content =
      let p := w.names.bucketFile b
      let (outcome, store) :=
        if b ∈ ms then appendUnless w.store refused p w.preamble content
        else overwriteUnless w.store refused p w.preamble content
      let made := if outcome.isOk && !ms.contains b then b :: ms else ms
      { w with store, buckets? := some made }.record .write p outcome := by
  unfold send
  rw [hw]
  simp only [if_neg hopen]

/-- **The files after a bucket gets content.** A bucket that was made, and holds a text, holds the
content behind it; another one holds the preamble and the content. Otherwise something is told and
no file has changed. -/
theorem send_effect {ms : List Bucket} {b : Bucket} (hw : w.buckets? = some ms)
    (hopen : b ∉ w.closed) (refused : Bool) (content : String) :
    ChangesOnly {(w.names.bucketFile b).destination w.store.working} w.store
        (w.send refused b content).store ∧
      ((w.send refused b content).diagnostics = w.diagnostics →
        (∃ ms', (w.send refused b content).buckets? = some ms' ∧ ∀ b', b' ∈ ms' ↔ b' = b ∨ b' ∈ ms) ∧
        (b ∉ ms → (w.send refused b content).store.readBytes (w.names.bucketFile b) =
          .ok (w.preamble ++ content).toUTF8) ∧
        (b ∈ ms → ∀ text : String, w.store.readBytes (w.names.bucketFile b) = .ok text.toUTF8 →
          (w.send refused b content).store.readBytes (w.names.bucketFile b) =
            .ok (text ++ content).toUTF8)) ∧
      ((w.send refused b content).diagnostics ≠ w.diagnostics →
        (w.send refused b content).buckets? = some ms ∧
          ChangesOnly ∅ w.store (w.send refused b content).store) := by
  rw [send_of_open hw hopen]
  simp only
  cases h : (if b ∈ ms then appendUnless w.store refused (w.names.bucketFile b) w.preamble content
      else overwriteUnless w.store refused (w.names.bucketFile b) w.preamble content) with
  | mk r t =>
    generalize hnow : (if (r.isOk && !ms.contains b) = true then b :: ms else ms) = now
    have hd := record_diagnostics_eq_iff { w with store := t, buckets? := some now } .write
      (w.names.bucketFile b) r
    simp only [record_store, record_buckets?] at hd ⊢
    -- a bucket counts as made once it has been written, and not before
    have hms : r.isOk → ∀ b', b' ∈ now ↔ b' = b ∨ b' ∈ ms := by
      subst hnow
      intro hr b'
      rw [hr]
      by_cases hb : b ∈ ms
      · simp only [Bool.true_and, List.contains_eq_mem, hb, decide_true, Bool.not_true,
          Bool.false_eq_true, if_false]
        exact ⟨Or.inr, fun h => h.elim (fun e => e ▸ hb) id⟩
      · simp [hb]
    have hms' : ¬ r.isOk → now = ms := by
      subst hnow
      intro hr
      rw [Bool.not_eq_true] at hr
      simp [hr]
    by_cases hb : b ∈ ms
    · rw [if_pos hb] at h
      obtain ⟨hc, hok, herr⟩ := appendUnless_spec h
      refine ⟨hc, fun h => ⟨⟨_, rfl, hms (hd.1 h)⟩, fun hn => absurd hb hn, fun _ => hok (hd.1 h)⟩,
        fun h => ?_⟩
      have hr : ¬ r.isOk := fun h' => h (hd.2 h')
      exact ⟨by rw [hms' hr], herr hr⟩
    · rw [if_neg hb] at h
      obtain ⟨hc, hok, herr⟩ := overwriteUnless_spec h
      refine ⟨hc, fun h => ⟨⟨_, rfl, hms (hd.1 h)⟩, fun _ => hok (hd.1 h), fun hp => absurd hp hb⟩,
        fun h => ?_⟩
      have hr : ¬ r.isOk := fun h' => h (hd.2 h')
      exact ⟨by rw [hms' hr], herr hr⟩

theorem removeUnless_spec {s t : FileStore} {r : Except FileError Bool}
    (h : removeUnless s refused p = (r, t)) :
    ChangesOnly {p.destination s.working} s t ∧ (¬ r.isOk → t = s) := by
  unfold removeUnless at h
  split at h
  · obtain ⟨rfl, rfl⟩ := Prod.mk.inj h
    exact ⟨.refl _ s, fun _ => rfl⟩
  · exact removeStale_spec h

/-- **The files after a bucket is prepared.** A bucket that is made holds the preamble alone; of
one that is wanted and not made something is told. -/
theorem prepareBucket_effect {create made : Bool} {w' : Writer} {fault : Fault} {b : Bucket}
    (h : w.prepareBucket create fault b = (made, w')) :
    w'.names = w.names ∧ w'.preamble = w.preamble ∧ w'.buckets? = w.buckets? ∧
      w.diagnostics <+: w'.diagnostics ∧
      ChangesOnly {(w.names.bucketFile b).destination w.store.working} w.store w'.store ∧
      (made = true → w'.store.readBytes (w.names.bucketFile b) = .ok w.preamble.toUTF8) ∧
      (create = true → w'.diagnostics = w.diagnostics → made = true) := by
  unfold prepareBucket at h
  cases hr : removeUnless w.store (fault = .removal) (w.names.bucketFile b) with
  | mk r s₁ =>
    obtain ⟨hc₁, -⟩ := removeUnless_spec hr
    simp only [hr] at h
    cases r with
    | error e =>
      obtain ⟨rfl, rfl⟩ := Prod.mk.inj h
      exact ⟨rfl, rfl, rfl, List.prefix_append _ _, hc₁, fun h => absurd h (by simp),
        fun _ h => absurd h (by simp [report])⟩
    | ok _ =>
      cases create with
      | false =>
        obtain ⟨rfl, rfl⟩ := Prod.mk.inj h
        exact ⟨rfl, rfl, rfl, List.prefix_rfl, hc₁, fun h => absurd h (by simp),
          fun h => absurd h (by simp)⟩
      | true =>
        simp only [if_true] at h
        cases ho : overwriteUnless s₁ (fault = .creation) (w.names.bucketFile b) w.preamble "" with
        | mk o s₂ =>
          rw [ho] at h
          obtain ⟨rfl, rfl⟩ := Prod.mk.inj h
          obtain ⟨hc₂, hok, -⟩ := overwriteUnless_spec ho
          rw [hc₁.working] at hc₂
          have hd := record_diagnostics_eq_iff { w with store := s₂ } .configure
            (w.names.bucketFile b) o
          refine ⟨by simp, by simp, by simp, ?_, ?_, fun h => ?_, fun _ h => hd.1 h⟩
          · exact prefix_record_diagnostics { w with store := s₂ } _ _ _
          · simpa using hc₁.trans hc₂
          · simpa using hok h

/-! ## Any chunk -/

@[simp] theorem write_names (w : Writer) (refused : Bool) (chunk : Chunk) :
    (w.write refused chunk).names = w.names := by
  unfold write
  split
  · simp [overwrite]
  · unfold send
    split
    · rfl
    · split <;> simp [report]

@[simp] theorem write_preamble (w : Writer) (refused : Bool) (chunk : Chunk) :
    (w.write refused chunk).preamble = w.preamble := by
  unfold write
  split
  · simp [overwrite]
  · unfold send
    split
    · rfl
    · split <;> simp [report]

/-- **Writing closes no bucket.** -/
@[simp] theorem closed_write (w : Writer) (refused : Bool) (chunk : Chunk) :
    (w.write refused chunk).closed = w.closed := by
  unfold write
  split
  · simp [overwrite]
  · unfold send
    split
    · rfl
    · split <;> simp [report]

/-- **A bucket that is open stays open,** however many chunks are written. -/
theorem closed_writeAll (w : Writer) (ws : List (Chunk × Bool)) :
    (w.writeAll ws).closed = w.closed := by
  induction ws generalizing w with
  | nil => rfl
  | cons e rest ih => exact (ih _).trans (closed_write w e.2 e.1)

/-- What is told is never taken back. -/
theorem write_diagnostics (w : Writer) (refused : Bool) (chunk : Chunk) :
    w.diagnostics <+: (w.write refused chunk).diagnostics := by
  unfold write
  split
  · simp only [overwrite, record_diagnostics]
    exact List.prefix_append _ _
  · unfold send
    split
    · exact List.prefix_append _ _
    · split
      · exact List.prefix_append _ _
      · simp only [record_diagnostics]
        exact List.prefix_append _ _

end SwiftBindings.Writer
