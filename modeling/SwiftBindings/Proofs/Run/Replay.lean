import Mathlib.Order.BooleanAlgebra.Set
import SwiftBindings.Proofs.FileStore.Settle
import SwiftBindings.Proofs.Run.Attempts
import SwiftBindings.Proofs.Run.Buckets

/-!
# Two writers side by side

Two writers do the same work on stores that differ in some files. As long as all goes well they tell
the same and list the same files, and a file in which the stores differ is the same once both have
written it. Only appending reads what is there, and it is kept to buckets that the writers have
written before. `Writer.Replays` is the invariant that carries the argument.

* `write_of_succeeds`, `prepareBucket_of_succeeds`: a writer after a step that succeeds.
* `Replays.write`, `Replays.prepareBucket`: **one step of both writers.**
* `Replays.writeAll`, `Replays.prepare`: all chunks, and all buckets that are wanted.
* `prepare_clears`: buckets that are not wanted.
-/

namespace SwiftBindings.Writer

open FileStore

variable {w w₁ w₂ w₁' w₂' : Writer} {D : Set Location} {chunk : Chunk} {refused : Bool}
  {fault : Fault} {b : Bucket} {p : Path} {bytes : ByteArray} {preamble content : String}
  {s t : FileStore} {ps : List (Bucket × Fault)}

/-! ## Steps that succeed -/

theorem overwriteUnless_settles {r : Except FileError Written}
    (h : overwriteUnless s refused p preamble content = (r, t)) (hr : r.isOk = true) :
    Settles p (preamble ++ content).toUTF8 s t := by
  unfold overwriteUnless at h
  split at h
  · obtain ⟨rfl, -⟩ := Prod.mk.inj h
    simp at hr
  · exact overwrite_settles h hr

theorem appendUnless_settles {r : Except FileError Written}
    (h : appendUnless s refused p preamble content = (r, t)) (hr : r.isOk = true)
    (hread : s.readBytes p = .ok bytes) :
    ∃ text, s.readText p = .ok text ∧ Settles p (text ++ content).toUTF8 s t := by
  unfold appendUnless at h
  split at h
  · obtain ⟨rfl, -⟩ := Prod.mk.inj h
    simp at hr
  · exact append_settles h hr hread

theorem removeUnless_clears {r : Except FileError Bool} (h : removeUnless s refused p = (r, t))
    (hr : r.isOk = true) : Clears {l | s.locate p = .ok l} s t := by
  unfold removeUnless at h
  split at h
  · obtain ⟨rfl, -⟩ := Prod.mk.inj h
    simp at hr
  · exact removeStale_clears h hr

/-- What stands before a chunk in its file once it has been written. -/
def base (w : Writer) : Target → Except Failure String
  | .file _ => .ok w.preamble
  | .bucket b =>
    if b ∈ w.buckets?.getD [] then w.store.readText (w.names.bucketFile b) else .ok w.preamble

/-- The buckets that are made once a chunk has been written. -/
def marked (w : Writer) : Target → Option (List Bucket)
  | .file _ => w.buckets?
  | .bucket b => w.buckets?.map fun made => if !made.contains b then b :: made else made

theorem mem_marked {target : Target} (h : b ∈ (w.marked target).getD []) :
    b ∈ w.buckets?.getD [] ∨ target = .bucket b := by
  cases target with
  | file p => exact .inl h
  | bucket b' =>
    unfold marked at h
    cases hb : w.buckets? with
    | none =>
      rw [hb] at h
      simp at h
    | some made =>
      rw [hb] at h
      simp only [Option.map_some, Option.getD_some] at h ⊢
      split at h
      · rcases List.mem_cons.1 h with rfl | h
        · exact .inr rfl
        · exact .inl h
      · exact .inl h

/-- Whether the files of the buckets that a writer has made are there. -/
def Readable (w : Writer) : Prop :=
  ∀ b ∈ w.buckets?.getD [], ∃ bytes, w.store.readBytes (w.names.bucketFile b) = .ok bytes

/-- Putting a file somewhere keeps the buckets there. One that is new is that file. -/
theorem Readable.settle {w' : Writer} (h : w.Readable) (hset : Settles p bytes w.store w'.store)
    (hn : w'.names = w.names)
    (hb : ∀ b ∈ w'.buckets?.getD [], b ∈ w.buckets?.getD [] ∨ p = w.names.bucketFile b) :
    w'.Readable := by
  intro b hm
  rw [hn]
  rcases hb b hm with hold | rfl
  · obtain ⟨bytes', hbytes'⟩ := h b hold
    exact hset.within.readBytes hbytes'
  · exact ⟨bytes, hset.holds⟩

/-- **A writer after a chunk that is written with success.** -/
theorem write_of_succeeds (h : w.Serves chunk) (hread : w.Readable)
    (hok : (w.attempt refused chunk).succeeds = true) :
    w.write refused chunk =
        { w with
          store := (w.write refused chunk).store
          buckets? := w.marked chunk.target
          files := PathSet.insert (w.names.pathOf chunk.target) w.files } ∧
      ∃ text, w.base chunk.target = .ok text ∧
        Settles (w.names.pathOf chunk.target) (text ++ chunk.content).toUTF8 w.store
          (w.write refused chunk).store := by
  obtain ⟨target, content⟩ := chunk
  unfold attempt Attempt.succeeds answer at hok
  cases target with
  | file p =>
    have hw : w.write refused ⟨.file p, content⟩ = w.overwrite refused p content := rfl
    rw [hw]
    unfold overwrite
    simp only [FileNames.pathOf] at hok ⊢
    cases ho : overwriteUnless w.store refused p w.preamble content with
    | mk r t =>
      rw [ho] at hok
      cases r with
      | error e => simp at hok
      | ok v => exact ⟨rfl, w.preamble, rfl, overwriteUnless_settles ho rfl⟩
  | bucket b =>
    obtain ⟨hsome, hopen⟩ := h b rfl
    obtain ⟨made, hmade⟩ := Option.isSome_iff_exists.1 hsome
    have hw : w.write refused ⟨.bucket b, content⟩ = w.send refused b content := rfl
    rw [hw, send_of_open hmade hopen]
    unfold base marked
    unfold Readable at hread
    rw [hmade] at hok hread ⊢
    simp only [FileNames.pathOf, Option.getD_some, Option.map_some] at hok hread ⊢
    by_cases hb : b ∈ made
    · -- the bucket has been made, and is read
      obtain ⟨bytes, hbytes⟩ := hread b hb
      simp only [if_pos hb] at hok ⊢
      cases ho : appendUnless w.store refused (w.names.bucketFile b) w.preamble content with
      | mk r t =>
        rw [ho] at hok
        cases r with
        | error e => simp at hok
        | ok v => exact ⟨by simp [record, produce], appendUnless_settles ho rfl hbytes⟩
    · simp only [if_neg hb] at hok ⊢
      cases ho : overwriteUnless w.store refused (w.names.bucketFile b) w.preamble content with
      | mk r t =>
        rw [ho] at hok
        cases r with
        | error e => simp at hok
        | ok v =>
          exact ⟨by simp [record, produce], w.preamble, rfl, overwriteUnless_settles ho rfl⟩

theorem Readable.write (h : w.Readable) (hs : w.Serves chunk)
    (hok : (w.attempt refused chunk).succeeds = true) : (w.write refused chunk).Readable := by
  obtain ⟨hw, text, -, hset⟩ := write_of_succeeds hs h hok
  refine h.settle hset (write_names w refused chunk) fun b hb => ?_
  rw [hw] at hb
  exact (mem_marked hb).imp_right fun ht => by rw [ht]; rfl

/-- **The files of chunks that are written with success** are there, and so are all that were. -/
theorem Readable.writeAll {ws : List (Chunk × Bool)} (h : w.Readable)
    (hs : ∀ e ∈ ws, w.Serves e.1) (hok : ∀ a ∈ w.attempts ws, a.succeeds = true) :
    w.store.Within (w.writeAll ws).store ∧
      ∀ e ∈ ws, ∃ bytes,
        (w.writeAll ws).store.readBytes (w.names.pathOf e.1.target) = .ok bytes := by
  induction ws generalizing w with
  | nil => exact ⟨.refl w.store, fun e he => absurd he List.not_mem_nil⟩
  | cons e rest ih =>
    obtain ⟨chunk, refused⟩ := e
    have hchunk := hs (chunk, refused) List.mem_cons_self
    have hfirst := hok _ List.mem_cons_self
    obtain ⟨-, text, -, hset⟩ := write_of_succeeds hchunk h hfirst
    obtain ⟨hwithin, hrest⟩ := ih (h.write hchunk hfirst) (serves_write hs)
      fun a ha => hok a (List.mem_cons_of_mem _ ha)
    refine ⟨hset.within.trans hwithin, fun e he => ?_⟩
    rcases List.mem_cons.1 he with rfl | he
    · exact hwithin.readBytes hset.holds
    · rw [write_names] at hrest
      exact hrest e he

/-- **A writer after a bucket that is wanted and prepared with success.** -/
theorem prepareBucket_of_succeeds
    (hok : ∀ a ∈ w.preparing true fault b, a.succeeds = true) :
    w.prepareBucket true fault b = (true,
        { w with
          store := (w.prepareBucket true fault b).2.store
          files := PathSet.insert (w.names.bucketFile b) w.files }) ∧
      Settles (w.names.bucketFile b) (w.preamble ++ "").toUTF8 w.store
        (w.prepareBucket true fault b).2.store := by
  unfold preparing at hok
  unfold prepareBucket
  cases hr : removeUnless w.store (fault = .removal) (w.names.bucketFile b) with
  | mk r s₁ =>
    cases r with
    | error e =>
      simp only [hr] at hok
      exact absurd (hok _ (List.mem_singleton_self _)) (by simp [Attempt.succeeds])
    | ok v =>
      simp only [hr, if_true, List.mem_singleton, forall_eq, Attempt.succeeds] at hok ⊢
      cases ho : overwriteUnless s₁ (fault = .creation) (w.names.bucketFile b) w.preamble "" with
      | mk o s₂ =>
        rw [ho] at hok
        cases o with
        | error e => simp at hok
        | ok v' =>
          exact ⟨rfl, (removeUnless_clears hr rfl).settles (removeUnless_spec hr).1
            (overwriteUnless_settles ho rfl)⟩

/-! ## Two writers -/

/-- Two writers that have done the same with success, on stores that differ in files at `D`: all but
the stores is the same, and the buckets that they have made are there and do not differ. -/
structure Replays (D : Set Location) (w₁ w₂ : Writer) : Prop where
  same : w₂ = { w₁ with store := w₂.store }
  stores : ChangesOnly D w₁.store w₂.store
  readable : w₁.Readable
  made : ∀ b ∈ w₁.buckets?.getD [], (w₁.names.bucketFile b).destination w₁.store.working ∉ D

namespace Replays

theorem buckets?_eq (h : Replays D w₁ w₂) : w₂.buckets? = w₁.buckets? := by rw [h.same]

theorem names_eq (h : Replays D w₁ w₂) : w₂.names = w₁.names := by rw [h.same]

theorem preamble_eq (h : Replays D w₁ w₂) : w₂.preamble = w₁.preamble := by rw [h.same]

/-- A bucket that has been made reads the same in both. -/
theorem exists_readBytes (h : Replays D w₁ w₂) (hb : b ∈ w₁.buckets?.getD []) :
    ∃ bytes, w₁.store.readBytes (w₁.names.bucketFile b) = .ok bytes ∧
      w₂.store.readBytes (w₁.names.bucketFile b) = .ok bytes := by
  obtain ⟨bytes, hbytes⟩ := h.readable b hb
  exact ⟨bytes, hbytes, h.stores.readBytes (h.made b hb) hbytes⟩

theorem readable_right (h : Replays D w₁ w₂) : w₂.Readable := by
  intro b hb
  rw [h.buckets?_eq] at hb
  obtain ⟨bytes, -, hbytes⟩ := h.exists_readBytes hb
  rw [h.names_eq]
  exact ⟨bytes, hbytes⟩

/-- **The same file put into both stores.** A bucket that is new is that file. -/
theorem settle (h : Replays D w₁ w₂) (h₁ : Settles p bytes w₁.store w₁'.store)
    (h₂ : Settles p bytes w₂.store w₂'.store) (hsame : w₂' = { w₁' with store := w₂'.store })
    (hn : w₁'.names = w₁.names)
    (hb : ∀ b ∈ w₁'.buckets?.getD [], b ∈ w₁.buckets?.getD [] ∨ p = w₁.names.bucketFile b) :
    Replays (D \ {p.destination w₁.store.working}) w₁' w₂' := by
  refine ⟨hsame, h₁.changesOnly h.stores h₂, h.readable.settle h₁ hn hb, fun b hm hD => ?_⟩
  rw [hn, h₁.changes.working] at hD
  rcases hb b hm with hold | rfl
  · exact h.made b hold hD.1
  · exact hD.2 rfl

/-- What stands before a chunk is the same for both: a bucket that is read does not differ. -/
theorem base_eq (h : Replays D w₁ w₂) (target : Target) : w₂.base target = w₁.base target := by
  cases target with
  | file p => simp only [base, h.preamble_eq]
  | bucket b =>
    simp only [base, h.preamble_eq, h.buckets?_eq, h.names_eq]
    split
    · rename_i hb
      obtain ⟨bytes, hbytes₁, hbytes₂⟩ := h.exists_readBytes hb
      unfold readText
      rw [hbytes₁, hbytes₂]
    · rfl

/-- **A chunk that both write.** -/
theorem write (h : Replays D w₁ w₂) (hs : w₁.Serves chunk)
    (h₁ : (w₁.attempt refused chunk).succeeds = true)
    (h₂ : (w₂.attempt refused chunk).succeeds = true) :
    Replays (D \ {(w₁.names.pathOf chunk.target).destination w₁.store.working})
      (w₁.write refused chunk) (w₂.write refused chunk) := by
  have hserves : w₂.Serves chunk := by
    rw [h.same]
    exact hs
  obtain ⟨hw₁, text, htext, hset₁⟩ := write_of_succeeds hs h.readable h₁
  obtain ⟨hw₂, text₂, htext₂, hset₂⟩ := write_of_succeeds hserves h.readable_right h₂
  obtain rfl : text = text₂ := by
    rw [h.base_eq, htext] at htext₂
    exact Except.ok.inj htext₂
  rw [h.names_eq] at hset₂
  refine h.settle hset₁ hset₂ ?_ (write_names w₁ refused chunk) fun b hb => ?_
  · refine hw₂.trans ?_
    rw [hw₁, h.same]
    rfl
  · rw [hw₁] at hb
    exact (mem_marked hb).imp_right fun ht => by rw [ht]; rfl

/-- **All chunks that both write.** -/
theorem writeAll {ws : List (Chunk × Bool)} (h : Replays D w₁ w₂)
    (hs : ∀ e ∈ ws, w₁.Serves e.1) (h₁ : ∀ a ∈ w₁.attempts ws, a.succeeds = true)
    (h₂ : ∀ a ∈ w₂.attempts ws, a.succeeds = true) :
    Replays (D \ {l | ∃ e ∈ ws, l = (w₁.names.pathOf e.1.target).destination w₁.store.working})
      (w₁.writeAll ws) (w₂.writeAll ws) := by
  induction ws generalizing D w₁ w₂ with
  | nil =>
    have hnone : {l | ∃ e ∈ ([] : List (Chunk × Bool)),
        l = (w₁.names.pathOf e.1.target).destination w₁.store.working} = ∅ := by
      ext l
      simp
    rw [hnone, Set.sdiff_empty]
    exact h
  | cons e rest ih =>
    obtain ⟨chunk, refused⟩ := e
    have hchunk := hs (chunk, refused) List.mem_cons_self
    have hok₁ := h₁ _ List.mem_cons_self
    have hrest := ih (h.write hchunk hok₁ (h₂ _ List.mem_cons_self)) (serves_write hs)
      (fun a ha => h₁ a (List.mem_cons_of_mem _ ha)) fun a ha => h₂ a (List.mem_cons_of_mem _ ha)
    obtain ⟨-, text, -, hset⟩ := write_of_succeeds hchunk h.readable hok₁
    rw [Set.sdiff_sdiff, write_names, hset.changes.working] at hrest
    have hlocations : {l | ∃ e ∈ (chunk, refused) :: rest,
        l = (w₁.names.pathOf e.1.target).destination w₁.store.working} =
          {(w₁.names.pathOf chunk.target).destination w₁.store.working} ∪
            {l | ∃ e ∈ rest, l = (w₁.names.pathOf e.1.target).destination w₁.store.working} := by
      ext l
      simp
    rw [hlocations]
    exact hrest

/-- **A bucket that both prepare.** -/
theorem prepareBucket (h : Replays D w₁ w₂)
    (h₁ : ∀ a ∈ w₁.preparing true fault b, a.succeeds = true)
    (h₂ : ∀ a ∈ w₂.preparing true fault b, a.succeeds = true) :
    Replays (D \ {(w₁.names.bucketFile b).destination w₁.store.working})
      (w₁.prepareBucket true fault b).2 (w₂.prepareBucket true fault b).2 := by
  obtain ⟨hw₁, hset₁⟩ := prepareBucket_of_succeeds h₁
  obtain ⟨hw₂, hset₂⟩ := prepareBucket_of_succeeds h₂
  rw [h.names_eq, h.preamble_eq] at hset₂
  refine h.settle hset₁ hset₂ ?_ (prepareBucket_names w₁ true fault b) fun b' hb' => ?_
  · refine (congrArg Prod.snd hw₂).trans ?_
    rw [hw₁, h.same]
  · rw [hw₁] at hb'
    exact .inl hb'

end Replays

/-- Buckets that are prepared with success are made. -/
theorem prepare_of_succeeds (hok : ∀ a ∈ w.preparingAll true ps, a.succeeds = true) :
    (w.prepare true ps).1 = ps.map Prod.fst := by
  induction ps generalizing w with
  | nil => rfl
  | cons e rest ih =>
    obtain ⟨b, fault⟩ := e
    have hfirst := prepareBucket_of_succeeds fun a ha => hok a (List.mem_append_left _ ha)
    have hrest := ih fun a ha => hok a (List.mem_append_right _ ha)
    rw [prepare]
    simp only [hrest, congrArg Prod.fst hfirst.1, if_true, List.map_cons]

/-- **All buckets that both prepare.** -/
theorem Replays.prepare (h : Replays D w₁ w₂)
    (h₁ : ∀ a ∈ w₁.preparingAll true ps, a.succeeds = true)
    (h₂ : ∀ a ∈ w₂.preparingAll true ps, a.succeeds = true) :
    Replays (D \ w₁.bucketLocations (ps.map Prod.fst))
      (w₁.prepare true ps).2 (w₂.prepare true ps).2 := by
  induction ps generalizing D w₁ w₂ with
  | nil =>
    have hnone : w₁.bucketLocations (([] : List (Bucket × Fault)).map Prod.fst) = ∅ := by
      ext l
      simp [bucketLocations]
    rw [hnone, Set.sdiff_empty]
    exact h
  | cons e rest ih =>
    obtain ⟨b, fault⟩ := e
    have hfirst := h.prepareBucket (fun a ha => h₁ a (List.mem_append_left _ ha))
      fun a ha => h₂ a (List.mem_append_left _ ha)
    have hrest := ih hfirst (fun a ha => h₁ a (List.mem_append_right _ ha))
      fun a ha => h₂ a (List.mem_append_right _ ha)
    have hworking := (prepareBucket_of_succeeds
      fun a ha => h₁ a (List.mem_append_left _ ha)).2.changes.working
    have hlocations : w₁.bucketLocations (((b, fault) :: rest).map Prod.fst) =
        {(w₁.names.bucketFile b).destination w₁.store.working} ∪
          (w₁.prepareBucket true fault b).2.bucketLocations (rest.map Prod.fst) := by
      unfold bucketLocations
      rw [prepareBucket_names, hworking]
      ext l
      simp
    rw [hlocations, ← Set.sdiff_sdiff]
    exact hrest

/-- **Buckets that both open.** -/
theorem Replays.openBuckets (h : Replays D w₁ w₂) {made : List Bucket}
    (hread : (w₁.openBuckets made).Readable)
    (hout : ∀ b ∈ made, (w₁.names.bucketFile b).destination w₁.store.working ∉ D) :
    Replays D (w₁.openBuckets made) (w₂.openBuckets made) := by
  refine ⟨?_, h.stores, hread, hout⟩
  rw [h.same]
  rfl

/-- **Buckets that both close.** -/
theorem Replays.closeBuckets (h : Replays D w₁ w₂) : Replays D w₁.closeBuckets w₂.closeBuckets := by
  refine ⟨?_, h.stores, h.readable, h.made⟩
  rw [h.same]
  rfl

/-- **A bucket that is not wanted** is removed, if it is there. -/
theorem prepareBucket_clears (hok : ∀ a ∈ w.preparing false fault b, a.succeeds = true) :
    (w.prepareBucket false fault b).2 =
        { w with store := (w.prepareBucket false fault b).2.store } ∧
      Clears {l | w.store.locate (w.names.bucketFile b) = .ok l} w.store
        (w.prepareBucket false fault b).2.store := by
  unfold preparing at hok
  cases hr : removeUnless w.store (fault = .removal) (w.names.bucketFile b) with
  | mk r s₁ =>
    cases r with
    | error e =>
      simp only [hr] at hok
      exact absurd (hok _ (List.mem_singleton_self _)) (by simp [Attempt.succeeds])
    | ok v =>
      have hstep : w.prepareBucket false fault b = (false, { w with store := s₁ }) := by
        unfold prepareBucket
        simp only [hr, Bool.false_eq_true, if_false]
      rw [hstep]
      exact ⟨rfl, removeUnless_clears hr rfl⟩

/-- **All buckets that are not wanted.** -/
theorem prepare_clears (hok : ∀ a ∈ w.preparingAll false ps, a.succeeds = true) :
    (w.prepare false ps).2 = { w with store := (w.prepare false ps).2.store } ∧
      Clears {l | ∃ e ∈ ps, w.store.locate (w.names.bucketFile e.1) = .ok l} w.store
        (w.prepare false ps).2.store := by
  induction ps generalizing w with
  | nil =>
    have hnone : {l | ∃ e ∈ ([] : List (Bucket × Fault)),
        w.store.locate (w.names.bucketFile e.1) = .ok l} = ∅ := by
      ext l
      simp
    rw [hnone]
    exact ⟨rfl, .refl w.store⟩
  | cons e rest ih =>
    obtain ⟨b, fault⟩ := e
    obtain ⟨hw, hclears⟩ := prepareBucket_clears fun a ha => hok a (List.mem_append_left _ ha)
    obtain ⟨hrest, hclears'⟩ := ih fun a ha => hok a (List.mem_append_right _ ha)
    have hprepare : (w.prepare false ((b, fault) :: rest)).2 =
        ((w.prepareBucket false fault b).2.prepare false rest).2 := rfl
    rw [hprepare]
    refine ⟨hrest.trans ?_, ?_⟩
    · rw [hw]
    · have hlocations : {l | ∃ e ∈ (b, fault) :: rest,
          w.store.locate (w.names.bucketFile e.1) = .ok l} =
          {l | w.store.locate (w.names.bucketFile b) = .ok l} ∪
            {l | ∃ e ∈ rest, (w.prepareBucket false fault b).2.store.locate
              ((w.prepareBucket false fault b).2.names.bucketFile e.1) = .ok l} := by
        ext l
        simp [hclears.locate_iff, prepareBucket_names]
      rw [hlocations]
      exact hclears.trans hclears'

end SwiftBindings.Writer
