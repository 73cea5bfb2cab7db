import SwiftBindings.Proofs.Path.Order
import SwiftBindings.Proofs.Run.Writing

/-!
# Attempted writes

A log of what a writer attempts is kept beside it: at which stage, at which path, and what the file
operation answers. The writer itself keeps no such log. It lists the files of attempts that succeed
and tells of those that fail, and `Writer.Accounts` says that it has done so for every entry of a
log and for nothing else.

* `Accounts.record`: an outcome that is recorded is accounted for.
* `prepareBucket_accounts`, `write_accounts`: one bucket that is prepared, one chunk that is
  written.
* `prepare_accounts`, `writeAll_accounts`: **all buckets and all chunks.**
* `Serves.writeAll`: what can be sent at first can be sent to the end.
* `Accounts.exists_same_iff`: the files that are listed are those of the attempts that succeed.
-/

namespace SwiftBindings

open FileStore

/-- A write that is attempted: the stage, the path and what the file operation answers. -/
structure Attempt where
  stage : Stage
  path : Path
  outcome : Except FileError Written

namespace Attempt

variable {as : List Attempt}

/-- Whether an attempt succeeds. -/
def succeeds (a : Attempt) : Bool := a.outcome.isOk

/-- What is to be told of an attempt: a warning at its path if it fails. -/
def told (a : Attempt) : List Diagnostic :=
  match a.outcome with
  | .ok _ => []
  | .error e => [(Diagnostic.warning a.stage e.detail).located a.path]

/-- The files after an attempt: with its path if it succeeds. -/
def enter (files : PathSet) (a : Attempt) : PathSet :=
  if a.succeeds then PathSet.insert a.path files else files

theorem told_of_succeeds {a : Attempt} (h : a.succeeds = true) : a.told = [] := by
  unfold succeeds at h
  unfold told
  cases ha : a.outcome with
  | ok v => rfl
  | error e =>
    rw [ha] at h
    simp at h

/-- Of an attempt that fails one warning is told, at its stage and its path. -/
theorem told_of_not_succeeds {a : Attempt} (h : ¬ a.succeeds = true) :
    ∃ message, a.told = [(Diagnostic.warning a.stage message).located a.path] := by
  unfold succeeds at h
  unfold told
  cases ha : a.outcome with
  | ok v =>
    rw [ha] at h
    exact absurd rfl h
  | error e => exact ⟨e.detail, rfl⟩

theorem mem_told {x : Diagnostic} {a : Attempt} (h : x ∈ a.told) :
    x.isWarning = true ∧ x.stage = a.stage ∧ x.location? = some a.path := by
  by_cases ha : a.succeeds = true
  · rw [told_of_succeeds ha] at h
    simp at h
  · obtain ⟨message, hm⟩ := told_of_not_succeeds ha
    rw [hm] at h
    rw [List.mem_singleton.1 h]
    exact ⟨rfl, rfl, rfl⟩

/-- There are as many warnings as failures. -/
theorem length_flatMap_told (as : List Attempt) :
    (as.flatMap told).length = (as.filter (!·.succeeds)).length := by
  induction as with
  | nil => rfl
  | cons a rest ih =>
    rw [List.flatMap_cons, List.length_append, ih, List.filter_cons]
    by_cases ha : a.succeeds = true
    · rw [told_of_succeeds ha]
      simp [ha]
    · obtain ⟨message, hm⟩ := told_of_not_succeeds ha
      rw [hm]
      simp [ha]
      omega

/-- Of attempts at other stages nothing is told at this one. -/
theorem filter_told_eq_nil {stage : Stage} (h : ∀ a ∈ as, a.stage ≠ stage) :
    (as.flatMap told).filter (·.stage = stage) = [] := by
  refine List.filter_eq_nil_iff.2 fun x hx => ?_
  obtain ⟨a, ha, hx⟩ := List.mem_flatMap.1 hx
  rw [(mem_told hx).2.1]
  simpa using h a ha

end Attempt

/-- The path of a target. -/
def FileNames.pathOf (n : FileNames) : Target → Path
  | .file p => p
  | .bucket b => n.bucketFile b

namespace Writer

variable {w w' w'' : Writer} {as as' : List Attempt} {chunk : Chunk} {refused create : Bool}

/-- What the preparation of a bucket attempts. A removal that fails is the failure of the bucket;
one that succeeds is a step on the way to the file, if that is wanted. -/
def preparing (w : Writer) (create : Bool) (fault : Fault) (b : Bucket) : List Attempt :=
  let p := w.names.bucketFile b
  match removeUnless w.store (fault = .removal) p with
  | (.error e, _) => [⟨.configure, p, .error e⟩]
  | (.ok _, store) =>
    if create then [⟨.configure, p, (overwriteUnless store (fault = .creation) p w.preamble "").1⟩]
    else []

/-- What the file operation answers that is to put a chunk where it goes. -/
def answer (w : Writer) (refused : Bool) (chunk : Chunk) : Except FileError Written :=
  let p := w.names.pathOf chunk.target
  match chunk.target with
  | .file _ => (overwriteUnless w.store refused p w.preamble chunk.content).1
  | .bucket b =>
    if b ∈ w.buckets?.getD [] then (appendUnless w.store refused p w.preamble chunk.content).1
    else (overwriteUnless w.store refused p w.preamble chunk.content).1

/-- The write of a chunk as an attempt. -/
def attempt (w : Writer) (refused : Bool) (chunk : Chunk) : Attempt :=
  ⟨.write, w.names.pathOf chunk.target, w.answer refused chunk⟩

/-- What preparing buckets one after the other attempts. -/
def preparingAll (w : Writer) (create : Bool) : List (Bucket × Fault) → List Attempt
  | [] => []
  | (b, fault) :: rest =>
    w.preparing create fault b ++ (w.prepareBucket create fault b).2.preparingAll create rest

/-- What writing chunks one after the other attempts. -/
def attempts (w : Writer) : List (Chunk × Bool) → List Attempt
  | [] => []
  | (chunk, refused) :: rest => w.attempt refused chunk :: (w.write refused chunk).attempts rest

/-- Whether a writer has gone on to another by attempts, with each that fails told and each that
succeeds listed. -/
structure Accounts (w w' : Writer) (as : List Attempt) : Prop where
  diagnostics : w'.diagnostics = w.diagnostics ++ as.flatMap Attempt.told
  files : w'.files = as.foldl Attempt.enter w.files

namespace Accounts

theorem refl (w : Writer) : w.Accounts w [] := ⟨by simp, rfl⟩

theorem trans (h : w.Accounts w' as) (h' : w'.Accounts w'' as') : w.Accounts w'' (as ++ as') := by
  refine ⟨?_, ?_⟩
  · rw [h'.diagnostics, h.diagnostics, List.flatMap_append, List.append_assoc]
  · rw [h'.files, h.files, List.foldl_append]

/-- **An outcome that is recorded is accounted for.** What happens to the files, or to the buckets,
before that has no part in it. -/
theorem record (stage : Stage) (p : Path) (r : Except FileError Written)
    (hd : w'.diagnostics = w.diagnostics) (hf : w'.files = w.files) :
    w.Accounts (w'.record stage p r) [⟨stage, p, r⟩] := by
  refine ⟨?_, ?_⟩
  · rw [record_diagnostics, hd, List.flatMap_singleton]
    rfl
  · cases r with
    | ok v => exact congrArg (PathSet.insert p) hf
    | error e => exact hf

/-- Closing the buckets tells nothing. -/
theorem closeBuckets (h : w.Accounts w' as) : w.Accounts w'.closeBuckets as :=
  ⟨h.diagnostics, h.files⟩

/-- **The files that are listed** are those listed before and those of attempts that succeed. -/
theorem exists_same_iff (h : w.Accounts w' as) (p : Path) :
    (∃ q ∈ w'.files, q.same p = true) ↔
      (∃ q ∈ w.files, q.same p = true) ∨ ∃ a ∈ as, a.succeeds = true ∧ a.path.same p = true := by
  rw [h.files]
  clear h
  generalize w.files = files
  induction as generalizing files with
  | nil => simp
  | cons a rest ih =>
    have hstep : (∃ q ∈ Attempt.enter files a, q.same p = true) ↔
        (a.succeeds = true ∧ a.path.same p = true) ∨ ∃ q ∈ files, q.same p = true := by
      unfold Attempt.enter
      by_cases ha : a.succeeds = true
      · rw [if_pos ha, PathSet.exists_same_insert]
        simp [ha]
      · rw [if_neg ha]
        simp [ha]
    rw [List.foldl_cons, ih, hstep]
    simp only [List.mem_cons, or_and_right, exists_or, exists_eq_left]
    rw [or_assoc, or_left_comm]

theorem sorted (h : w.Accounts w' as) (hs : w.files.Sorted) : w'.files.Sorted := by
  rw [h.files]
  clear h
  generalize w.files = files at hs
  induction as generalizing files with
  | nil => exact hs
  | cons a rest ih =>
    rw [List.foldl_cons]
    refine ih (Attempt.enter files a) ?_
    unfold Attempt.enter
    split
    · exact hs.insert a.path
    · exact hs

end Accounts

/-! ## Preparations -/

/-- **A bucket that is prepared is accounted for.** -/
theorem prepareBucket_accounts (w : Writer) (create : Bool) (fault : Fault) (b : Bucket) :
    w.Accounts (w.prepareBucket create fault b).2 (w.preparing create fault b) := by
  unfold prepareBucket preparing
  cases hr : removeUnless w.store (fault = .removal) (w.names.bucketFile b) with
  | mk r store =>
    cases r with
    | error e =>
      -- the warning is what recording the failure of the removal tells
      simp only [hr]
      exact Accounts.record .configure (w.names.bucketFile b) (.error e) (by rfl) (by rfl)
    | ok removed =>
      simp only [hr]
      cases create with
      | false => exact ⟨(List.append_nil _).symm, rfl⟩
      | true => exact Accounts.record .configure (w.names.bucketFile b) _ (by rfl) (by rfl)

/-- **All buckets that are prepared are accounted for.** -/
theorem prepare_accounts (w : Writer) (create : Bool) (ps : List (Bucket × Fault)) :
    w.Accounts (w.prepare create ps).2 (w.preparingAll create ps) := by
  induction ps generalizing w with
  | nil => exact .refl w
  | cons e rest ih =>
    obtain ⟨b, fault⟩ := e
    exact (prepareBucket_accounts w create fault b).trans (ih _)

/-- The preparation of a bucket that is wanted is one attempt. -/
theorem preparing_true (w : Writer) (fault : Fault) (b : Bucket) :
    ∃ outcome, w.preparing true fault b = [⟨.configure, w.names.bucketFile b, outcome⟩] := by
  unfold preparing
  simp only
  split <;> exact ⟨_, rfl⟩

/-- A bucket that is not wanted is never written. -/
theorem preparing_false {fault : Fault} {b : Bucket} {a : Attempt}
    (h : a ∈ w.preparing false fault b) : a.stage = .configure ∧ ¬ a.succeeds = true := by
  unfold preparing at h
  simp only at h
  split at h
  · rw [List.mem_singleton.1 h]
    exact ⟨rfl, by simp [Attempt.succeeds]⟩
  · simp at h

theorem prepareBucket_names (w : Writer) (create : Bool) (fault : Fault) (b : Bucket) :
    (w.prepareBucket create fault b).2.names = w.names := by
  cases h : w.prepareBucket create fault b with
  | mk made w' => exact (prepareBucket_effect h).1

/-- Every bucket that is wanted is attempted once, at its file. -/
theorem preparingAll_true (w : Writer) (ps : List (Bucket × Fault)) :
    (w.preparingAll true ps).map (fun a => (a.stage, a.path)) =
      ps.map fun e => (.configure, w.names.bucketFile e.1) := by
  induction ps generalizing w with
  | nil => rfl
  | cons e rest ih =>
    obtain ⟨b, fault⟩ := e
    obtain ⟨outcome, ho⟩ := preparing_true w fault b
    rw [preparingAll, List.map_append, ih, prepareBucket_names, ho]
    rfl

theorem preparingAll_false {ps : List (Bucket × Fault)} {a : Attempt}
    (h : a ∈ w.preparingAll false ps) : a.stage = .configure ∧ ¬ a.succeeds = true := by
  induction ps generalizing w with
  | nil => simp [preparingAll] at h
  | cons e rest ih =>
    rcases List.mem_append.1 h with h | h
    · exact preparing_false h
    · exact ih h

/-! ## Chunks -/

/-- Whether a chunk may be sent where it goes: to a file, or to a bucket once these have been opened
and before it is closed. -/
def Serves (w : Writer) (chunk : Chunk) : Prop :=
  ∀ b, chunk.target = .bucket b → w.buckets?.isSome = true ∧ b ∉ w.closed

theorem buckets?_write (w : Writer) (refused : Bool) (chunk : Chunk) :
    (w.write refused chunk).buckets?.isSome = w.buckets?.isSome := by
  unfold write
  split
  · simp [overwrite]
  · unfold send
    split
    · rfl
    · rename_i hb
      split
      · rfl
      · simp [hb]

theorem buckets?_writeAll (w : Writer) (ws : List (Chunk × Bool)) :
    (w.writeAll ws).buckets?.isSome = w.buckets?.isSome := by
  induction ws generalizing w with
  | nil => rfl
  | cons e rest ih => exact (ih _).trans (buckets?_write w e.2 e.1)

/-- What can be sent before a chunk can be sent after it. -/
theorem Serves.write {next : Chunk} (h : w.Serves next) (refused : Bool) (chunk : Chunk) :
    (w.write refused chunk).Serves next := by
  intro b hb
  rw [buckets?_write, closed_write]
  exact h b hb

/-- **What can be sent at first can be sent to the end.** -/
theorem Serves.writeAll {next : Chunk} (h : w.Serves next) (ws : List (Chunk × Bool)) :
    (w.writeAll ws).Serves next := by
  intro b hb
  rw [buckets?_writeAll, closed_writeAll]
  exact h b hb

theorem serves_write {rest : List (Chunk × Bool)}
    (h : ∀ e ∈ (chunk, refused) :: rest, w.Serves e.1) :
    ∀ e ∈ rest, (w.write refused chunk).Serves e.1 :=
  fun e he => (h e (List.mem_cons_of_mem _ he)).write refused chunk

/-- **A chunk that is written is accounted for.** -/
theorem write_accounts (h : w.Serves chunk) :
    w.Accounts (w.write refused chunk) [w.attempt refused chunk] := by
  obtain ⟨target, content⟩ := chunk
  cases target with
  | file p => exact Accounts.record .write p _ (by rfl) (by rfl)
  | bucket b =>
    obtain ⟨hsome, hopen⟩ := h b rfl
    obtain ⟨made, hmade⟩ := Option.isSome_iff_exists.1 hsome
    have hw : w.write refused ⟨.bucket b, content⟩ = w.send refused b content := rfl
    have hanswer : w.answer refused ⟨.bucket b, content⟩ =
        (if b ∈ made then
          appendUnless w.store refused (w.names.bucketFile b) w.preamble content
        else overwriteUnless w.store refused (w.names.bucketFile b) w.preamble content).1 := by
      unfold answer
      rw [hmade]
      simp only [Option.getD_some, FileNames.pathOf]
      split <;> rfl
    unfold attempt
    rw [hw, hanswer, send_of_open hmade hopen]
    exact Accounts.record .write (w.names.bucketFile b) _ (by rfl) (by rfl)

/-- **All chunks that are written are accounted for.** -/
theorem writeAll_accounts {ws : List (Chunk × Bool)} (h : ∀ e ∈ ws, w.Serves e.1) :
    w.Accounts (w.writeAll ws) (w.attempts ws) := by
  induction ws generalizing w with
  | nil => exact .refl w
  | cons e rest ih =>
    obtain ⟨chunk, refused⟩ := e
    exact (write_accounts (h _ List.mem_cons_self)).trans (ih (serves_write h))

/-- Every chunk is attempted once, at the path of its target. -/
theorem attempts_eq_map (w : Writer) (ws : List (Chunk × Bool)) :
    (w.attempts ws).map (fun a => (a.stage, a.path)) =
      ws.map fun e => (.write, w.names.pathOf e.1.target) := by
  induction ws generalizing w with
  | nil => rfl
  | cons e rest ih =>
    obtain ⟨chunk, refused⟩ := e
    rw [attempts, List.map_cons, ih, write_names]
    rfl

end Writer

end SwiftBindings
