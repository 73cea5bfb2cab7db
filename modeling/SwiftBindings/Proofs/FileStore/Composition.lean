import SwiftBindings.Proofs.FileStore.Again
import SwiftBindings.Proofs.FileStore.Settle

/-!
# Writings that add up

A file that is overwritten and then appended to holds what overwriting it with all the contents at
once would have left. So the preamble is there once, and it does not matter into how many pieces a
content is cut. A file that is removed first is written anew by an appending; one that is no text is
left alone by it.

* `append_setFile`: what is appended to a text stands behind it.
* `appendAll_setFile`: contents appended one after another.
* `append_append`: **two contents appended are one content appended,** whether or not that works.
* `writings_compose`: **how overwriting, appending and removing a file go together.**
-/

namespace SwiftBindings.FileStore

variable {s t : FileStore} {l : Location} {p : Path} {text : String} {bytes : ByteArray}

/-! ## Texts at a location -/

theorem readText_eq_ok_iff : s.readText p = .ok text ↔ s.readBytes p = .ok text.toUTF8 := by
  refine ⟨fun h => ?_, readText_of_readBytes⟩
  unfold readText at h
  split at h
  · cases h
  · rename_i bytes hbytes
    unfold String.fromUTF8? at h
    split at h
    · cases h
    · rename_i text' htext
      obtain rfl := Except.ok.inj h
      split at htext
      · rw [← Option.some.inj htext]
        exact hbytes
      · cases htext

/-- Content is added to a text in place. -/
theorem append_of_file (hl : s.locate p = .ok l) (hf : s.lookup? l = some (.file text.toUTF8))
    (preamble content : String) :
    s.append p preamble content = (.ok .appended, s.setFile l (text ++ content).toUTF8) := by
  have hstat : s.stat p = .ok (.file text.toUTF8) := stat_eq_ok_iff.2 ⟨l, hl, hf⟩
  have hread : s.readText p = .ok text :=
    readText_of_readBytes (readBytes_eq_ok_iff.2 ⟨l, hl, hf⟩)
  have hexists : s.exists? p = true := by
    unfold exists?
    rw [hstat]
    rfl
  unfold append
  simp only [hexists, hread, put_of_locate hl (by simp [hf]), if_true]

/-- A file is found where it was put. -/
theorem locate_setFile (hl : s.locate p = .ok l) (hnot : s.lookup? l ≠ some .directory)
    (bytes : ByteArray) : (s.setFile l bytes).locate p = .ok l :=
  (setFile_changesOnly hnot bytes).grows.locate hl

/-- **What is appended to a text** stands behind it. -/
theorem append_setFile (hl : s.locate p = .ok l) (hnot : s.lookup? l ≠ some .directory)
    (text preamble content : String) :
    (s.setFile l text.toUTF8).append p preamble content =
      (.ok .appended, s.setFile l (text ++ content).toUTF8) := by
  have hf : (s.setFile l text.toUTF8).lookup? l = some (.file text.toUTF8) := by
    rw [lookup?_setFile s (ne_nil_of_lookup? hnot), if_pos rfl]
  rw [append_of_file (locate_setFile hl hnot _) hf, setFile_setFile]

/-- Contents appended one after another: what came of each, and the store after the last. -/
def appendAll (s : FileStore) (p : Path) (preamble : String) :
    List String → List (Except FileError Written) × FileStore
  | [] => ([], s)
  | content :: rest =>
    let after := s.append p preamble content
    let last := after.2.appendAll p preamble rest
    (after.1 :: last.1, last.2)

/-- **Contents appended one after another** stand behind the text in this order. -/
theorem appendAll_setFile (hl : s.locate p = .ok l) (hnot : s.lookup? l ≠ some .directory)
    (text preamble : String) (contents : List String) :
    (s.setFile l text.toUTF8).appendAll p preamble contents =
      (contents.map fun _ => .ok .appended,
        s.setFile l (text ++ String.join contents).toUTF8) := by
  induction contents generalizing text with
  | nil => simp [appendAll]
  | cons content rest ih =>
    rw [appendAll, append_setFile hl hnot]
    simp only [ih]
    rw [List.map_cons, String.join_cons, String.append_assoc]

/-! ## Writings of either kind -/

/-- **What overwriting does** depends on the content only in what the file holds. -/
theorem overwrite_cases (s : FileStore) (p : Path) (preamble : String) :
    (∃ e, ∀ content, s.overwrite p preamble content = (.error e, s.madeFor p)) ∨
      ∃ l, (s.madeFor p).locate p = .ok l ∧ (s.madeFor p).lookup? l ≠ some .directory ∧
        ∀ content, s.overwrite p preamble content =
          (.ok .created, (s.madeFor p).setFile l (preamble ++ content).toUTF8) := by
  unfold overwrite
  rcases put_cases s p with ⟨e, hput⟩ | ⟨l, hl, hnot, hput⟩
  · exact .inl ⟨e, fun content => by rw [hput]⟩
  · exact .inr ⟨l, hl, hnot, fun content => by rw [hput]⟩

/-- Nothing is appended where overwriting has failed. -/
theorem append_of_overwrite_error {preamble : String} {e : FileError} {a : String}
    (h : s.overwrite p preamble a = (.error e, t)) (b : String) :
    ∃ e', t.append p preamble b = (.error e', t) := by
  have hput : ∃ e', ∀ bytes', t.put p bytes' = (.error e', t) := by
    unfold overwrite at h
    split at h
    · rename_i e₁ t₁ hput
      rw [(Prod.mk.inj h).2] at hput
      exact put_again hput
    · cases h
  obtain ⟨e', hput⟩ := hput
  unfold append
  split
  · cases htext : t.readText p with
    | error failure => exact ⟨_, rfl⟩
    | ok text => exact ⟨e', by simp only [hput]⟩
  · exact ⟨e', by simp only [overwrite, hput]⟩

/-- **What appending does** to what is there. Nothing is there, and the file is overwritten; or a
text is, and it is added to; or something else is, and it stays. -/
theorem append_cases (s : FileStore) (p : Path) (preamble : String) :
    (∀ content, s.append p preamble content = s.overwrite p preamble content) ∨
      (∃ (l : Location) (text : String),
        s.locate p = .ok l ∧ s.lookup? l = some (.file text.toUTF8)) ∨
      ∃ e, ∀ content, s.append p preamble content = (.error e, s) := by
  cases hexists : s.exists? p with
  | false => exact .inl (append_of_not_exists hexists preamble)
  | true =>
    right
    cases hread : s.readText p with
    | error e =>
      right
      refine ⟨⟨.read, p, e⟩, fun content => ?_⟩
      unfold append
      simp [hexists, hread]
    | ok text =>
      left
      obtain ⟨l, hl, hf⟩ := readBytes_eq_ok_iff.1 (readText_eq_ok_iff.1 hread)
      exact ⟨l, text, hl, hf⟩

/-- **Two contents appended are one content appended,** whether or not that works. -/
theorem append_append (s : FileStore) (p : Path) (preamble a b : String) :
    (s.append p preamble a).1 = (s.append p preamble (a ++ b)).1 ∧
      (((s.append p preamble a).2.append p preamble b).1.isOk = true ↔
        (s.append p preamble (a ++ b)).1.isOk = true) ∧
      ((s.append p preamble a).2.append p preamble b).2 = (s.append p preamble (a ++ b)).2 := by
  rcases append_cases s p preamble with hfresh | ⟨l, text, hl, hf⟩ | ⟨e, hkept⟩
  · simp only [hfresh]
    rcases overwrite_cases s p preamble with ⟨e, hover⟩ | ⟨l, hl, hnot, hover⟩
    · obtain ⟨e', hagain⟩ := append_of_overwrite_error (hover a) b
      simp only [hover] at hagain ⊢
      simp [hagain]
    · simp only [hover, append_setFile hl hnot, String.append_assoc]
      simp
  · have hnot : s.lookup? l ≠ some .directory := by simp [hf]
    simp only [append_of_file hl hf, append_setFile hl hnot, String.append_assoc]
    simp
  · simp only [hkept]
    simp

/-- **What is no text is left alone** by an appending. -/
theorem append_of_not_text {entry : Entry} (hstat : s.stat p = .ok entry)
    (hnot : ∀ text : String, entry ≠ .file text.toUTF8) (preamble content : String) :
    s.append p preamble content =
      (.error ⟨.read, p, if entry = .directory then .refused else .notText⟩, s) := by
  have hread : s.readText p = .error (if entry = .directory then .refused else .notText) := by
    cases entry with
    | directory => simp [readText, readBytes, hstat]
    | file bytes =>
      have hbytes : s.readBytes p = .ok bytes := by simp [readBytes, hstat]
      cases hread : s.readText p with
      | ok text =>
        rw [readText_eq_ok_iff, hbytes] at hread
        exact absurd (congrArg Entry.file (Except.ok.inj hread)) (hnot text)
      | error e =>
        unfold readText at hread
        rw [hbytes] at hread
        simp only at hread
        split at hread
        · simpa using hread.symm
        · cases hread
  unfold append
  simp [exists?, hstat, hread]

/-- **A file that is removed and appended to** is a file that is overwritten. -/
theorem append_of_removeStale (h : s.readBytes p = .ok bytes) (preamble content : String) :
    ∃ l, s.removeStale p = (.ok true, s.unlink l) ∧
      (s.unlink l).append p preamble content =
        (.ok .created, (s.unlink l).setFile l (preamble ++ content).toUTF8) ∧
      s.overwrite p preamble content = (.ok .created, s.setFile l (preamble ++ content).toUTF8) ∧
      AgreeOff ∅ ((s.unlink l).setFile l (preamble ++ content).toUTF8)
        (s.setFile l (preamble ++ content).toUTF8) := by
  obtain ⟨l, hl, hf⟩ := readBytes_eq_ok_iff.1 h
  have hnot : s.lookup? l ≠ some .directory := by simp [hf]
  have hne := ne_nil_of_lookup? hnot
  have hgone : (s.unlink l).lookup? l = none := by rw [lookup?_unlink s hne, if_pos rfl]
  have hlocate : (s.unlink l).locate p = .ok l := (unlink_changesOnly hnot).grows.locate hl
  have hexists : (s.unlink l).exists? p = false := by simp [exists?, stat, hlocate, hgone]
  refine ⟨l, ?_, ?_, ?_, ?_⟩
  · simp [removeStale, removeFile, hl, hf]
  · rw [append_of_not_exists hexists]
    simp only [overwrite, put_of_locate hlocate (by simp [hgone])]
  · simp only [overwrite, put_of_locate hl hnot]
  · have hlookup : ∀ (bytes : ByteArray) l',
        ((s.unlink l).setFile l bytes).lookup? l' = (s.setFile l bytes).lookup? l' := by
      intro bytes l'
      rw [lookup?_setFile _ hne, lookup?_setFile _ hne, lookup?_unlink s hne]
      split <;> rfl
    exact ⟨rfl, fun l' => by rw [hlookup], fun l' _ => (hlookup _ l').symm⟩

/-- **What is appended to an overwritten file** stands behind it, the preamble once before all. -/
theorem appendAll_of_overwrite {r : Except FileError Written} {preamble first : String}
    (h : s.overwrite p preamble first = (r, t)) (hr : r.isOk = true) (contents : List String) :
    ∃ u, t.appendAll p preamble contents = (contents.map fun _ => .ok .appended, u) ∧
      u.readText p = .ok (preamble ++ first ++ String.join contents) ∧
      ChangesOnly {p.destination s.working} s u := by
  rcases overwrite_cases s p preamble with ⟨e, hover⟩ | ⟨l, hl, hnot, hover⟩
  · rw [hover] at h
    rw [← (Prod.mk.inj h).1] at hr
    cases hr
  · rw [hover] at h
    obtain ⟨-, rfl⟩ := Prod.mk.inj h
    refine ⟨_, appendAll_setFile hl hnot _ _ _, ?_⟩
    -- the same would be left by one overwriting
    rw [String.append_assoc]
    obtain ⟨hchanges, hread, -⟩ := overwrite_spec (hover (first ++ String.join contents))
    exact ⟨readText_eq_ok_iff.2 (hread rfl), hchanges⟩

/-- **How overwriting, appending and removing a file go together,** in every store, whatever is
there. -/
theorem writings_compose (s : FileStore) (p : Path) (preamble : String) :
    -- an overwriting and the appendings after it
    (∀ first contents, (s.overwrite p preamble first).1.isOk = true →
      ∃ t, (s.overwrite p preamble first).2.appendAll p preamble contents =
          (contents.map fun _ => .ok .appended, t) ∧
        t.readText p = .ok (preamble ++ first ++ String.join contents) ∧
        ChangesOnly {p.destination s.working} s t) ∧
    -- an appending to a file that is not there
    (s.exists? p = false → ∀ content,
      s.append p preamble content = s.overwrite p preamble content) ∧
    -- two appendings
    (∀ a b, (s.append p preamble a).1 = (s.append p preamble (a ++ b)).1 ∧
      (((s.append p preamble a).2.append p preamble b).1.isOk = true ↔
        (s.append p preamble (a ++ b)).1.isOk = true) ∧
      ((s.append p preamble a).2.append p preamble b).2 = (s.append p preamble (a ++ b)).2) ∧
    -- a removal and an appending
    (∀ old content, s.readBytes p = .ok old →
      ∃ u t₁ t₂, s.removeStale p = (.ok true, u) ∧
        u.append p preamble content = (.ok .created, t₁) ∧
        s.overwrite p preamble content = (.ok .created, t₂) ∧ AgreeOff ∅ t₁ t₂) ∧
    -- an appending to what is no text
    (∀ entry, s.stat p = .ok entry → (∀ text : String, entry ≠ .file text.toUTF8) → ∀ content,
      ∃ failure, s.append p preamble content = (.error ⟨.read, p, failure⟩, s)) := by
  refine ⟨fun first contents hok => ?_, fun hexists content => ?_, append_append s p preamble,
    fun old content hold => ?_, fun entry hstat hnot content => ?_⟩
  · exact appendAll_of_overwrite rfl hok contents
  · exact append_of_not_exists hexists preamble content
  · obtain ⟨l, hremove, happend, hover, hagree⟩ := append_of_removeStale hold preamble content
    exact ⟨_, _, _, hremove, happend, hover, hagree⟩
  · exact ⟨_, append_of_not_text hstat hnot preamble content⟩

/-- A directory with a text in it, and with bytes that are no text. -/
def shelf : FileStore where
  entries := .ofList [(["shelf"], .directory), (["shelf", "notes"], .file "ink".toUTF8),
    (["shelf", "scan"], .file ⟨#[0xFF]⟩)]
  working := []

/-- A new file on the shelf, the notes, the scan and the shelf itself. -/
theorem writings_compose_shelf :
    ((∃ t, (shelf.overwrite ⟨"shelf/new/list"⟩ "// " "a").2.appendAll ⟨"shelf/new/list"⟩ "// "
          ["b", "c"] = ([.ok .appended, .ok .appended], t) ∧
        t.readText ⟨"shelf/new/list"⟩ = .ok "// abc" ∧
        ChangesOnly {["shelf", "new", "list"]} shelf t) ∧
      shelf.append ⟨"shelf/new/list"⟩ "// " "a" = shelf.overwrite ⟨"shelf/new/list"⟩ "// " "a") ∧
    (∃ u t₁ t₂, shelf.removeStale ⟨"shelf/notes"⟩ = (.ok true, u) ∧
      u.append ⟨"shelf/notes"⟩ "// " "a" = (.ok .created, t₁) ∧
      shelf.overwrite ⟨"shelf/notes"⟩ "// " "a" = (.ok .created, t₂) ∧ AgreeOff ∅ t₁ t₂) ∧
    (∃ failure, shelf.append ⟨"shelf/scan"⟩ "// " "a" =
      (.error ⟨.read, ⟨"shelf/scan"⟩, failure⟩, shelf)) ∧
    ∃ failure, shelf.append ⟨"shelf"⟩ "// " "a" = (.error ⟨.read, ⟨"shelf"⟩, failure⟩, shelf) := by
  obtain ⟨happended, hfresh, -, -, -⟩ := writings_compose shelf ⟨"shelf/new/list"⟩ "// "
  obtain ⟨-, -, -, hremoved, -⟩ := writings_compose shelf ⟨"shelf/notes"⟩ "// "
  obtain ⟨-, -, -, -, hscan⟩ := writings_compose shelf ⟨"shelf/scan"⟩ "// "
  obtain ⟨-, -, -, -, hshelf⟩ := writings_compose shelf ⟨"shelf"⟩ "// "
  have hbytes : ∀ text : String, Entry.file ⟨#[0xFF]⟩ ≠ .file text.toUTF8 := by
    intro text h
    have hvalid : ByteArray.IsValidUTF8 ⟨#[0xFF]⟩ := by
      rw [Entry.file.inj h]
      exact text.isValidUTF8
    exact absurd hvalid (by decide)
  refine ⟨⟨happended "a" ["b", "c"] (by decide +kernel), hfresh (by decide +kernel) "a"⟩,
    hremoved "ink".toUTF8 "a" (by decide +kernel), hscan _ (by decide +kernel) hbytes "a",
    hshelf .directory (by decide +kernel) (fun _ => nofun) "a"⟩

end SwiftBindings.FileStore
