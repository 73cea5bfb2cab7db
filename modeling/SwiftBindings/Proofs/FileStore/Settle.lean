import SwiftBindings.Proofs.FileStore.Within

/-!
# The same done to two stores

A file that is put somewhere holds what is put there, whatever was there before, and the directories
that are new are on the way to it. So of the files in which two stores differ there is one less once
the same has been put into both. The stores need not have the same directories: those of the first
must be in the second.

* `AgreeOff`: stores with the same directories and, outside some locations, the same files.
* `lookup?_of_mem_ancestors`: what is above a file is a directory.
* `put_settles`, `overwrite_settles`, `append_settles`: all that is left by a file that is put
  somewhere.
* `Settles.changesOnly`: **a file that is put into two stores is the same in both.**
* `removeStale_clears`, `Clears.changesOnly`: **so is one that is removed from both.**
-/

namespace SwiftBindings.FileStore

variable {s s' t u s₁ s₂ t₁ t₂ : FileStore} {l : Location} {p q : Path} {bytes : ByteArray}
  {L M M₁ M₂ : Set Location}

/-! ## Stores that agree -/

/-- Two stores with the same directories and, outside `L`, with the same files. -/
structure AgreeOff (L : Set Location) (s t : FileStore) : Prop where
  working : t.working = s.working
  directory : ∀ l, t.lookup? l = some .directory ↔ s.lookup? l = some .directory
  entry : ∀ l, l ∉ L → t.lookup? l = s.lookup? l

namespace AgreeOff

theorem symm (h : AgreeOff L s t) : AgreeOff L t s :=
  ⟨h.working.symm, fun l => (h.directory l).symm, fun l hl => (h.entry l hl).symm⟩

theorem mono (h : AgreeOff L s t) (hLM : L ⊆ M) : AgreeOff M s t :=
  ⟨h.working, h.directory, fun l hl => h.entry l fun hm => hl (hLM hm)⟩

theorem grows (h : AgreeOff L s t) : s.Grows t := ⟨h.working, fun l => (h.directory l).2⟩

theorem changesOnly (h : AgreeOff L s t) : ChangesOnly L s t :=
  ⟨h.grows, fun l bytes hl => by rw [h.entry l hl]⟩

theorem of_changesOnly (h : ChangesOnly L s t) (h' : ChangesOnly L t s) : AgreeOff L s t := by
  refine ⟨h.working, fun l => ⟨h'.grows.directory l, h.grows.directory l⟩, fun l hl => ?_⟩
  refine Option.ext fun e => ?_
  cases e with
  | directory => exact ⟨h'.grows.directory l, h.grows.directory l⟩
  | file bytes => exact h.file l bytes hl

/-- A path can be walked in the one exactly if it can in the other. -/
theorem locate_iff (h : AgreeOff L s t) : t.locate p = .ok l ↔ s.locate p = .ok l :=
  ⟨h.symm.grows.locate, h.grows.locate⟩

theorem walk (h : AgreeOff ∅ s t) (l : Location) (ps : List (List Char)) :
    t.walk l ps = s.walk l ps := by
  induction ps generalizing l with
  | nil => rfl
  | cons piece rest ih =>
    have hstep : t.step l piece = s.step l piece := by
      unfold step
      rw [h.entry l (Set.notMem_empty l)]
    rw [FileStore.walk, FileStore.walk, hstep]
    cases s.step l piece with
    | error e => rfl
    | ok l' => exact ih l'

/-- **Stores that agree everywhere** answer the same of every path. -/
theorem stat (h : AgreeOff ∅ s t) (p : Path) : t.stat p = s.stat p := by
  have hlocate : t.locate p = s.locate p := by
    unfold locate
    rw [h.working, h.walk]
  unfold FileStore.stat
  rw [hlocate]
  cases s.locate p with
  | error e => rfl
  | ok l => simp only [h.entry l (Set.notMem_empty l)]

end AgreeOff

theorem agreeOff_setFile (h : s.lookup? l ≠ some .directory) (bytes : ByteArray) :
    AgreeOff {l} s (s.setFile l bytes) := by
  have hne := ne_nil_of_lookup? h
  refine ⟨rfl, fun l' => ?_, fun l' hl' => ?_⟩
  · rw [lookup?_setFile s hne]
    split
    · rename_i he
      rw [← he]
      simp [h]
    · rfl
  · rw [lookup?_setFile s hne, if_neg fun he => hl' he.symm]

/-! ## What is above a file -/

section Above

open SwiftBindings.Path

/-- Before its last steps, a path that can be walked is in a directory. -/
theorem lookup?_of_locate (h : s.locate p = .ok l) {Q : List Piece} {piece : Piece}
    (hpre : Q ++ [piece] <+: p.pieces) :
    s.lookup? ((Q.map (·.text)).foldl Location.follow (p.origin s.working)) = some .directory := by
  obtain ⟨more, hm⟩ := hpre
  have hwalk := (locate_eq_ok_iff.1 h).2
  rw [← map_text_pieces, ← hm, List.map_append, List.map_append] at hwalk
  obtain ⟨l₁, hfirst, -⟩ := walk_append_eq_ok_iff.1 hwalk
  obtain ⟨l₂, hQ, hd, -⟩ := walk_append_singleton_eq_ok_iff.1 hfirst
  rw [← walk_eq_foldl hQ]
  exact hd

/-- The path spelled by the first pieces of a path leads where these lead. -/
theorem destination_ofPieces {piece : Piece} {rest : List Piece} {c : Component}
    (hpre : (piece :: rest).reverse <+: p.pieces) (hc : piece.component? = some c)
    (hr : c ≠ .root) (working : Location) :
    (ofPieces (piece :: rest).reverse).destination working =
      ((piece :: rest).reverse.map (·.text)).foldl Location.follow (p.origin working) := by
  have hroot := reverse_ne_root hc hr rest
  unfold destination origin
  rw [texts_ofPieces hpre (by simp) hroot,
    isAbsolute_ofPieces hpre hroot (text_ofPieces_ne_empty hpre hc hr)]

/-- **What is above a file is a directory.** The induction is on the pieces that lead to it, last
piece first, as the paths above it are listed. -/
theorem lookup?_of_mem_ancestors (h : s.readBytes p = .ok bytes) (hq : q ∈ p.ancestors.tail)
    (hne : q.text ≠ "") : s.lookup? (q.destination s.working) = some .directory := by
  obtain ⟨l, hl, hf⟩ := readBytes_eq_ok_iff.1 h
  have hrev : ∀ (rev : List Piece) piece, (piece :: rev).reverse <+: p.pieces →
      q ∈ ancestorsOf rev → s.lookup? (q.destination s.working) = some .directory := by
    intro rev
    induction rev with
    | nil =>
      intro _ _ hm
      rw [List.mem_singleton.1 hm] at hne
      exact absurd rfl hne
    | cons piece rest ih =>
      intro next hpre hm
      have hpre' := reverse_prefix_of_cons hpre
      cases hc : piece.component? with
      | none =>
        rw [ancestorsOf_cons_none hc] at hm
        exact ih piece hpre' hm
      | some c =>
        by_cases hr : c = .root
        · subst hr
          rw [ancestorsOf_cons_root hc] at hm
          rw [List.mem_singleton.1 hm]
          rfl
        · rw [ancestorsOf_cons_some hc hr] at hm
          rcases List.mem_cons.1 hm with rfl | hm
          · rw [destination_ofPieces hpre' hc hr]
            rw [List.reverse_cons] at hpre
            exact lookup?_of_locate hl hpre
          · exact ih piece hpre' hm
  obtain ⟨piece, rest, c, hpieces, hc, hr⟩ := exists_last_piece hl (by simp [hf])
  obtain ⟨dir, hdir, hanc⟩ := exists_parent? hpieces hc hr
  rw [← ancestors_of_parent? hdir, hanc] at hq
  have hall : (piece :: rest).reverse = p.pieces := by rw [← hpieces, List.reverse_reverse]
  exact hrev rest piece (hall ▸ List.prefix_rfl) hq

end Above

/-! ## Files that are put -/

/-- A file that can be read in the smaller store can be read in the greater one. -/
theorem Within.readBytes (h : s.Within t) (hr : s.readBytes p = .ok bytes) :
    ∃ bytes', t.readBytes p = .ok bytes' := by
  obtain ⟨l, hl, hf⟩ := readBytes_eq_ok_iff.1 hr
  obtain ⟨bytes', hf'⟩ := h.file l bytes hf
  exact ⟨bytes', readBytes_eq_ok_iff.2 ⟨l, h.grows.locate hl, hf'⟩⟩

/-- What is left by a file that is put somewhere: it holds the bytes, no other file has changed, and
the directories that are new are on the way to it. -/
structure Settles (p : Path) (bytes : ByteArray) (s t : FileStore) : Prop where
  changes : ChangesOnly {p.destination s.working} s t
  holds : t.readBytes p = .ok bytes
  made : ∀ l, t.lookup? l = some .directory → s.lookup? l = some .directory ∨
    ∃ q ∈ p.ancestors.tail, q.text ≠ "" ∧ l = q.destination s.working

namespace Settles

theorem lookup? (h : Settles p bytes s t) :
    t.lookup? (p.destination s.working) = some (.file bytes) := by
  obtain ⟨l, hl, he⟩ := readBytes_eq_ok_iff.1 h.holds
  rw [← h.changes.working, ← locate_eq_destination hl]
  exact he

theorem within (h : Settles p bytes s t) : s.Within t :=
  h.changes.within fun l hl => ⟨bytes, by rw [Set.mem_singleton_iff.1 hl]; exact h.lookup?⟩

/-- **A file that is put into two stores is the same in both.** Directories that are made for it in
the first are on the way to it in the second, too. -/
theorem changesOnly (h : ChangesOnly L s₁ s₂) (h₁ : Settles p bytes s₁ t₁)
    (h₂ : Settles p bytes s₂ t₂) : ChangesOnly (L \ {p.destination s₁.working}) t₁ t₂ := by
  have hworking : t₂.working = s₁.working := h₂.changes.working.trans h.working
  refine ⟨⟨hworking.trans h₁.changes.working.symm, fun l hd => ?_⟩, fun l b hl => ?_⟩
  · rcases h₁.made l hd with hold | ⟨q, hq, hne, rfl⟩
    · exact h₂.changes.grows.directory l (h.grows.directory l hold)
    · rw [← hworking]
      exact lookup?_of_mem_ancestors h₂.holds hq hne
  · by_cases hdest : l = p.destination s₁.working
    · have hfile₂ := h₂.lookup?
      rw [h.working] at hfile₂
      rw [hdest, h₁.lookup?, hfile₂]
    · have hout : l ∉ L := fun hm => hl ⟨hm, hdest⟩
      have hdest₂ : l ∉ ({p.destination s₂.working} : Set Location) := by
        rw [h.working]
        exact hdest
      rw [h₂.changes.file l b hdest₂, h.file l b hout, h₁.changes.file l b hdest]

end Settles

/-- **New directories** are at the destinations of paths that were to be made. -/
theorem makeDirectories_made (s : FileStore) (dirs : List Path)
    (h : (s.makeDirectories dirs).2.lookup? l = some .directory) :
    s.lookup? l = some .directory ∨ ∃ q ∈ dirs, q.text ≠ "" ∧ l = q.destination s.working := by
  have hone : ∀ {s t : FileStore} {dir : Path}, s.makeDirectory dir = .ok t →
      t.lookup? l = some .directory →
        s.lookup? l = some .directory ∨ l = dir.destination s.working := by
    intro s t dir hm hd
    obtain ⟨l', hl', hnone, rfl⟩ := makeDirectory_eq_ok_iff.1 hm
    rw [lookup?_setDirectory s (ne_nil_of_lookup? (s := s) (by simp [hnone]))] at hd
    split at hd
    · rename_i he
      exact .inr (he ▸ locate_eq_destination hl')
    · exact .inl hd
  induction dirs generalizing s with
  | nil => exact .inl h
  | cons dir above ih =>
    unfold makeDirectories at h
    split at h
    · exact .inl h
    rename_i hne
    have hself : l = dir.destination s.working →
        ∃ q ∈ dir :: above, q.text ≠ "" ∧ l = q.destination s.working := fun he =>
      ⟨dir, List.mem_cons_self, hne, he⟩
    split at h
    · rename_i s' hmade
      exact (hone hmade h).imp_right hself
    · have hup := ih s
      have hworking := (makeDirectories_changesOnly s above).working
      -- what is made above is made here
      have hlift : (∃ q ∈ above, q.text ≠ "" ∧ l = q.destination s.working) →
          ∃ q ∈ dir :: above, q.text ≠ "" ∧ l = q.destination s.working := fun ⟨q, hq, hq'⟩ =>
        ⟨q, List.mem_cons_of_mem dir hq, hq'⟩
      split at h
      · rename_i e s' ha
        rw [ha] at hup
        exact (hup h).imp_right hlift
      · rename_i s' ha
        rw [ha] at hup hworking
        split at h
        · rename_i s'' hmade
          rcases hone hmade h with hold | hnew
          · exact (hup hold).imp_right hlift
          · rw [hworking] at hnew
            exact .inr (hself hnew)
        · split at h <;> exact (hup h).imp_right hlift
    · split at h <;> exact .inl h

/-- **A file that is put somewhere with success.** -/
theorem put_settles (h : s.put p bytes = (.ok (), t)) : Settles p bytes s t := by
  obtain ⟨hc, hok, -⟩ := put_spec h
  refine ⟨hc, (hok rfl).2, fun l hd => ?_⟩
  have hfinish : ∀ s', put.finish p bytes s' = (.ok (), t) → s'.lookup? l = some .directory := by
    intro s' hf
    unfold put.finish at hf
    split at hf
    · simp at hf
    · rename_i t' hw
      obtain ⟨l', -, hnot, rfl⟩ := writeBytes_eq_ok_iff.1 hw
      rw [← (Prod.mk.inj hf).2, lookup?_setFile s' (ne_nil_of_lookup? hnot)] at hd
      split at hd
      · simp at hd
      · exact hd
  unfold put at h
  split at h
  · exact .inl (hfinish s h)
  · rename_i dir hdir
    have hmade := makeDirectories_made s dir.ancestors (l := l)
    rw [Path.ancestors_of_parent? hdir] at h hmade
    split at h
    · simp at h
    · rename_i s' hs'
      rw [hs'] at hmade
      exact hmade (hfinish s' h)

variable {preamble content : String} {r : Except FileError Written}

/-- **A file that is overwritten with success.** -/
theorem overwrite_settles (h : s.overwrite p preamble content = (r, t)) (hr : r.isOk = true) :
    Settles p (preamble ++ content).toUTF8 s t := by
  unfold overwrite at h
  split at h
  · obtain ⟨rfl, -⟩ := Prod.mk.inj h
    simp at hr
  · rename_i s' hput
    rw [← (Prod.mk.inj h).2]
    exact put_settles hput

/-- **A file that is appended to with success,** if it is there. -/
theorem append_settles (h : s.append p preamble content = (r, t)) (hr : r.isOk = true)
    (hread : s.readBytes p = .ok bytes) :
    ∃ text, s.readText p = .ok text ∧ Settles p (text ++ content).toUTF8 s t := by
  have hexists : s.exists? p = true := by
    obtain ⟨l, hl⟩ := readBytes_eq_ok_iff.1 hread
    unfold exists?
    rw [stat_eq_ok_iff.2 ⟨l, hl⟩]
    rfl
  unfold append at h
  rw [if_pos hexists] at h
  split at h
  · obtain ⟨rfl, -⟩ := Prod.mk.inj h
    simp at hr
  · rename_i text htext
    refine ⟨text, htext, ?_⟩
    split at h
    · obtain ⟨rfl, -⟩ := Prod.mk.inj h
      simp at hr
    · rename_i s' hput
      rw [← (Prod.mk.inj h).2]
      exact put_settles hput

/-! ## Files that are removed -/

/-- What is left by files that are removed: directories stay, and so do the files outside `M`. -/
structure Clears (M : Set Location) (s t : FileStore) : Prop where
  working : t.working = s.working
  directory : ∀ l, t.lookup? l = some .directory ↔ s.lookup? l = some .directory
  file : ∀ l bytes, t.lookup? l = some (.file bytes) ↔ s.lookup? l = some (.file bytes) ∧ l ∉ M

namespace Clears

theorem refl (s : FileStore) : Clears ∅ s s :=
  ⟨rfl, fun _ => Iff.rfl, fun l _ => by simp⟩

theorem trans (h₁ : Clears M₁ s t) (h₂ : Clears M₂ t u) : Clears (M₁ ∪ M₂) s u := by
  refine ⟨h₂.working.trans h₁.working, fun l => (h₂.directory l).trans (h₁.directory l),
    fun l bytes => ?_⟩
  rw [h₂.file, h₁.file, Set.mem_union, not_or, and_assoc]

theorem locate_iff (h : Clears M s t) : t.locate p = .ok l ↔ s.locate p = .ok l := by
  have hst : s.Grows t := ⟨h.working, fun l => (h.directory l).2⟩
  have hts : t.Grows s := ⟨h.working.symm, fun l => (h.directory l).1⟩
  exact ⟨hts.locate, hst.locate⟩

/-- A file that is removed and put there again is a file that is put there. -/
theorem settles (h : Clears M s t) (hc : ChangesOnly {p.destination s.working} s t)
    (hset : Settles p bytes t u) : Settles p bytes s u := by
  have hchanges := hset.changes
  have hmade := hset.made
  rw [h.working] at hchanges hmade
  exact ⟨hc.trans hchanges, hset.holds, fun l hl => (hmade l hl).imp_left (h.directory l).1⟩

/-- **Files that are removed from two stores** are in neither. -/
theorem changesOnly (h : ChangesOnly L s₁ s₂) (h₁ : Clears M₁ s₁ t₁) (h₂ : Clears M₂ s₂ t₂)
    (hM : M₁ ⊆ M₂) : ChangesOnly ((L ∪ M₂) \ M₁) t₁ t₂ := by
  refine ⟨⟨(h₂.working.trans h.working).trans h₁.working.symm, fun l hd => ?_⟩, fun l b hl => ?_⟩
  · exact (h₂.directory l).2 (h.grows.directory l ((h₁.directory l).1 hd))
  · rw [h₁.file, h₂.file]
    by_cases hm : l ∈ M₁
    · simp [hm, hM hm]
    · have hout : l ∉ L ∪ M₂ := fun hmem => hl ⟨hmem, hm⟩
      rw [h.file l b fun hL => hout (.inl hL)]
      simp [hm, show l ∉ M₂ from fun hM₂ => hout (.inr hM₂)]

end Clears

/-- **A file that is removed with success,** if it is there. -/
theorem removeStale_clears {r : Except FileError Bool} (h : s.removeStale p = (r, t))
    (hr : r.isOk = true) : Clears {l | s.locate p = .ok l} s t := by
  -- if nothing is found, nothing has to go
  have hstay : (∀ l, s.locate p = .ok l → s.lookup? l = none) →
      Clears {l | s.locate p = .ok l} s s := by
    intro hnone
    refine ⟨rfl, fun _ => Iff.rfl, fun l b => ⟨fun hf => ⟨hf, fun hl => ?_⟩, And.left⟩⟩
    rw [hnone l hl] at hf
    simp at hf
  unfold removeStale removeFile at h
  cases hl : s.locate p with
  | error e =>
    rw [hl] at h hstay
    cases e with
    | missing =>
      rw [← (Prod.mk.inj h).2]
      exact hstay fun l hl => by simp at hl
    | refused | nulByte | notText =>
      obtain ⟨rfl, -⟩ := Prod.mk.inj h
      simp at hr
  | ok l =>
    rw [hl] at h hstay
    cases he : s.lookup? l with
    | none =>
      simp only [he] at h
      rw [← (Prod.mk.inj h).2]
      exact hstay fun l' hl' => by rw [← Except.ok.inj hl']; exact he
    | some entry =>
      cases entry with
      | directory =>
        simp only [he] at h
        obtain ⟨rfl, -⟩ := Prod.mk.inj h
        simp at hr
      | file b =>
        simp only [he] at h
        rw [← (Prod.mk.inj h).2]
        have hne : l ≠ [] := ne_nil_of_lookup? (s := s) (by simp [he])
        refine ⟨rfl, fun l' => ?_, fun l' b' => ?_⟩
        · rw [lookup?_unlink s hne]
          split
          · rename_i heq
            rw [← heq, he]
            simp
          · rfl
        · rw [lookup?_unlink s hne, Set.mem_ofPred_eq, Except.ok.injEq]
          by_cases heq : l = l' <;> simp [heq]

end SwiftBindings.FileStore
