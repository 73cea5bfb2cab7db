import SwiftBindings.Proofs.FileStore.Effect
import SwiftBindings.Proofs.Path.Ancestors

/-!
# Stores within a store

A store is within another if its directories are directories there and its files files there,
whatever they hold. A file that is in the greater store can be put into the smaller one, and the
result is within the greater one again: what is in its way is in the way there too. So whether some
files can be put into a store does not depend on the order in which they are put.

* `ChangesOnly.within`, `within_of_put`: a store is within what a successful operation makes of it.
* `Within.makeDirectories`: directories of the greater store can be made in the smaller.
* `exists_last_step`: the last step of a path that leads to no directory.
* `Within.put`: **files of the greater store can be put into the smaller**.
* `lookup?_origin_of_put`: nothing is put behind a working directory that is not there.
-/

namespace SwiftBindings.FileStore

variable {s s' t u : FileStore} {l l' : Location} {p : Path} {bytes : ByteArray}

/-- The directories of a store are directories of another, and its files are files there. -/
structure Within (s t : FileStore) : Prop where
  grows : s.Grows t
  file : ∀ l bytes, s.lookup? l = some (.file bytes) → ∃ bytes', t.lookup? l = some (.file bytes')

namespace Within

theorem refl (s : FileStore) : s.Within s := ⟨.refl s, fun _ bytes h => ⟨bytes, h⟩⟩

theorem trans (h₁ : s.Within t) (h₂ : t.Within u) : s.Within u := by
  refine ⟨h₁.grows.trans h₂.grows, fun l bytes h => ?_⟩
  obtain ⟨bytes', h'⟩ := h₁.file l bytes h
  exact h₂.file l bytes' h'

/-- What is at a directory of the greater store. -/
theorem lookup?_directory (h : s.Within t) (hl : t.lookup? l = some .directory) :
    s.lookup? l = some .directory ∨ s.lookup? l = none := by
  cases he : s.lookup? l with
  | none => exact .inr rfl
  | some e =>
    cases e with
    | directory => exact .inl rfl
    | file bytes =>
      obtain ⟨bytes', h'⟩ := h.file l bytes he
      rw [hl] at h'
      simp at h'

/-- A walk through the greater store leads to the same place, unless a directory on the way is not
there yet. -/
theorem walk (h : s.Within t) {ps : List (List Char)} (hw : t.walk l ps = .ok l') :
    s.walk l ps = .ok l' ∨ s.walk l ps = .error .missing := by
  induction ps generalizing l with
  | nil => exact .inl hw
  | cons piece rest ih =>
    obtain ⟨hd, hf, hw⟩ := walk_cons_eq_ok_iff.1 hw
    rcases h.lookup?_directory hd with hd' | hn
    · rw [FileStore.walk, step_eq_ok_iff.2 ⟨hd', hf, rfl⟩]
      exact ih hw
    · right
      rw [FileStore.walk]
      simp [step, hn]

theorem setDirectory (h : s.Within t) (hl : t.lookup? l = some .directory)
    (hn : s.lookup? l = none) : (s.setDirectory l).Within t := by
  have hne : l ≠ [] := ne_nil_of_lookup? (s := s) (by simp [hn])
  refine ⟨⟨h.grows.working, fun l' hd => ?_⟩, fun l' bytes hf => ?_⟩
  · rw [lookup?_setDirectory s hne] at hd
    split at hd
    · rename_i he; rw [← he]; exact hl
    · exact h.grows.directory l' hd
  · rw [lookup?_setDirectory s hne] at hf
    split at hf
    · simp at hf
    · exact h.file l' bytes hf

theorem setFile (h : s.Within t) {bytes' : ByteArray} (hl : t.lookup? l = some (.file bytes'))
    (bytes : ByteArray) : (s.setFile l bytes).Within t := by
  have hne : l ≠ [] := ne_nil_of_lookup? (s := t) (by simp [hl])
  refine ⟨⟨h.grows.working, fun l' hd => ?_⟩, fun l' b hf => ?_⟩
  · rw [lookup?_setFile s hne] at hd
    split at hd
    · simp at hd
    · exact h.grows.directory l' hd
  · rw [lookup?_setFile s hne] at hf
    split at hf
    · rename_i he; rw [← he]; exact ⟨bytes', hl⟩
    · exact h.file l' b hf

theorem locate (h : s.Within t) (hl : t.locate p = .ok l) :
    s.locate p = .ok l ∨ s.locate p = .error .missing := by
  obtain ⟨hw, hwalk⟩ := locate_eq_ok_iff.1 hl
  rw [locate_eq_walk s hw]
  rw [h.grows.working] at hwalk
  exact h.walk hwalk

/-- A directory of the greater store whose path can be walked can be made, unless it is there. -/
theorem makeDirectory (h : s.Within t) (hl : s.locate p = .ok l)
    (hd : t.lookup? l = some .directory) :
    ∃ s', s'.Within t ∧ s.Grows s' ∧ s'.lookup? l = some .directory ∧
      (s.makeDirectory p = .ok s' ∨
        s.makeDirectory p = .error .refused ∧ s.isDirectory p = true ∧ s' = s) := by
  unfold FileStore.makeDirectory
  rw [hl]
  rcases h.lookup?_directory hd with hd' | hn
  · exact ⟨s, h, .refl s, hd', .inr ⟨by simp [hd'], isDirectory_iff.2 ⟨l, hl, hd'⟩, rfl⟩⟩
  · have hne : l ≠ [] := ne_nil_of_lookup? (s := s) (by simp [hn])
    refine ⟨s.setDirectory l, h.setDirectory hd hn, (setDirectory_changesOnly hn).grows, ?_,
      .inl (by simp [hn])⟩
    rw [lookup?_setDirectory s hne, if_pos rfl]

end Within

theorem ChangesOnly.within {L : Set Location} (h : ChangesOnly L s t)
    (hf : ∀ l ∈ L, ∃ bytes, t.lookup? l = some (.file bytes)) : s.Within t := by
  refine ⟨h.grows, fun l bytes hl => ?_⟩
  by_cases hm : l ∈ L
  · exact hf l hm
  · exact ⟨bytes, (h.file l bytes hm).2 hl⟩

/-- A store is within what a file that is put somewhere makes of it. -/
theorem within_of_put (h : s.put p bytes = (.ok (), t)) : s.Within t := by
  obtain ⟨hc, hok, -⟩ := put_spec h
  obtain ⟨l, hl, hf⟩ := readBytes_eq_ok_iff.1 (hok rfl).2
  refine hc.within fun l' hm => ⟨bytes, ?_⟩
  rw [Set.mem_singleton_iff.1 hm, ← hc.working, ← locate_eq_destination hl]
  exact hf

/-! ## Directories above a path -/

section Above

open SwiftBindings.Path

/-- The path spelled by the first pieces of a path leads where these lead. -/
theorem locate_ofPieces (hp : Wellformed p) {piece : Piece} {rest : List Piece} {c : Component}
    (hpre : (piece :: rest).reverse <+: p.pieces) (hc : piece.component? = some c)
    (hr : c ≠ .root) (s : FileStore) :
    s.locate (ofPieces (piece :: rest).reverse) =
      s.walk (p.origin s.working) ((piece :: rest).reverse.map (·.text)) := by
  have hroot := reverse_ne_root hc hr rest
  have hne := text_ofPieces_ne_empty hpre hc hr
  obtain ⟨tail, ht⟩ := prefix_text_ofPieces hpre hroot
  obtain ⟨hnul, -, hsize⟩ := hp
  have hw : Wellformed (ofPieces (piece :: rest).reverse) := by
    refine ⟨?_, hne, ?_⟩
    · rw [← ht] at hnul
      simp only [List.contains_eq_mem, List.mem_append, decide_eq_false_iff_not, not_or] at hnul ⊢
      exact hnul.1
    · have he : p.text = (ofPieces (piece :: rest).reverse).text ++ String.ofList tail := by
        rw [← String.toList_inj, String.toList_append, String.toList_ofList, ht]
      rw [he, String.utf8ByteSize_append] at hsize
      omega
  rw [locate_eq_walk s hw, texts_ofPieces hpre (by simp) hroot]
  unfold origin
  rw [isAbsolute_ofPieces hpre hroot hne]

/-- Nothing is made of directories the first of which is there. -/
theorem makeDirectories_of_isDirectory {dir : Path} (hne : dir.text ≠ "")
    (h : s.isDirectory dir = true) (above : List Path) :
    s.makeDirectories (dir :: above) = (.ok (), s) := by
  obtain ⟨l, hl, hd⟩ := isDirectory_iff.1 h
  have hrefused : s.makeDirectory dir = .error .refused := by
    unfold FileStore.makeDirectory
    simp [hl, hd]
  unfold FileStore.makeDirectories
  simp [hne, hrefused, h]

theorem isDirectory_root (s : FileStore) : s.isDirectory ⟨"/"⟩ = true := by
  refine isDirectory_iff.2 ⟨[], locate_eq_ok_iff.2 ?_, rfl⟩
  exact ⟨⟨by decide, by decide, by decide⟩, rfl⟩

/-- **Directories of the greater store can be made in the smaller.** The induction is on the pieces
that lead to the directory, last piece first, as the directories above it are tried. -/
theorem Within.makeDirectories (hp : Wellformed p) (h : s.Within t)
    (ho : s.lookup? (p.origin s.working) = some .directory) {rev : List Piece}
    (hpre : rev.reverse <+: p.pieces)
    (hw : t.walk (p.origin t.working) (rev.reverse.map (·.text)) = .ok l)
    (hd : t.lookup? l = some .directory) :
    ∃ s', s.makeDirectories (ancestorsOf rev) = (.ok (), s') ∧ s'.Within t ∧ s.Grows s' ∧
      s'.walk (p.origin s.working) (rev.reverse.map (·.text)) = .ok l ∧
      s'.lookup? l = some .directory := by
  have hwork : t.working = s.working := h.grows.working
  rw [hwork] at hw
  induction rev generalizing l with
  | nil =>
    obtain rfl : p.origin s.working = l := by simpa [FileStore.walk] using hw
    exact ⟨s, by simp [ancestorsOf, FileStore.makeDirectories], h, .refl s, rfl, ho⟩
  | cons piece rest ih =>
    -- the last piece is one step from the directory that the others lead to
    have hpre' := reverse_prefix_of_cons hpre
    have htexts : (piece :: rest).reverse.map (·.text) =
        rest.reverse.map (·.text) ++ [piece.text] := by simp
    rw [htexts] at hw
    obtain ⟨l₁, hw₁, hd₁, hfits, rfl⟩ := walk_append_singleton_eq_ok_iff.1 hw
    have hstep : ∀ u : FileStore, u.walk (p.origin s.working) (rest.reverse.map (·.text)) = .ok l₁ →
        u.lookup? l₁ = some .directory →
        u.walk (p.origin s.working) ((piece :: rest).reverse.map (·.text)) =
          .ok (l₁.follow piece.text) := by
      intro u hu hud
      rw [htexts]
      exact walk_append_singleton_eq_ok_iff.2 ⟨l₁, hu, hud, hfits, rfl⟩
    cases hc : piece.component? with
    | none =>
      -- nothing is made for such a piece, and it stays where it is
      have hm : piece ∈ p.pieces := hpre.subset (by simp)
      have hstay : l₁.follow piece.text = l₁ := by
        unfold Location.follow
        rw [if_pos (text_of_component?_eq_none hm hc)]
      rw [ancestorsOf_cons_none hc]
      obtain ⟨s', hs', hin, hg, hw', hd'⟩ := ih hpre' hw₁ hd₁
      exact ⟨s', hs', hin, hg, hstep s' hw' hd', by rw [hstay]; exact hd'⟩
    | some c =>
    by_cases hr : c = .root
    · -- the root is there
      subst hr
      obtain ⟨rfl, htext, -⟩ := eq_nil_of_root hpre hc
      obtain rfl : p.origin s.working = l₁ := by simpa [FileStore.walk] using hw₁
      have hstay : (p.origin s.working).follow piece.text = p.origin s.working := by
        rw [htext]; rfl
      refine ⟨s, ?_, h, .refl s, hstep s rfl ho, by rw [hstay]; exact ho⟩
      rw [ancestorsOf_cons_root hc]
      exact makeDirectories_of_isDirectory (by decide) s.isDirectory_root []
    · rw [ancestorsOf_cons_some hc hr]
      have hloc := locate_ofPieces hp hpre hc hr
      have hne := text_ofPieces_ne_empty hpre hc hr
      set dir := ofPieces (piece :: rest).reverse
      have hloct : t.locate dir = .ok (l₁.follow piece.text) := by
        rw [hloc t, hwork]
        exact hstep t hw₁ hd₁
      unfold FileStore.makeDirectories
      rw [if_neg hne]
      rcases h.locate hloct with hl | hmissing
      · obtain ⟨s', hin, hg, hd', hmade | ⟨hrefused, hdir, rfl⟩⟩ := h.makeDirectory hl hd
        · rw [hloc s] at hl
          exact ⟨s', by rw [hmade], hin, hg, hg.walk hl, hd'⟩
        · rw [hloc s'] at hl
          exact ⟨s', by simp [hrefused, hdir], h, .refl s', hl, hd'⟩
      · -- the directories above are made first
        obtain ⟨s₁, hs₁, hin₁, hg₁, hw', hd₁'⟩ := ih hpre' hw₁ hd₁
        have hnone : s.makeDirectory dir = .error .missing := by
          unfold FileStore.makeDirectory
          rw [hmissing]
        have hwalk := hstep s₁ hw' hd₁'
        have hl₁ : s₁.locate dir = .ok (l₁.follow piece.text) := by
          rw [hloc s₁, hg₁.working]
          exact hwalk
        obtain ⟨s', hin, hg, hd', hmade | ⟨hrefused, hdir, rfl⟩⟩ := hin₁.makeDirectory hl₁ hd
        · exact ⟨s', by simp [hnone, hs₁, hmade], hin, hg₁.trans hg, hg.walk hwalk, hd'⟩
        · exact ⟨s', by simp [hnone, hs₁, hrefused, hdir], hin, hg₁, hwalk, hd'⟩

/-- A path that leads to no directory ends with a component: whatever else it could end with stays
where it is, in a directory. -/
theorem exists_last_piece (hl : t.locate p = .ok l) (hnot : t.lookup? l ≠ some .directory) :
    ∃ piece rest c, p.pieces.reverse = piece :: rest ∧ piece.component? = some c ∧ c ≠ .root := by
  obtain ⟨piece, rest, hrev⟩ :=
    List.exists_cons_of_ne_nil (List.reverse_eq_nil_iff.not.2 p.pieces_ne_nil)
  have hpre : (piece :: rest).reverse <+: p.pieces := by
    rw [← hrev]; simp
  have hpieces : p.pieces = rest.reverse ++ [piece] := by
    rw [← List.reverse_reverse p.pieces, hrev, List.reverse_cons]
  have hwalk := (locate_eq_ok_iff.1 hl).2
  rw [← map_text_pieces, hpieces, List.map_append] at hwalk
  obtain ⟨l₁, -, hd₁, -, rfl⟩ := walk_append_singleton_eq_ok_iff.1 hwalk
  have hmoves : ¬ (piece.text = [] ∨ piece.text = ['.']) := by
    intro hstay
    rw [show l₁.follow piece.text = l₁ from if_pos hstay] at hnot
    exact hnot hd₁
  obtain ⟨c, hc⟩ : ∃ c, piece.component? = some c := by
    refine Option.ne_none_iff_exists'.1 fun hc => hmoves ?_
    exact text_of_component?_eq_none (hpre.subset (by simp)) hc
  refine ⟨piece, rest, c, hrev, hc, ?_⟩
  rintro rfl
  exact hmoves (.inl (eq_nil_of_root hpre hc).2.1)

/-- **The last step to what is no directory** starts from a directory, that of the parent. -/
theorem exists_last_step (hl : t.locate p = .ok l) (hnot : t.lookup? l ≠ some .directory) :
    ∃ (dir : Path) (piece : Piece) (rest : List Piece) (l₁ : Location),
      p.parent? = some dir ∧ dir.ancestors = ancestorsOf rest ∧ rest.reverse <+: p.pieces ∧
      Text.pieces '/' p.text.toList = rest.reverse.map (·.text) ++ [piece.text] ∧
      t.walk (p.origin t.working) (rest.reverse.map (·.text)) = .ok l₁ ∧
      t.lookup? l₁ = some .directory ∧ Fits piece.text ∧ l = l₁.follow piece.text := by
  obtain ⟨piece, rest, c, hrev, hc, hroot⟩ := exists_last_piece hl hnot
  obtain ⟨dir, hdir, hanc⟩ := exists_parent? hrev hc hroot
  have hpieces : p.pieces = rest.reverse ++ [piece] := by
    rw [← List.reverse_reverse p.pieces, hrev, List.reverse_cons]
  have htexts : Text.pieces '/' p.text.toList = rest.reverse.map (·.text) ++ [piece.text] := by
    rw [← map_text_pieces, hpieces, List.map_append]
    rfl
  have hwalk := (locate_eq_ok_iff.1 hl).2
  rw [htexts] at hwalk
  obtain ⟨l₁, hw₁, hd₁, hfits, he⟩ := walk_append_singleton_eq_ok_iff.1 hwalk
  refine ⟨dir, piece, rest, l₁, hdir, hanc, ?_, htexts, hw₁, hd₁, hfits, he⟩
  rw [hpieces]
  exact List.prefix_append _ _

/-- **Files of the greater store can be put into the smaller one**, and the result is within the
greater one again. -/
theorem Within.put (h : s.Within t) (ho : s.lookup? (p.origin s.working) = some .directory)
    (hr : t.readBytes p = .ok bytes) (bytes' : ByteArray) :
    ∃ s', s.put p bytes' = (.ok (), s') ∧ s'.Within t := by
  obtain ⟨l, hl, hf⟩ := readBytes_eq_ok_iff.1 hr
  obtain ⟨dir, piece, rest, l₁, hdir, hanc, hpre, htexts, hw₁, hd₁, hfits, rfl⟩ :=
    exists_last_step hl (by simp [hf])
  have hp := (locate_eq_ok_iff.1 hl).1
  -- the directories are made, and then the last step can be taken
  obtain ⟨s₁, hs₁, hin, hg, hw', hd'⟩ := h.makeDirectories hp ho hpre hw₁ hd₁
  have hlocate : s₁.locate p = .ok (l₁.follow piece.text) := by
    refine locate_eq_ok_iff.2 ⟨hp, ?_⟩
    rw [htexts, hg.working]
    exact walk_append_singleton_eq_ok_iff.2 ⟨l₁, hw', hd', hfits, rfl⟩
  have hnot : s₁.lookup? (l₁.follow piece.text) ≠ some .directory := by
    intro hd
    have := hin.grows.directory _ hd
    rw [hf] at this
    simp at this
  have hwrite : s₁.writeBytes p bytes' = .ok (s₁.setFile (l₁.follow piece.text) bytes') :=
    writeBytes_eq_ok_iff.2 ⟨_, hlocate, hnot, rfl⟩
  refine ⟨s₁.setFile (l₁.follow piece.text) bytes', ?_, hin.setFile hf bytes'⟩
  unfold FileStore.put
  simp only [hdir, hanc, hs₁, put.finish, hwrite]

theorem lookup?_working_of_locate (hp : p.isAbsolute = false) (hl : s.locate p = .ok l) :
    s.lookup? s.working = some .directory := by
  obtain ⟨-, hw⟩ := locate_eq_ok_iff.1 hl
  obtain ⟨piece, rest, hps⟩ := List.exists_cons_of_ne_nil (Text.pieces_ne_nil '/' p.text.toList)
  unfold origin at hw
  rw [hps, hp] at hw
  simp only [Bool.false_eq_true, if_false] at hw
  exact (walk_cons_eq_ok_iff.1 hw).1

/-- Nothing is made if the first directory cannot be made and nothing is made of those above it. -/
theorem makeDirectories_cons_of_ne_ok {dir : Path} {above : List Path}
    (hdir : ∀ u, s.makeDirectory dir ≠ .ok u) (habove : (s.makeDirectories above).2 = s) :
    (s.makeDirectories (dir :: above)).2 = s := by
  unfold FileStore.makeDirectories
  split
  · rfl
  split
  · rename_i u he
    exact absurd he (hdir u)
  · cases ha : s.makeDirectories above with
    | mk r s₁ =>
      obtain rfl : s₁ = s := by rw [ha] at habove; exact habove
      cases r with
      | error e => rfl
      | ok v =>
        simp only
        split
        · rename_i u he
          exact absurd he (hdir u)
        · split <;> rfl
  · split <;> rfl

/-- Nothing is made behind a working directory that is not there. -/
theorem makeDirectories_of_not_working (hw : s.lookup? s.working ≠ some .directory)
    {dirs : List Path} (hd : ∀ dir ∈ dirs, dir.isAbsolute = false) :
    (s.makeDirectories dirs).2 = s := by
  induction dirs with
  | nil => rfl
  | cons dir above ih =>
    refine makeDirectories_cons_of_ne_ok (fun u he => ?_)
      (ih fun d hm => hd d (List.mem_cons_of_mem _ hm))
    obtain ⟨l, hl, -⟩ := makeDirectory_eq_ok_iff.1 he
    exact hw (lookup?_working_of_locate (hd dir List.mem_cons_self) hl)

/-- Directories on the way to a path that can be walked once they are made are made in a directory
that is there. -/
theorem lookup?_origin_of_locate (dirs : List Path) (hdirs : ∀ dir ∈ dirs, dir ∈ p.ancestors)
    (hl : (s.makeDirectories dirs).2.locate p = .ok l) :
    s.lookup? (p.origin s.working) = some .directory := by
  unfold origin
  cases hp : p.isAbsolute with
  | true => rfl
  | false =>
    by_contra hw
    have hsame : (s.makeDirectories dirs).2 = s :=
      makeDirectories_of_not_working hw fun dir hdir =>
        isAbsolute_of_mem_ancestors hp (hdirs dir hdir)
    rw [hsame] at hl
    exact hw (lookup?_working_of_locate hp hl)

/-- **Nothing is put behind a working directory that is not there.** -/
theorem lookup?_origin_of_put (h : s.put p bytes = (.ok (), t)) :
    s.lookup? (p.origin s.working) = some .directory := by
  have hfinish : ∀ s₁, put.finish p bytes s₁ = (.ok (), t) → ∃ l, s₁.locate p = .ok l := by
    intro s₁ he
    unfold put.finish at he
    split at he
    · simp at he
    · rename_i hwrite
      obtain ⟨l, hl, -⟩ := writeBytes_eq_ok_iff.1 hwrite
      exact ⟨l, hl⟩
  unfold FileStore.put at h
  split at h
  · obtain ⟨l, hl⟩ := hfinish s h
    exact lookup?_origin_of_locate [] (fun dir hdir => absurd hdir List.not_mem_nil) hl
  · rename_i dir hdir
    split at h
    · simp at h
    · rename_i s₁ hmake
      obtain ⟨l, hl⟩ := hfinish s₁ h
      refine lookup?_origin_of_locate dir.ancestors (l := l) (fun q hq => ?_) ?_
      · rw [ancestors_of_parent? hdir] at hq
        exact List.mem_of_mem_tail hq
      · rw [hmake]
        exact hl

end Above

end SwiftBindings.FileStore
