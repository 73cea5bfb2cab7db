import SwiftBindings.Proofs.FileStore.Within
import SwiftBindings.Proofs.Table.Merge

/-!
# The same done again

What a file is made to hold has no say in whether it can be written: directories are made first, as
far as they can be, and then the write is refused or not. Done again, none of this makes anything
new. So a file that could be written once is only written anew, and one that could not be written
cannot be written later either.

* `makeDirectories_again`: making directories again makes nothing, even if it has failed.
* `put_of_locate`: a file is written in place if its directory is there.
* `put_cases`: **a file that is put somewhere**, in closed form.
* `put_again`: **a file that could not be put there** cannot be put there later.
-/

namespace SwiftBindings.FileStore

variable {s t u : FileStore} {l : Location} {p dir : Path} {bytes : ByteArray}

/-- The later of two texts of a file replaces the earlier. -/
@[simp] theorem setFile_setFile (s : FileStore) (l : Location) (a b : ByteArray) :
    (s.setFile l a).setFile l b = s.setFile l b := by
  unfold setFile
  rw [Table.insert_insert]

/-! ## Directories -/

section Directories

open SwiftBindings.Path

/-- Nothing is made of the directories on a walk that leads to a directory. -/
theorem makeDirectories_of_walk (hp : Wellformed p) {rev : List Piece}
    (hpre : rev.reverse <+: p.pieces)
    (hw : s.walk (p.origin s.working) (rev.reverse.map (·.text)) = .ok l)
    (hd : s.lookup? l = some .directory) :
    s.makeDirectories (ancestorsOf rev) = (.ok (), s) := by
  induction rev generalizing l with
  | nil => simp [ancestorsOf, makeDirectories]
  | cons piece rest ih =>
    cases hc : piece.component? with
    | none =>
      rw [List.reverse_cons, List.map_append] at hw
      obtain ⟨l₁, hw₁, hd₁, -⟩ := walk_append_singleton_eq_ok_iff.1 hw
      rw [ancestorsOf_cons_none hc]
      exact ih (reverse_prefix_of_cons hpre) hw₁ hd₁
    | some c =>
      by_cases hr : c = .root
      · rw [hr] at hc
        rw [ancestorsOf_cons_root hc]
        exact makeDirectories_of_isDirectory (by decide) s.isDirectory_root []
      · rw [ancestorsOf_cons_some hc hr]
        refine makeDirectories_of_isDirectory (text_ofPieces_ne_empty hpre hc hr) ?_ _
        exact isDirectory_iff.2 ⟨l, (locate_ofPieces hp hpre hc hr s).trans hw, hd⟩

/-- If directories cannot be made, the next one on their way cannot be made afterwards. -/
theorem makeDirectory_ne_ok {piece : Piece} {rest : List Piece} {c : Component} {e : Failure}
    (hpre : (piece :: rest).reverse <+: p.pieces) (hc : piece.component? = some c)
    (hr : c ≠ .root) (h : s.makeDirectories (ancestorsOf rest) = (.error e, t)) :
    t.makeDirectory (ofPieces (piece :: rest).reverse) ≠ .ok u := by
  intro hmade
  set q := ofPieces (piece :: rest).reverse with hq
  have hpieces : q.pieces = (piece :: rest).reverse := by
    rw [hq, pieces_ofPieces hpre (by simp) (reverse_ne_root hc hr rest)]
  have hrest : rest.reverse <+: q.pieces := by
    rw [hpieces, List.reverse_cons]
    exact List.prefix_append _ _
  -- the walk to the next one goes through those that could not be made
  obtain ⟨l, hl, -⟩ := makeDirectory_eq_ok_iff.1 hmade
  obtain ⟨hwell, hwalk⟩ := locate_eq_ok_iff.1 hl
  rw [← map_text_pieces, hpieces, List.reverse_cons, List.map_append] at hwalk
  obtain ⟨l₁, hw₁, hd₁, -⟩ := walk_append_singleton_eq_ok_iff.1 hwalk
  have hanc : ∀ dir ∈ ancestorsOf rest, dir ∈ q.ancestors := by
    intro dir hdir
    rw [ancestors, hpieces, List.reverse_reverse, ancestorsOf_cons_some hc hr]
    exact List.mem_cons_of_mem _ hdir
  have hchanges := makeDirectories_changesOnly s (ancestorsOf rest)
  have horigin := lookup?_origin_of_locate (s := s) (l := l) _ hanc (by rw [h]; exact hl)
  rw [h] at hchanges
  have hin : s.Within t := hchanges.within fun l hl => absurd hl (Set.notMem_empty l)
  obtain ⟨s', hs', -⟩ := hin.makeDirectories hwell horigin hrest hw₁ hd₁
  rw [h] at hs'
  exact absurd (congrArg Prod.fst hs') (by simp)

/-- **What comes of making directories,** by the first of them. It is there afterwards; or it is
refused at once; or those above it cannot be made; or they can be made and it is refused then. -/
theorem makeDirectories_cons_cases {above : List Path} {r : Except Failure Unit}
    (hne : dir.text ≠ "") (h : s.makeDirectories (dir :: above) = (r, t)) :
    t.isDirectory dir = true ∨
      (t = s ∧ ∀ u, s.makeDirectory dir ≠ .ok u ∧ s.makeDirectory dir ≠ .error .missing) ∨
      (∃ e, s.makeDirectories above = (.error e, t)) ∨
      ((s.makeDirectories above).2 = t ∧ ∀ u, t.makeDirectory dir ≠ .ok u) := by
  have hthere : ∀ {s t : FileStore}, s.makeDirectory dir = .ok t → t.isDirectory dir = true := by
    intro s t hmade
    obtain ⟨l, hl, hnone, rfl⟩ := makeDirectory_eq_ok_iff.1 hmade
    have hgrows := (setDirectory_changesOnly hnone).grows
    refine isDirectory_iff.2 ⟨l, hgrows.locate hl, ?_⟩
    rw [lookup?_setDirectory s (ne_nil_of_lookup? (s := s) (by simp [hnone])), if_pos rfl]
  unfold makeDirectories at h
  rw [if_neg hne] at h
  split at h
  · rename_i s' hmade
    rw [← (Prod.mk.inj h).2]
    exact .inl (hthere hmade)
  · split at h
    · rename_i e s' habove
      rw [← (Prod.mk.inj h).2]
      exact .inr (.inr (.inl ⟨e, habove⟩))
    · rename_i s' habove
      split at h
      · rename_i s'' hmade
        rw [← (Prod.mk.inj h).2]
        exact .inl (hthere hmade)
      · rename_i e hrefused
        have hlast : t = s' := by
          split at h <;> exact (Prod.mk.inj h).2.symm
        rw [hlast, habove]
        exact .inr (.inr (.inr ⟨rfl, fun u hmade => by rw [hrefused] at hmade; cases hmade⟩))
  · rename_i e hnot hrefused
    have hlast : t = s := by
      split at h <;> exact (Prod.mk.inj h).2.symm
    rw [hlast]
    refine .inr (.inl ⟨rfl, fun u => ⟨?_, ?_⟩⟩) <;> rw [hrefused]
    · simp
    · intro he
      exact hnot (Except.error.inj he)

/-- **Making directories again makes nothing,** even if it has failed. The induction is on the pieces
that lead to the directory, last piece first. -/
theorem makeDirectories_again (s : FileStore) {rev : List Piece} (hpre : rev.reverse <+: p.pieces) :
    ((s.makeDirectories (ancestorsOf rev)).2.makeDirectories (ancestorsOf rev)).2 =
      (s.makeDirectories (ancestorsOf rev)).2 := by
  induction rev generalizing s with
  | nil => simp [ancestorsOf, makeDirectories]
  | cons piece rest ih =>
    have hpre' := reverse_prefix_of_cons hpre
    cases hc : piece.component? with
    | none =>
      rw [ancestorsOf_cons_none hc]
      exact ih s hpre'
    | some c =>
      by_cases hr : c = .root
      · rw [hr] at hc
        rw [ancestorsOf_cons_root hc]
        have hroot : ∀ u : FileStore, u.makeDirectories [⟨"/"⟩] = (.ok (), u) := fun u =>
          makeDirectories_of_isDirectory (by decide) u.isDirectory_root []
        rw [hroot, hroot]
      · rw [ancestorsOf_cons_some hc hr]
        have hne := text_ofPieces_ne_empty hpre hc hr
        have hnext := ih s hpre'
        cases hmake : s.makeDirectories (ofPieces (piece :: rest).reverse :: ancestorsOf rest) with
        | mk r t =>
          rcases makeDirectories_cons_cases hne hmake with hthere | ⟨rfl, -⟩ | ⟨e, habove⟩ |
            ⟨habove, hrefused⟩
          · rw [makeDirectories_of_isDirectory hne hthere]
          · rw [hmake]
          · rw [habove] at hnext
            exact makeDirectories_cons_of_ne_ok (fun u => makeDirectory_ne_ok hpre hc hr habove) hnext
          · rw [habove] at hnext
            exact makeDirectories_cons_of_ne_ok hrefused hnext

/-- The paths above a path are those that lead to its first pieces, if there are any. -/
theorem tail_ancestors (p : Path) :
    p.ancestors.tail = [] ∨
      ∃ rest : List Piece, rest.reverse <+: p.pieces ∧ p.ancestors.tail = ancestorsOf rest := by
  have hrev : ∀ rev : List Piece, rev.reverse <+: p.pieces → (ancestorsOf rev).tail = [] ∨
      ∃ rest : List Piece, rest.reverse <+: p.pieces ∧ (ancestorsOf rev).tail = ancestorsOf rest := by
    intro rev
    induction rev with
    | nil => exact fun _ => .inl rfl
    | cons piece rest ih =>
      intro hpre
      have hpre' := reverse_prefix_of_cons hpre
      cases hc : piece.component? with
      | none =>
        rw [ancestorsOf_cons_none hc]
        exact ih hpre'
      | some c =>
        by_cases hr : c = .root
        · rw [hr] at hc
          rw [ancestorsOf_cons_root hc]
          exact .inl rfl
        · rw [ancestorsOf_cons_some hc hr]
          exact .inr ⟨rest, hpre', rfl⟩
  exact hrev p.pieces.reverse (by simp)

end Directories

/-! ## Files -/

section Files

open SwiftBindings.Path

/-- **A file is written in place** if its path leads to no directory: those above it are there. -/
theorem put_of_locate (hl : s.locate p = .ok l) (hnot : s.lookup? l ≠ some .directory)
    (bytes : ByteArray) : s.put p bytes = (.ok (), s.setFile l bytes) := by
  obtain ⟨dir, piece, rest, l₁, hdir, hanc, hpre, -, hw₁, hd₁, -, -⟩ := exists_last_step hl hnot
  have hmake : s.makeDirectories dir.ancestors = (.ok (), s) := by
    rw [hanc]
    exact makeDirectories_of_walk (locate_eq_ok_iff.1 hl).1 hpre hw₁ hd₁
  have hwrite : s.writeBytes p bytes = .ok (s.setFile l bytes) :=
    writeBytes_eq_ok_iff.2 ⟨l, hl, hnot, rfl⟩
  unfold FileStore.put
  simp only [hdir, hmake, put.finish, hwrite]

/-- A store with the directories above a path, as far as they can be made. -/
def madeFor (s : FileStore) (p : Path) : FileStore := (s.makeDirectories p.ancestors.tail).2

/-- **A file that is put somewhere.** With the directories above it made, it is refused or written,
whatever it is made to hold. -/
theorem put_cases (s : FileStore) (p : Path) :
    (∃ e, ∀ bytes, s.put p bytes = (.error e, s.madeFor p)) ∨
      ∃ l, (s.madeFor p).locate p = .ok l ∧ (s.madeFor p).lookup? l ≠ some .directory ∧
        ∀ bytes, s.put p bytes = (.ok (), (s.madeFor p).setFile l bytes) := by
  have hfinish : (∀ bytes, s.put p bytes = put.finish p bytes (s.madeFor p)) ∨
      ∃ e, ∀ bytes, s.put p bytes = (.error e, s.madeFor p) := by
    unfold madeFor
    cases hdir : p.parent? with
    | none =>
      have htail : p.ancestors.tail = [] := by
        unfold parent? at hdir
        exact List.head?_eq_none_iff.1 hdir
      left
      intro bytes
      unfold FileStore.put
      rw [hdir, htail]
      rfl
    | some dir =>
      rw [← ancestors_of_parent? hdir]
      cases hmake : s.makeDirectories dir.ancestors with
      | mk r t =>
        cases r with
        | ok v =>
          left
          intro bytes
          unfold FileStore.put
          simp only [hdir, hmake]
        | error e =>
          right
          refine ⟨⟨.create, dir, e⟩, fun bytes => ?_⟩
          unfold FileStore.put
          simp only [hdir, hmake]
  rcases hfinish with hput | hrefused
  · simp only [hput, put.finish, writeBytes]
    cases hl : (s.madeFor p).locate p with
    | error e => exact .inl ⟨⟨.write, p, e⟩, fun _ => rfl⟩
    | ok l =>
      cases he : (s.madeFor p).lookup? l with
      | none => exact .inr ⟨l, rfl, by simp [he], fun _ => by simp [he]⟩
      | some entry =>
        cases entry with
        | directory => exact .inl ⟨⟨.write, p, .refused⟩, fun _ => by simp [he]⟩
        | file old => exact .inr ⟨l, rfl, by simp [he], fun _ => by simp [he]⟩
  · exact .inl hrefused

/-- Nothing more is made for a path a second time. -/
theorem madeFor_madeFor (s : FileStore) (p : Path) : (s.madeFor p).madeFor p = s.madeFor p := by
  unfold madeFor
  rcases tail_ancestors p with hnil | ⟨rest, hpre, htail⟩
  · rw [hnil]
    rfl
  · rw [htail]
    exact makeDirectories_again s hpre

/-- **A file that could not be put there** cannot be put there later, and nothing more is made. -/
theorem put_again {e : FileError} (h : s.put p bytes = (.error e, t)) :
    ∃ e', ∀ bytes', t.put p bytes' = (.error e', t) := by
  have hmade : t = s.madeFor p := by
    rcases put_cases s p with ⟨_, hput⟩ | ⟨_, -, -, hput⟩
    · exact (Prod.mk.inj (h.symm.trans (hput bytes))).2
    · rw [hput] at h
      cases h
  rcases put_cases t p with ⟨e', hput⟩ | ⟨l, hl, hnot, -⟩
  · refine ⟨e', fun bytes' => ?_⟩
    rw [hput, hmade, madeFor_madeFor]
  · -- it could have been written the first time, where what is missing is made
    exfalso
    rw [hmade, madeFor_madeFor] at hl hnot
    have hin : s.Within ((s.madeFor p).setFile l bytes) := by
      have hchanges : ChangesOnly {l} s ((s.madeFor p).setFile l bytes) :=
        (makeDirectories_changesOnly s p.ancestors.tail).of_empty.trans
          (setFile_changesOnly hnot bytes)
      refine hchanges.within fun l' hl' => ⟨bytes, ?_⟩
      rw [Set.mem_singleton_iff.1 hl', lookup?_setFile _ (ne_nil_of_lookup? hnot), if_pos rfl]
    have horigin := lookup?_origin_of_locate p.ancestors.tail
      (fun _ hdir => List.mem_of_mem_tail hdir) hl
    have hread : ((s.madeFor p).setFile l bytes).readBytes p = .ok bytes := by
      have hput := put_of_locate hl hnot bytes
      exact ((put_spec hput).2.1 rfl).2
    obtain ⟨s', hput, -⟩ := hin.put horigin hread bytes
    rw [hput] at h
    cases h

end Files

end SwiftBindings.FileStore
