import SwiftBindings.Proofs.Layout.FileNames
import SwiftBindings.Proofs.Layout.Groups
import SwiftBindings.Proofs.Run.Delivery

/-!
# What the buckets of a run hold

Three categories write to the same 27 files. `Writer.Holds` is the invariant that carries the
argument: a writer knows which buckets this run has made, each of them holds the preamble and what
it has been sent, and nothing has been sent to the others. Every step keeps it, whether it succeeds
or not and whoever takes it.

* `Holds.send`, `Holds.overwrite`: one step, to a bucket or to another file.
* `Holds.writeAll`: **a run of deliveries leaves every bucket with what was delivered to it.**
* `prepare_spec`: buckets that are cleared and made anew.
-/

namespace SwiftBindings

open FileStore Delivery

namespace Writer

variable {w : Writer} {ms : List Bucket} {text : Bucket → String}

/-- All buckets are open. The buckets `ms` have been made by this run and hold the preamble and the
given texts; nothing has been sent to the others. -/
structure Holds (w : Writer) (ms : List Bucket) (text : Bucket → String) : Prop where
  made : w.buckets? = some ms
  unclosed : w.closed = []
  held : ∀ b ∈ ms, w.store.readBytes (w.names.bucketFile b) = .ok (w.preamble ++ text b).toUTF8
  blank : ∀ b, b ∉ ms → text b = ""

/-- A change away from all buckets keeps what they hold. -/
theorem Holds.of_changesOnly {w' : Writer} {L : Set Location} (h : w.Holds ms text)
    (hb : w'.buckets? = w.buckets?) (hu : w'.closed = w.closed) (hn : w'.names = w.names)
    (hp : w'.preamble = w.preamble) (hc : ChangesOnly L w.store w'.store)
    (hL : ∀ b, (w.names.bucketFile b).destination w.store.working ∉ L) : w'.Holds ms text := by
  refine ⟨hb.trans h.made, hu.trans h.unclosed, fun b hm => ?_, h.blank⟩
  rw [hn, hp]
  exact hc.readBytes (hL b) (h.held b hm)

/-- Overwriting another file keeps what the buckets hold. -/
theorem Holds.overwrite (h : w.Holds ms text) (refused : Bool) {p : Path} (content : String)
    (hp : ∀ b, p.destination w.store.working ≠ (w.names.bucketFile b).destination w.store.working) :
    (w.overwrite refused p content).Holds ms text := by
  have he := (overwrite_effect w refused p content).1
  refine h.of_changesOnly ?_ ?_ ?_ ?_ he fun b hb => hp b (Set.mem_singleton_iff.1 hb).symm
  · simp [Writer.overwrite]
  · simp [Writer.overwrite]
  · simp [Writer.overwrite]
  · simp [Writer.overwrite]

/-- **A bucket that gets content** holds it behind what it held, or nothing has changed. -/
theorem Holds.send (h : w.Holds ms text) (refused : Bool) (b : Bucket) (content : String) :
    ((w.send refused b content).diagnostics = w.diagnostics →
        ∃ ms', (∀ b', b' ∈ ms' ↔ b' = b ∨ b' ∈ ms) ∧
          (w.send refused b content).Holds ms' (Function.update text b (text b ++ content))) ∧
      ((w.send refused b content).diagnostics ≠ w.diagnostics →
        (w.send refused b content).Holds ms text) := by
  have hopen : b ∉ w.closed := by
    rw [h.unclosed]
    exact List.not_mem_nil
  obtain ⟨hc, hok, herr⟩ := send_effect h.made hopen refused content
  have hw : w.write refused ⟨.bucket b, content⟩ = w.send refused b content := rfl
  have hn : (w.send refused b content).names = w.names := by rw [← hw, write_names]
  have hp : (w.send refused b content).preamble = w.preamble := by rw [← hw, write_preamble]
  have hu : (w.send refused b content).closed = w.closed := by rw [← hw, closed_write]
  constructor
  · intro hd
    obtain ⟨⟨ms', hms', hmem⟩, hnew, hold⟩ := hok hd
    refine ⟨ms', hmem, hms', hu.trans h.unclosed, fun b' hb' => ?_, fun b' hb' => ?_⟩
    · rw [hn, hp]
      by_cases hbb : b' = b
      · subst hbb
        rw [Function.update_self]
        by_cases hin : b' ∈ ms
        · rw [← String.append_assoc]
          exact hold hin _ (h.held b' hin)
        · rw [h.blank b' hin, String.empty_append]
          exact hnew hin
      · rw [Function.update_of_ne hbb]
        have hin : b' ∈ ms := ((hmem b').1 hb').resolve_left hbb
        refine hc.readBytes (fun hd => ?_) (h.held b' hin)
        exact hbb (FileNames.destination_bucketFile_inj (Set.mem_singleton_iff.1 hd))
    · have hbb : b' ≠ b := fun e => hb' ((hmem b').2 (Or.inl e))
      rw [Function.update_of_ne hbb]
      exact h.blank b' fun hin => hb' ((hmem b').2 (Or.inr hin))
  · intro hd
    obtain ⟨hms, hc'⟩ := herr hd
    exact h.of_changesOnly (hms.trans h.made.symm) hu hn hp hc' fun _ => Set.notMem_empty _

/-- What a bucket gets from deliveries. -/
def contentOf (b : Bucket) (ds : List Delivery) : String :=
  String.join ((ds.filter (goesTo b)).map (·.chunk.content))

theorem contentOf_cons (b : Bucket) (d : Delivery) (ds : List Delivery) :
    contentOf b (d :: ds) =
      (if d.chunk.target = .bucket b then d.chunk.content else "") ++ contentOf b ds := by
  unfold contentOf
  by_cases h : d.chunk.target = .bucket b <;> simp [goesTo, h, String.join_cons]

/-- **A run of deliveries** leaves every bucket with what was delivered to it. -/
theorem Holds.writeAll {ds : List Delivery} (h : w.Holds ms text)
    (hds : ∀ d ∈ ds, ∀ p, d.chunk.target = .file p →
      ∀ l b, p.destination l ≠ (w.names.bucketFile b).destination l) :
    ∃ ms', (∀ b, b ∈ ms' ↔ b ∈ ms ∨ ∃ d ∈ w.delivered ds, goesTo b d = true) ∧
      (w.writeAll (ds.map Delivery.entry)).Holds ms'
        fun b => text b ++ contentOf b (w.delivered ds) := by
  induction ds generalizing w ms text with
  | nil =>
    refine ⟨ms, fun b => by simp [delivered], ?_⟩
    have : (fun b => text b ++ contentOf b (w.delivered [])) = text := by
      funext b; simp [delivered, contentOf]
    rw [this]; exact h
  | cons d rest ih =>
    have hrest : ∀ d' ∈ rest, ∀ p, d'.chunk.target = .file p → ∀ l b,
        p.destination l ≠ ((w.write d.refused d.chunk).names.bucketFile b).destination l := by
      rw [write_names]
      exact fun d' hd' => hds d' (List.mem_cons_of_mem _ hd')
    rw [List.map_cons, Delivery.entry, writeAll_cons]
    unfold delivered
    -- what one delivery leaves, by where it goes
    cases ht : d.chunk.target with
    | file p =>
      have hstep : (w.write d.refused d.chunk).Holds ms text := by
        have hw : w.write d.refused d.chunk = w.overwrite d.refused p d.chunk.content := by
          unfold write; rw [ht]
        rw [hw]
        exact h.overwrite _ _ fun b => hds d List.mem_cons_self p ht _ b
      obtain ⟨ms', hmem, hh⟩ := ih hstep hrest
      refine ⟨ms', fun b => ?_, ?_⟩
      · rw [hmem b]
        split <;> simp [goesTo, ht]
      · have htext : ∀ b, contentOf b (d :: (w.write d.refused d.chunk).delivered rest) =
            contentOf b ((w.write d.refused d.chunk).delivered rest) := by
          intro b; rw [contentOf_cons, ht]; simp
        split
        · simpa only [htext] using hh
        · exact hh
    | bucket b₀ =>
      have hw : w.write d.refused d.chunk = w.send d.refused b₀ d.chunk.content := by
        unfold write; rw [ht]
      have hs := h.send d.refused b₀ d.chunk.content
      rw [← hw] at hs
      by_cases ha : w.Accepts d.refused d.chunk
      · rw [if_pos ha]
        obtain ⟨ms₁, hmem₁, hh₁⟩ := hs.1 ha
        obtain ⟨ms', hmem, hh⟩ := ih hh₁ hrest
        refine ⟨ms', fun b => ?_, ?_⟩
        · rw [hmem b, hmem₁ b]
          have hgoes : goesTo b d = true ↔ b = b₀ := by simp [goesTo, ht, eq_comm]
          rw [List.exists_mem_cons_iff, hgoes, or_assoc, or_left_comm]
        · have htext : (fun b => text b ++
              contentOf b (d :: (w.write d.refused d.chunk).delivered rest)) =
              fun b => Function.update text b₀ (text b₀ ++ d.chunk.content) b ++
                contentOf b ((w.write d.refused d.chunk).delivered rest) := by
            funext b
            rw [contentOf_cons, ht]
            by_cases hb : b = b₀
            · subst hb; simp [String.append_assoc]
            · have hb' : b₀ ≠ b := fun e => hb e.symm
              simp [hb', Function.update_of_ne hb]
          rw [htext]; exact hh
      · rw [if_neg ha]
        exact ih (hs.2 ha) hrest

/-- The destinations of some buckets. -/
def bucketLocations (w : Writer) (bs : List Bucket) : Set Location :=
  {l | ∃ b ∈ bs, l = (w.names.bucketFile b).destination w.store.working}

/-- Preparing buckets keeps what the writer is told. -/
theorem prepare_frame {create : Bool} {ps : List (Bucket × Fault)} {made : List Bucket}
    {w' : Writer} (h : w.prepare create ps = (made, w')) :
    w'.names = w.names ∧ w'.preamble = w.preamble ∧ w'.store.working = w.store.working := by
  induction ps generalizing w made w' with
  | nil =>
    obtain ⟨rfl, rfl⟩ := Prod.mk.inj h
    exact ⟨rfl, rfl, rfl⟩
  | cons e rest ih =>
    unfold prepare at h
    cases h₁ : w.prepareBucket create e.2 e.1 with
    | mk made₁ w₁ =>
      obtain ⟨hn₁, hp₁, -, -, hc₁, -⟩ := prepareBucket_effect h₁
      cases h₂ : w₁.prepare create rest with
      | mk more w₂ =>
        obtain ⟨hn₂, hp₂, hw₂⟩ := ih h₂
        simp only [h₁, h₂] at h
        obtain ⟨rfl, rfl⟩ := Prod.mk.inj h
        exact ⟨hn₂.trans hn₁, hp₂.trans hp₁, hw₂.trans hc₁.working⟩

/-- **Preparing buckets**, each once. Those that are made hold the preamble alone, and of each that
is wanted and not made something is told. -/
theorem prepare_spec {create : Bool} {ps : List (Bucket × Fault)} (hn : (ps.map Prod.fst).Nodup)
    {made : List Bucket} {w' : Writer} (h : w.prepare create ps = (made, w')) :
    w.diagnostics <+: w'.diagnostics ∧
      ChangesOnly (w.bucketLocations (ps.map Prod.fst)) w.store w'.store ∧
      (∀ b ∈ made, w'.store.readBytes (w.names.bucketFile b) = .ok w.preamble.toUTF8) ∧
      (create = true → w'.diagnostics = w.diagnostics → ∀ b ∈ ps.map Prod.fst, b ∈ made) := by
  induction ps generalizing w made w' with
  | nil =>
    obtain ⟨rfl, rfl⟩ := Prod.mk.inj h
    exact ⟨List.prefix_rfl, .refl _ _, by simp, by simp⟩
  | cons e rest ih =>
    obtain ⟨b, fault⟩ := e
    rw [List.map_cons, List.nodup_cons] at hn
    unfold prepare at h
    cases h₁ : w.prepareBucket create fault b with
    | mk made₁ w₁ =>
      obtain ⟨hn₁, hp₁, -, hd₁, hc₁, hm₁, hall₁⟩ := prepareBucket_effect h₁
      cases h₂ : w₁.prepare create rest with
      | mk more w₂ =>
        obtain ⟨hd₂, hc₂, hm₂, hall₂⟩ := ih hn.2 h₂
        simp only [h₁, h₂] at h
        obtain ⟨rfl, rfl⟩ := Prod.mk.inj h
        have hloc : w₁.bucketLocations (rest.map Prod.fst) =
            w.bucketLocations (rest.map Prod.fst) := by
          unfold bucketLocations; rw [hn₁, hc₁.working]
        rw [hloc] at hc₂
        rw [hn₁, hp₁] at hm₂
        refine ⟨hd₁.trans hd₂, ?_, fun b' hb' => ?_, fun hcr hd => ?_⟩
        · refine (hc₁.mono ?_).trans (hc₂.mono ?_)
          · rintro l rfl
            exact ⟨b, by simp, rfl⟩
          · rintro l ⟨b', hb', rfl⟩
            exact ⟨b', by simp [hb'], rfl⟩
        · -- the bucket just made is not prepared again
          have hcase : b' ∈ more ∨ (made₁ = true ∧ b' = b) := by
            cases made₁ with
            | false => exact Or.inl (by simpa using hb')
            | true =>
              have hb' : b' = b ∨ b' ∈ more := by simpa using hb'
              exact hb'.symm.imp_right fun e => ⟨rfl, e⟩
          rcases hcase with hb' | ⟨hmade, rfl⟩
          · exact hm₂ b' hb'
          · refine hc₂.readBytes ?_ (hm₁ hmade)
            rintro ⟨b'', hb'', he⟩
            rw [hc₁.working] at he
            have := FileNames.destination_bucketFile_inj he
            subst this
            exact hn.1 hb''
        · have hd₂' : w₂.diagnostics = w₁.diagnostics := by
            rw [hd] at hd₂
            exact hd.trans (hd₁.eq_of_length_le hd₂.length_le)
          have hmade : made₁ = true := hall₁ hcr (hd₂'.symm.trans hd)
          intro b' hb'
          rw [hmade, if_pos rfl]
          rcases List.mem_cons.1 hb' with rfl | hb'
          · exact List.mem_cons_self
          · exact List.mem_cons_of_mem _ (hall₂ hcr hd₂' b' hb')

end Writer

end SwiftBindings
