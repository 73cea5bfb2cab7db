import Mathlib.Data.List.Nodup
import SwiftBindings.Proofs.Run.Writing
import SwiftBindings.Proofs.Stream
import SwiftBindings.Run.Basic

/-!
# Deliveries

The categories of a run work side by side, and their chunks reach the writer in some interleaving.
A delivery is a chunk on its way, labelled with its sender. A run may write its deliveries in any
order in which every bucket gets the chunks of a category as that category has them.

* `Plan.Delivers`: the orders in which the chunks of a plan may be written.
* `Writer.delivered`: the deliveries that succeed.
* `Plan.delivers_inOrder`: one category after the other is such an order.
-/

namespace SwiftBindings

/-- A chunk on its way to a writer: the category it comes from, if it is not the module's own, and
whether the system refuses to write it. -/
structure Delivery where
  sender? : Option Category
  chunk : Chunk
  refused : Bool

namespace Delivery

/-- A delivery as a schedule has it. -/
def entry (d : Delivery) : Chunk × Bool := (d.chunk, d.refused)

/-- Whether a delivery goes to a bucket. -/
def goesTo (b : Bucket) (d : Delivery) : Bool := d.chunk.target = .bucket b

/-- The chunks of one sender among deliveries, in order. -/
def chunksFrom (sender? : Option Category) (ds : List Delivery) : List Chunk :=
  stream sender? (ds.map fun d => (d.sender?, d.chunk))

theorem chunksFrom_append (sender? : Option Category) (ds es : List Delivery) :
    chunksFrom sender? (ds ++ es) = chunksFrom sender? ds ++ chunksFrom sender? es := by
  unfold chunksFrom; rw [List.map_append, stream_append]

theorem chunksFrom_sublist {sender? : Option Category} {ds es : List Delivery}
    (h : ds.Sublist es) : (chunksFrom sender? ds).Sublist (chunksFrom sender? es) :=
  (h.map _).filterMap _

end Delivery

open Delivery

namespace Plan

/-- What a sender has to deliver: the module its own file, a category its chunks. -/
def chunksOf (p : Plan) : Option Category → List Chunk
  | none => p.layout?.toList.map fun l => ⟨.file l.1.moduleFile, p.opening⟩
  | some c => (p.contribution c).chunks

/-- **The orders in which the chunks of a plan may be written.** Every chunk is delivered once, and
each bucket gets the chunks of a category in the category's order. -/
structure Delivers (p : Plan) (ds : List Delivery) : Prop where
  complete : ∀ sender?, (chunksFrom sender? ds).Perm (p.chunksOf sender?)
  ordered : ∀ b c, chunksFrom (some c) (ds.filter (goesTo b)) =
    (p.contribution c).chunks.filter fun chunk => chunk.target = .bucket b

/-- The deliveries of one category after the other, none refused. -/
def deliveries (p : Plan) : List Delivery :=
  (none :: Category.all.map some).flatMap fun sender? =>
    (p.chunksOf sender?).map fun chunk => ⟨sender?, chunk, false⟩

theorem mem_senders (sender? : Option Category) : sender? ∈ none :: Category.all.map some := by
  cases sender? with
  | none => exact List.mem_cons_self
  | some c => exact List.mem_cons_of_mem _ (List.mem_map_of_mem (Category.mem_all c))

theorem nodup_senders : (none :: Category.all.map some).Nodup := by decide

/-- Deliveries made sender by sender have every sender's chunks in order. -/
theorem chunksFrom_flatMap {f : Option Category → List Delivery} {senders : List (Option Category)}
    (hf : ∀ sender?, ∀ d ∈ f sender?, d.sender? = sender?) (hn : senders.Nodup)
    {sender? : Option Category} (hm : sender? ∈ senders) :
    chunksFrom sender? (senders.flatMap f) = (f sender?).map (·.chunk) := by
  have hown : ∀ ds : List Delivery, (∀ d ∈ ds, d.sender? = sender?) →
      chunksFrom sender? ds = ds.map (·.chunk) := by
    intro ds h
    induction ds with
    | nil => rfl
    | cons d rest ih =>
      have ih := ih fun d' hd' => h d' (List.mem_cons_of_mem _ hd')
      unfold chunksFrom at ih ⊢
      rw [List.map_cons, stream_cons, if_pos (h d List.mem_cons_self), ih, List.map_cons]
  have hother : ∀ ds : List Delivery, (∀ d ∈ ds, d.sender? ≠ sender?) →
      chunksFrom sender? ds = [] := by
    intro ds h
    induction ds with
    | nil => rfl
    | cons d rest ih =>
      have ih := ih fun d' hd' => h d' (List.mem_cons_of_mem _ hd')
      unfold chunksFrom at ih ⊢
      rw [List.map_cons, stream_cons, if_neg (h d List.mem_cons_self), ih]
  -- the sender comes once, and those before and after it are others
  obtain ⟨before, after, rfl⟩ := List.append_of_mem hm
  have hnot : ∀ x ∈ before ++ after, x ≠ sender? := by
    intro x hx hxs
    subst hxs
    exact (List.nodup_middle.1 hn).notMem hx
  have hskip : ∀ l : List (Option Category), (∀ x ∈ l, x ≠ sender?) →
      chunksFrom sender? (l.flatMap f) = [] := by
    intro l hl
    refine hother _ fun d hd => ?_
    obtain ⟨x, hx, hd⟩ := List.mem_flatMap.1 hd
    rw [hf x d hd]
    exact hl x hx
  rw [List.flatMap_append, List.flatMap_cons, chunksFrom_append, chunksFrom_append,
    hskip before fun x hx => hnot x (List.mem_append_left _ hx),
    hskip after fun x hx => hnot x (List.mem_append_right _ hx), hown _ (hf sender?)]
  simp

/-- **One category after the other** is an order in which a plan may be written. -/
theorem delivers_inOrder (p : Plan) : p.Delivers p.deliveries := by
  have hlabel : ∀ sender?, ∀ d ∈ (p.chunksOf sender?).map fun chunk => Delivery.mk sender? chunk false,
      d.sender? = sender? := by
    intro sender? d hd
    obtain ⟨chunk, -, rfl⟩ := List.mem_map.1 hd
    rfl
  refine ⟨fun sender? => ?_, fun b c => ?_⟩
  · unfold deliveries
    rw [chunksFrom_flatMap hlabel nodup_senders (mem_senders sender?), List.map_map]
    simp [Function.comp_def]
  · unfold deliveries
    rw [List.filter_flatMap, chunksFrom_flatMap _ nodup_senders (mem_senders (some c))]
    · rw [List.filter_map, List.map_map]
      simp [Function.comp_def, goesTo, chunksOf]
    · intro sender? d hd
      exact hlabel sender? d (List.mem_filter.1 hd).1

end Plan

namespace Writer

/-- The deliveries that succeed. -/
def delivered (w : Writer) : List Delivery → List Delivery
  | [] => []
  | d :: rest =>
    if w.Accepts d.refused d.chunk then d :: (w.write d.refused d.chunk).delivered rest
    else (w.write d.refused d.chunk).delivered rest

theorem delivered_sublist (w : Writer) (ds : List Delivery) : (w.delivered ds).Sublist ds := by
  induction ds generalizing w with
  | nil => exact .slnil
  | cons d rest ih =>
    unfold delivered
    split
    · exact (ih _).cons_cons d
    · exact (ih _).cons d

theorem writeAll_cons (w : Writer) (chunk : Chunk) (refused : Bool) (ws : List (Chunk × Bool)) :
    w.writeAll ((chunk, refused) :: ws) = (w.write refused chunk).writeAll ws := rfl

@[simp] theorem writeAll_names (w : Writer) (ws : List (Chunk × Bool)) :
    (w.writeAll ws).names = w.names := by
  induction ws generalizing w with
  | nil => rfl
  | cons e rest ih => rw [writeAll_cons, ih, write_names]

@[simp] theorem writeAll_preamble (w : Writer) (ws : List (Chunk × Bool)) :
    (w.writeAll ws).preamble = w.preamble := by
  induction ws generalizing w with
  | nil => rfl
  | cons e rest ih => rw [writeAll_cons, ih, write_preamble]

theorem writeAll_diagnostics (w : Writer) (ws : List (Chunk × Bool)) :
    w.diagnostics <+: (w.writeAll ws).diagnostics := by
  induction ws generalizing w with
  | nil => exact List.prefix_rfl
  | cons e rest ih => rw [writeAll_cons]; exact (write_diagnostics w _ _).trans (ih _)

/-- If nothing is told in the end, everything was delivered. -/
theorem delivered_eq_self {w : Writer} {ds : List Delivery}
    (h : (w.writeAll (ds.map Delivery.entry)).diagnostics = w.diagnostics) :
    w.delivered ds = ds := by
  induction ds generalizing w with
  | nil => rfl
  | cons d rest ih =>
    rw [List.map_cons, Delivery.entry, writeAll_cons] at h
    have h₁ := write_diagnostics w d.refused d.chunk
    have h₂ := writeAll_diagnostics (w.write d.refused d.chunk) (rest.map Delivery.entry)
    rw [h] at h₂
    have ha : w.Accepts d.refused d.chunk := (h₁.eq_of_length_le h₂.length_le).symm
    unfold delivered
    rw [if_pos ha, ih (by rw [h]; exact ha.symm)]

end Writer

end SwiftBindings
