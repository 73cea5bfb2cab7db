/-!
# Alphabetical buckets

Types may be spread over 27 files: one for each letter that a name starts with, capital or not, and
one for all other names.

* `Bucket.ofName`: the bucket of a name.
* `marker_injective`: different buckets have different files.
-/

namespace SwiftBindings

/-- One of the 27 buckets: the catch-all, then the letters. -/
structure Bucket where
  index : Fin 27
  deriving DecidableEq, Inhabited

namespace Bucket

/-- The bucket of the names that start with no letter. -/
def catchAll : Bucket := ⟨0⟩

/-- All buckets in order. -/
def all : List Bucket := (List.finRange 27).map Bucket.mk

/-- The bucket of a letter. -/
def ofLetter? (c : Char) : Option Bucket :=
  if h : 'A' ≤ c.toUpper ∧ c.toUpper ≤ 'Z' then
    some ⟨⟨c.toUpper.toNat - '@'.toNat, by
      have h₂ : c.toUpper.toNat ≤ 90 := h.2
      have : '@'.toNat = 64 := rfl
      omega⟩⟩
  else none

/-- The bucket of a name, by its first character. -/
def ofName (name : String) : Bucket :=
  match name.toList with
  | [] => catchAll
  | c :: _ => (ofLetter? c).getD catchAll

/-- The character that stands for a bucket in file names. -/
def marker (b : Bucket) : Char := Char.ofNat ('@'.toNat + b.index.val)

theorem mem_all (b : Bucket) : b ∈ all :=
  List.mem_map.2 ⟨b.index, List.mem_finRange b.index, rfl⟩

theorem nodup_all : all.Nodup := by decide

/-- Different buckets have different markers. -/
theorem marker_injective {a b : Bucket} (h : a.marker = b.marker) : a = b := by
  obtain ⟨a⟩ := a
  obtain ⟨b⟩ := b
  have hv : ∀ i j : Fin 27, (Bucket.mk i).marker = (Bucket.mk j).marker → i = j := by decide
  exact congrArg Bucket.mk (hv a b h)

end Bucket

end SwiftBindings
