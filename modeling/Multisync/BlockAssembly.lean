import Multisync.ByteLayout
import Mathlib.Tactic

/-!
# Putting a file together from its blocks

A byte sequence is cut into slices of one size, the last of them possibly
shorter.  Writing slices at their own places, in any order and any number of
times, yields the sequence once every slice has been written.
-/

open ByteLayout

namespace BlockAssembly

variable {size : ℕ} {source content : List UInt8} {marks : List Bool}

/-- The slice with the given number. -/
def slice (size : ℕ) (source : List UInt8) (block : ℕ) : List UInt8 :=
  (source.drop (size * block)).take size

/-- The number of slices. -/
def blockCount (size : ℕ) (source : List UInt8) : ℕ :=
  (source.length + size - 1) / size

/-- The content has the bytes of the marked slices, and none past the end. -/
structure Assembled (size : ℕ) (source : List UInt8) (marks : List Bool)
    (content : List UInt8) : Prop where
  length_le : content.length ≤ source.length
  agrees : ∀ k < source.length, marks[k / size]? = some true →
    content[k]? = source[k]?

theorem Assembled.empty (size : ℕ) (source : List UInt8) (count : ℕ) :
    Assembled size source (List.replicate count false) [] := by
  constructor
  · exact Nat.zero_le _
  · intro k _ hmark
    rw [List.getElem?_replicate] at hmark
    split at hmark <;> simp at hmark

theorem length_slice (size : ℕ) (source : List UInt8) (block : ℕ) :
    (slice size source block).length = min size (source.length - size * block) := by
  rw [slice, List.length_take, List.length_drop]

theorem getElem?_slice {j : ℕ} (hj : j < size) (source : List UInt8) (block : ℕ) :
    (slice size source block)[j]? = source[size * block + j]? := by
  rw [slice, List.getElem?_take_of_lt hj, List.getElem?_drop]

/-- The slices make up the bytes they were cut from. -/
theorem flatMap_slice (hpos : 0 < size) (source : List UInt8) :
    (List.range (blockCount size source)).flatMap (slice size source) = source := by
  have hinitial : ∀ count,
      (List.range count).flatMap (slice size source) = source.take (size * count) := by
    intro count
    induction count with
    | zero => simp
    | succ count ih =>
        rw [List.range_succ, List.flatMap_append, ih, List.flatMap_singleton, slice,
          Nat.mul_succ, List.take_add]
  rw [hinitial, List.take_of_length_le]
  have hdiv := @Nat.lt_div_mul_add (source.length + size - 1) size hpos
  rw [Nat.mul_comm, blockCount]
  omega

/-- A slice that is not the last is whole. -/
theorem length_slice_of_succ_lt {block : ℕ} (hlt : block + 1 < blockCount size source) :
    (slice size source block).length = size := by
  have hpos : 0 < size := by
    by_contra hzero
    have hsize : size = 0 := by omega
    rw [blockCount, hsize, Nat.div_zero] at hlt
    omega
  have hmul := (Nat.le_div_iff_mul_le hpos).mp hlt
  rw [length_slice]
  simp only [Nat.succ_mul, Nat.mul_comm block size] at hmul
  omega

/-- Writing one more slice. -/
theorem Assembled.set (hassembled : Assembled size source marks content)
    (hpos : 0 < size) (block : ℕ) :
    Assembled size source (marks.set block true)
      (overlay content (size * block) (slice size source block)) := by
  have hslice := length_slice size source block
  constructor
  · by_cases hnil : slice size source block = []
    · rw [hnil, overlay_nil]
      exact hassembled.length_le
    · have hle := hassembled.length_le
      have hne : (slice size source block).length ≠ 0 := fun h =>
        hnil (List.eq_nil_of_length_eq_zero h)
      rw [length_overlay hnil]
      omega
  · intro k hk hmark
    have hdiv := Nat.div_add_mod k size
    have hmod := Nat.mod_lt k hpos
    by_cases hblock : k / size = block
    · -- The position lies in the slice just written.
      subst hblock
      have hmid : k % size < (slice size source (k / size)).length := by
        rw [hslice]
        omega
      have hwritten := @getElem?_overlay_mid content _ (size * (k / size)) _ hmid
      rw [hdiv, getElem?_slice hmod, hdiv] at hwritten
      exact hwritten
    · rw [List.getElem?_set_ne (Ne.symm hblock)] at hmark
      have hold := hassembled.agrees k hk hmark
      rw [← hold]
      have hcontent : k < content.length := by
        by_contra hge
        rw [List.getElem?_eq_none (by omega), List.getElem?_eq_getElem hk] at hold
        contradiction
      rcases Nat.lt_or_ge k (size * block) with hbefore | hafter
      · exact getElem?_overlay_before hbefore hcontent
      · apply getElem?_overlay_after
        have hnext : size * (block + 1) ≤ k := by
          rcases Nat.lt_or_gt_of_ne hblock with hlt | hgt
          · have := Nat.mul_le_mul_left size (Nat.succ_le_of_lt hlt)
            rw [Nat.mul_succ] at this
            omega
          · calc size * (block + 1) ≤ size * (k / size) :=
                  Nat.mul_le_mul_left size hgt
              _ ≤ k := by omega
        rw [Nat.mul_succ] at hnext
        omega

/-- With every slice written the content is the source. -/
theorem Assembled.eq_source (hassembled : Assembled size source marks content)
    (hall : ∀ k < source.length, marks[k / size]? = some true) :
    content = source := by
  apply List.ext_getElem?
  intro k
  rcases Nat.lt_or_ge k source.length with hk | hk
  · exact hassembled.agrees k hk (hall k hk)
  · have hle := hassembled.length_le
    rw [List.getElem?_eq_none hk, List.getElem?_eq_none (by omega)]

/-- Marking a slice that was not marked. -/
theorem count_set_true {block : ℕ}
    (hmark : marks[block]? = some false) :
    (marks.set block true).count false = marks.count false - 1 ∧
      0 < marks.count false := by
  obtain ⟨hlt, hget⟩ := List.getElem?_eq_some_iff.mp hmark
  have hpos : 0 < marks.count false :=
    List.count_pos_iff.mpr (hget ▸ List.getElem_mem hlt)
  refine ⟨?_, hpos⟩
  rw [List.count_set hlt, hget]
  simp

theorem div_lt_blockCount (hpos : 0 < size) {k : ℕ} (hk : k < source.length) :
    k / size < blockCount size source := by
  rw [blockCount, Nat.lt_iff_add_one_le, Nat.le_div_iff_mul_le hpos, Nat.add_mul,
    Nat.one_mul]
  have := Nat.div_mul_le_self k size
  omega

end BlockAssembly
