import Multisync.BlockAssembly
import Mathlib.Data.Set.Insert
import Mathlib.Tactic

/-!
# What is there before every slice is written

Slices written at their own places leave zeros where nothing was written, up to the last
byte of the last slice.  This depends on the set of the slices only: neither their order
nor a repetition can be read off the content.
-/

open ByteLayout

namespace BlockAssembly

variable {size : ℕ} {source content : List UInt8} {written : Set ℕ}

/-- The content reaches to the end of the last slice that was written; it has the bytes of
the slices that were written, and zeros between them. -/
structure Sparse (size : ℕ) (source : List UInt8) (written : Set ℕ)
    (content : List UInt8) : Prop where
  reach : ∀ k, k < content.length ↔ ∃ j, k ≤ j ∧ j < source.length ∧ j / size ∈ written
  agrees : ∀ k < content.length, k / size ∈ written → content[k]? = source[k]?
  zero : ∀ k < content.length, k / size ∉ written → content[k]? = some 0

theorem Sparse.empty (size : ℕ) (source : List UInt8) : Sparse size source ∅ [] := by
  constructor <;> simp

theorem Sparse.length_le (hsparse : Sparse size source written content) :
    content.length ≤ source.length := by
  by_contra hlong
  obtain ⟨j, hle, hlt, _⟩ := (hsparse.reach source.length).mp (by omega)
  omega

/-- The set determines the content. -/
theorem Sparse.unique {other : List UInt8} (hsparse : Sparse size source written content)
    (hother : Sparse size source written other) : content = other := by
  have hiff : ∀ k, k < content.length ↔ k < other.length := fun k =>
    (hsparse.reach k).trans (hother.reach k).symm
  apply List.ext_getElem?
  intro k
  by_cases hk : k < content.length
  · have hk' := (hiff k).mp hk
    by_cases hmem : k / size ∈ written
    · rw [hsparse.agrees k hk hmem, hother.agrees k hk' hmem]
    · rw [hsparse.zero k hk hmem, hother.zero k hk' hmem]
  · have hk' : ¬ k < other.length := fun h => hk ((hiff k).mpr h)
    rw [List.getElem?_eq_none (by omega), List.getElem?_eq_none (by omega)]

/-- With every slice written the content is the source. -/
theorem Sparse.eq_source (hsparse : Sparse size source written content)
    (hall : ∀ k < source.length, k / size ∈ written) : content = source := by
  have hiff : ∀ k, k < content.length ↔ k < source.length := by
    intro k
    rw [hsparse.reach k]
    constructor
    · intro ⟨j, hkj, hj, _⟩
      omega
    · intro hk
      exact ⟨k, le_rfl, hk, hall k hk⟩
  apply List.ext_getElem?
  intro k
  by_cases hk : k < content.length
  · exact hsparse.agrees k hk (hall k ((hiff k).mp hk))
  · have hk' : ¬ k < source.length := fun h => hk ((hiff k).mpr h)
    rw [List.getElem?_eq_none (by omega), List.getElem?_eq_none (by omega)]

/-- The positions of a slice. -/
theorem div_eq_iff_mem_slice (hpos : 0 < size) {k block : ℕ} :
    k / size = block ↔ size * block ≤ k ∧ k < size * block + size := by
  rw [Nat.div_eq_iff hpos, Nat.mul_comm block size]
  omega

/-- A slice past the end has nothing to write. -/
theorem Sparse.write_nil (hsparse : Sparse size source written content) (hpos : 0 < size)
    {block : ℕ} (hpast : source.length ≤ size * block) :
    Sparse size source (insert block written) content := by
  have hmem : ∀ j < source.length, (j / size ∈ insert block written ↔ j / size ∈ written) := by
    intro j hj
    rw [Set.mem_insert_iff, or_iff_right]
    intro hblock
    have := ((div_eq_iff_mem_slice hpos).mp hblock).1
    omega
  have hle := hsparse.length_le
  constructor
  · intro k
    rw [hsparse.reach k]
    constructor
    · intro ⟨j, hkj, hj, hwritten⟩
      exact ⟨j, hkj, hj, (hmem j hj).mpr hwritten⟩
    · intro ⟨j, hkj, hj, hwritten⟩
      exact ⟨j, hkj, hj, (hmem j hj).mp hwritten⟩
  · intro k hk hwritten
    exact hsparse.agrees k hk ((hmem k (by omega)).mp hwritten)
  · intro k hk hwritten
    exact hsparse.zero k hk fun h => hwritten ((hmem k (by omega)).mpr h)

/-- What is laid over a content leaves the bytes outside it. -/
theorem getElem?_overlay_outside {new : List UInt8} {start k : ℕ} (hlt : k < content.length)
    (houtside : k < start ∨ start + new.length ≤ k) :
    (overlay content start new)[k]? = content[k]? := by
  rcases houtside with hbefore | hafter
  · exact getElem?_overlay_before hbefore hlt
  · exact getElem?_overlay_after hafter

/-- Writing one more slice, or the same again. -/
theorem Sparse.write (hsparse : Sparse size source written content) (hpos : 0 < size)
    (block : ℕ) :
    Sparse size source (insert block written)
      (overlay content (size * block) (slice size source block)) := by
  have hslice := length_slice size source block
  by_cases hpast : source.length ≤ size * block
  · have hnil : slice size source block = [] :=
      List.eq_nil_of_length_eq_zero (by rw [hslice]; omega)
    rw [hnil, overlay_nil]
    exact hsparse.write_nil hpos hpast
  have hne : slice size source block ≠ [] := by
    intro hnil
    rw [hnil, List.length_nil] at hslice
    omega
  have hle := hsparse.length_le
  have hlength : (overlay content (size * block) (slice size source block)).length =
      max content.length (min (size * block + size) source.length) := by
    rw [length_overlay hne, hslice]
    omega
  constructor
  · intro k
    rw [hlength]
    constructor
    · intro hk
      by_cases hold : k < content.length
      · obtain ⟨j, hkj, hj, hwritten⟩ := (hsparse.reach k).mp hold
        exact ⟨j, hkj, hj, Set.mem_insert_of_mem block hwritten⟩
      · -- The last byte of the slice just written.
        refine ⟨min (size * block + size) source.length - 1, by omega, by omega, ?_⟩
        apply Set.mem_insert_iff.mpr
        exact Or.inl ((div_eq_iff_mem_slice hpos).mpr ⟨by omega, by omega⟩)
    · intro ⟨j, hkj, hj, hwritten⟩
      rcases Set.mem_insert_iff.mp hwritten with hblock | hold
      · have := (div_eq_iff_mem_slice hpos).mp hblock
        omega
      · have := (hsparse.reach k).mpr ⟨j, hkj, hj, hold⟩
        omega
  · intro k hk hwritten
    rw [hlength] at hk
    by_cases hblock : k / size = block
    · obtain ⟨hstart, hend⟩ := (div_eq_iff_mem_slice hpos).mp hblock
      have hmid : k - size * block < (slice size source block).length := by omega
      have hset := @getElem?_overlay_mid content _ (size * block) _ hmid
      rw [getElem?_slice (by omega), Nat.add_sub_cancel' hstart] at hset
      exact hset
    · have hold := (Set.mem_insert_iff.mp hwritten).resolve_left hblock
      have hside : ¬ (size * block ≤ k ∧ k < size * block + size) :=
        fun h => hblock ((div_eq_iff_mem_slice hpos).mpr h)
      have hcontent : k < content.length := (hsparse.reach k).mpr ⟨k, le_rfl, by omega, hold⟩
      rw [← hsparse.agrees k hcontent hold]
      exact getElem?_overlay_outside hcontent (by omega)
  · intro k hk hwritten
    rw [hlength] at hk
    have hblock : k / size ≠ block := fun h => hwritten (Set.mem_insert_iff.mpr (Or.inl h))
    have hold : k / size ∉ written := fun h => hwritten (Set.mem_insert_of_mem block h)
    have hside : ¬ (size * block ≤ k ∧ k < size * block + size) :=
      fun h => hblock ((div_eq_iff_mem_slice hpos).mpr h)
    by_cases hcontent : k < content.length
    · rw [← hsparse.zero k hcontent hold]
      exact getElem?_overlay_outside hcontent (by omega)
    · exact getElem?_overlay_gap hne (by omega) (by omega)

/-- Writing the slices with these numbers, one after the other. -/
def assemble (size : ℕ) (source : List UInt8) (blocks : List ℕ) : List UInt8 :=
  blocks.foldl (fun content block =>
    overlay content (size * block) (slice size source block)) []

theorem sparse_assemble (hpos : 0 < size) (source : List UInt8) (blocks : List ℕ) :
    Sparse size source {block | block ∈ blocks} (assemble size source blocks) := by
  induction blocks using List.reverseRecOn with
  | nil => simpa [assemble] using Sparse.empty size source
  | append_singleton blocks block ih =>
      have hset : {number | number ∈ blocks ++ [block]} =
          insert block {number | number ∈ blocks} := by
        ext number
        simp [or_comm]
      rw [hset, assemble, List.foldl_append]
      exact ih.write hpos block

example : assemble 2 [1, 2, 3, 4, 5] [2, 0] = [1, 2, 0, 0, 5] := by decide

/-- What the slices leave can be had by writing each of them once, in any order. -/
theorem Sparse.eq_assemble (hsparse : Sparse size source written content)
    (hpos : 0 < size) {blocks : List ℕ} (hblocks : ∀ block, block ∈ blocks ↔ block ∈ written) :
    content = assemble size source blocks := by
  apply hsparse.unique
  rw [← Set.ext hblocks]
  exact sparse_assemble hpos source blocks

/-- The numbers of the marked slices, in their order. -/
def markedBlocks (marks : List Bool) : List ℕ :=
  (List.range marks.length).filter fun block => marks[block]? = some true

theorem mem_markedBlocks {marks : List Bool} {block : ℕ} :
    block ∈ markedBlocks marks ↔ marks[block]? = some true := by
  simp only [markedBlocks, List.mem_filter, List.mem_range, decide_eq_true_eq,
    and_iff_right_iff_imp]
  exact fun hmark => (List.getElem?_eq_some_iff.mp hmark).1

theorem setOf_mem_markedBlocks_set {marks : List Bool} {block : ℕ}
    (hlt : block < marks.length) :
    {number | number ∈ markedBlocks (marks.set block true)} =
      insert block {number | number ∈ markedBlocks marks} := by
  ext number
  simp only [Set.mem_insert_iff, Set.mem_ofPred_eq, mem_markedBlocks]
  by_cases heq : number = block
  · subst heq
    simp [hlt]
  · simp [heq, List.getElem?_set_ne (Ne.symm heq)]

theorem markedBlocks_replicate_false (count : ℕ) :
    markedBlocks (List.replicate count false) = [] := by
  apply List.eq_nil_iff_forall_not_mem.mpr
  intro block hblock
  rw [mem_markedBlocks, List.getElem?_replicate] at hblock
  split at hblock <;> simp at hblock

end BlockAssembly
