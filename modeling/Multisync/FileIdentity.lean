import Multisync.BlockAccounting
import Mathlib.Tactic

/-!
# Which files are the same?

The client finds the record of a file by `operator<`, the server tests by `operator==`
whether a block is asked of its own file.  The first compares the digests and then the
block counts; the second takes two digests for equal when `memcmp` finds a difference.
-/

namespace Multisync

open ByteLayout Effects

/-- `BlockInfo::operator==`. -/
def BlockInfo.equal (a b : BlockInfo) : Bool :=
  a.fileInfo.equal b.fileInfo && a.blockNum == b.blockNum

namespace FileInfo

/-- Neither is less than the other. -/
def Equivalent (a b : FileInfo) : Prop := ¬ Lt a b ∧ ¬ Lt b a

theorem equivalent_iff {a b : FileInfo} : Equivalent a b ↔ a = b := by
  constructor
  · exact fun hequivalent => OrderedMap.eq_of_not_lt hequivalent.1 hequivalent.2
  · rintro rfl
    exact ⟨irrefl_of Lt a, irrefl_of Lt a⟩

/-- `operator<` orders digests and stored counts strictly and totally, and every other
comparison of the first two files means the same. -/
structure OneNotion (a b c : FileInfo) : Prop where
  irrefl : ¬ Lt a a
  trans : Lt a b → Lt b c → Lt a c
  total : Lt a b ∨ a.digest = b.digest ∧ a.numBlocks = b.numBlocks ∨ Lt b a
  equal : a.equal b = true ↔ Equivalent a b
  equal_symm : a.equal b = true → b.equal a = true
  equal_trans : a.equal b = true → b.equal c = true → a.equal c = true
  block : ∀ m n : UInt32, (BlockInfo.mk a m).equal ⟨b, n⟩ = true ↔
    Equivalent a b ∧ m = n
  lookup : ∀ status : SyncStatus,
    (OrderedMap.empty.insert b status : OrderedMap Lt SyncStatus).find? a = some status ↔
      a.equal b = true

variable {a b c : FileInfo}

theorem equal_iff :
    a.equal b = true ↔ a.digest ≠ b.digest ∧ a.numBlocks = b.numBlocks := by
  have hlength : a.digest.length = b.digest.length := by
    rw [a.digest_length, b.digest_length]
  have hmemcmp : memcmp a.digest b.digest = 0 ↔ a.digest = b.digest := by
    constructor
    · exact memcmp_eq_zero hlength
    · intro heq
      rw [heq, memcmp_self]
  rw [equal, Bool.and_eq_true, bne_iff_ne, beq_iff_eq, Ne, hmemcmp]

/-- On files with the same number of blocks the two are opposites. -/
theorem equal_iff_not_equivalent (hcount : a.numBlocks = b.numBlocks) :
    a.equal b = true ↔ ¬ Equivalent a b := by
  rw [equal_iff, equivalent_iff, and_iff_left hcount, not_iff_not]
  constructor
  · intro hdigest
    obtain ⟨digest, hlength, numBlocks⟩ := a
    obtain ⟨digest', hlength', numBlocks'⟩ := b
    simp only at hdigest hcount
    subst hdigest hcount
    rfl
  · rintro rfl
    rfl

theorem lookup_iff (status : SyncStatus) :
    (OrderedMap.empty.insert b status : OrderedMap Lt SyncStatus).find? a = some status ↔
      Equivalent a b := by
  rw [equivalent_iff]
  by_cases hab : a = b
  · subst hab
    rw [OrderedMap.find?_insert_self status (OrderedMap.find?_empty a)]
    exact iff_of_true rfl rfl
  · rw [OrderedMap.find?_insert_ne hab, OrderedMap.find?_empty]
    exact iff_of_false (Option.some_ne_none status).symm hab

/-- The comparisons agree on two files exactly when their block counts differ. -/
theorem oneNotion_iff (a b c : FileInfo) : OneNotion a b c ↔ a.numBlocks ≠ b.numBlocks := by
  constructor
  · intro hone hcount
    have hequal := hone.equal
    rw [equal_iff_not_equivalent hcount] at hequal
    exact not_iff_self hequal
  · intro hcount
    have hne : ¬ Equivalent a b := by
      rw [equivalent_iff]
      exact fun hab => hcount (congrArg numBlocks hab)
    have hnot : ¬ a.equal b = true := fun hequal => hcount (equal_iff.mp hequal).2
    refine ⟨irrefl_of Lt a, trans_of Lt, ?_, iff_of_false hnot hne, fun h => absurd h hnot,
      fun h => absurd h hnot, fun m n => ?_, fun status => ?_⟩
    · by_cases hlt : Lt a b
      · exact Or.inl hlt
      · exact Or.inr (Or.inr (not_not.mp fun hgt => hne ⟨hlt, hgt⟩))
    · have hblock : ¬ (BlockInfo.mk a m).equal ⟨b, n⟩ = true := by
        rw [BlockInfo.equal, Bool.and_eq_true]
        exact fun h => hnot h.1
      exact iff_of_false hblock fun h => hne h.1
    · exact (lookup_iff status).trans (iff_of_false hne hnot)

/-- No file is equal to itself. -/
theorem equal_self (a : FileInfo) : a.equal a = false := by
  rw [Bool.eq_false_iff, Ne, equal_iff]
  exact fun hequal => hequal.1 rfl

theorem sampleFile_not_oneNotion : ¬ OneNotion sampleFile sampleFile sampleFile := by
  intro hone
  have hequal := hone.equal.mpr (equivalent_iff.mpr rfl)
  rw [equal_self] at hequal
  contradiction

end FileInfo

end Multisync
