import Multisync.Md5
import Mathlib.Data.FinEnum
import Mathlib.Tactic

/-!
# The rounds of the digest as a loop

`transform` writes its sixty-four calls out one by one, with the registers in turns.
They are a loop whose body turns the registers, and every turn can be undone.
-/

namespace Multisync

namespace Md5

/-- The function of a call. -/
def callFunction (k : ℕ) : UInt32 → UInt32 → UInt32 → UInt32 :=
  if k < 16 then f else if k < 32 then g else if k < 48 then h else i

/-- The word of the block that a call takes. -/
def callWord (k : ℕ) : ℕ :=
  if k < 16 then k
  else if k < 32 then (5 * k + 1) % 16
  else if k < 48 then (3 * k + 5) % 16
  else 7 * k % 16

/-- The rotation of a call. -/
def callShift (k : ℕ) : UInt32 :=
  if k < 16 then [7, 12, 17, 22].getD (k % 4) 0
  else if k < 32 then [5, 9, 14, 20].getD (k % 4) 0
  else if k < 48 then [4, 11, 16, 23].getD (k % 4) 0
  else [6, 10, 15, 21].getD (k % 4) 0

def callConstants : List UInt32 :=
  [0xd76aa478, 0xe8c7b756, 0x242070db, 0xc1bdceee, 0xf57c0faf, 0x4787c62a,
    0xa8304613, 0xfd469501, 0x698098d8, 0x8b44f7af, 0xffff5bb1, 0x895cd7be,
    0x6b901122, 0xfd987193, 0xa679438e, 0x49b40821, 0xf61e2562, 0xc040b340,
    0x265e5a51, 0xe9b6c7aa, 0xd62f105d, 0x2441453, 0xd8a1e681, 0xe7d3fbc8,
    0x21e1cde6, 0xc33707d6, 0xf4d50d87, 0x455a14ed, 0xa9e3e905, 0xfcefa3f8,
    0x676f02d9, 0x8d2a4c8a, 0xfffa3942, 0x8771f681, 0x6d9d6122, 0xfde5380c,
    0xa4beea44, 0x4bdecfa9, 0xf6bb4b60, 0xbebfbc70, 0x289b7ec6, 0xeaa127fa,
    0xd4ef3085, 0x4881d05, 0xd9d4d039, 0xe6db99e5, 0x1fa27cf8, 0xc4ac5665,
    0xf4292244, 0x432aff97, 0xab9423a7, 0xfc93a039, 0x655b59c3, 0x8f0ccc92,
    0xffeff47d, 0x85845dd1, 0x6fa87e4f, 0xfe2ce6e0, 0xa3014314, 0x4e0811a1,
    0xf7537e82, 0xbd3af235, 0x2ad7d2bb, 0xeb86d391]

/-- One turn: the first register gets the new value and the registers move on. -/
def turn (x : ℕ → UInt32) (registers : Md5State) (k : ℕ) : Md5State where
  a := registers.d
  b := transformation (callFunction k) registers.a registers.b registers.c registers.d
    (x (callWord k)) (callShift k) (callConstants.getD k 0)
  c := registers.b
  d := registers.c

/-- After four turns the registers have their old places. -/
theorem foldl_sixteen {step : Md5State → ℕ → Md5State} {k : ℕ}
    {r₀ r₁ r₂ r₃ r₄ : Md5State} (h₁ : (List.range' k 4).foldl step r₀ = r₁)
    (h₂ : (List.range' (k + 4) 4).foldl step r₁ = r₂)
    (h₃ : (List.range' (k + 8) 4).foldl step r₂ = r₃)
    (h₄ : (List.range' (k + 12) 4).foldl step r₃ = r₄) :
    (List.range' k 16).foldl step r₀ = r₄ := by
  have hrange : List.range' k 16 = List.range' k 4 ++ (List.range' (k + 4) 4 ++
      (List.range' (k + 8) 4 ++ List.range' (k + 12) 4)) := rfl
  rw [hrange, List.foldl_append, h₁, List.foldl_append, h₂, List.foldl_append, h₃, h₄]

theorem round1_eq (x : ℕ → UInt32) (registers : Md5State) :
    round1 x registers = (List.range' 0 16).foldl (turn x) registers := by
  obtain ⟨a, b, c, d⟩ := registers
  dsimp -zeta only [round1]
  extract_lets a₁ d₁ c₁ b₁ a₂ d₂ c₂ b₂ a₃ d₃ c₃ b₃ a₄ d₄ c₄ b₄
  exact (@foldl_sixteen _ 0 ⟨a, b, c, d⟩ ⟨a₁, b₁, c₁, d₁⟩ ⟨a₂, b₂, c₂, d₂⟩
    ⟨a₃, b₃, c₃, d₃⟩ ⟨a₄, b₄, c₄, d₄⟩ rfl rfl rfl rfl).symm

theorem round2_eq (x : ℕ → UInt32) (registers : Md5State) :
    round2 x registers = (List.range' 16 16).foldl (turn x) registers := by
  obtain ⟨a, b, c, d⟩ := registers
  dsimp -zeta only [round2]
  extract_lets a₁ d₁ c₁ b₁ a₂ d₂ c₂ b₂ a₃ d₃ c₃ b₃ a₄ d₄ c₄ b₄
  exact (@foldl_sixteen _ 16 ⟨a, b, c, d⟩ ⟨a₁, b₁, c₁, d₁⟩ ⟨a₂, b₂, c₂, d₂⟩
    ⟨a₃, b₃, c₃, d₃⟩ ⟨a₄, b₄, c₄, d₄⟩ rfl rfl rfl rfl).symm

theorem round3_eq (x : ℕ → UInt32) (registers : Md5State) :
    round3 x registers = (List.range' 32 16).foldl (turn x) registers := by
  obtain ⟨a, b, c, d⟩ := registers
  dsimp -zeta only [round3]
  extract_lets a₁ d₁ c₁ b₁ a₂ d₂ c₂ b₂ a₃ d₃ c₃ b₃ a₄ d₄ c₄ b₄
  exact (@foldl_sixteen _ 32 ⟨a, b, c, d⟩ ⟨a₁, b₁, c₁, d₁⟩ ⟨a₂, b₂, c₂, d₂⟩
    ⟨a₃, b₃, c₃, d₃⟩ ⟨a₄, b₄, c₄, d₄⟩ rfl rfl rfl rfl).symm

theorem round4_eq (x : ℕ → UInt32) (registers : Md5State) :
    round4 x registers = (List.range' 48 16).foldl (turn x) registers := by
  obtain ⟨a, b, c, d⟩ := registers
  dsimp -zeta only [round4]
  extract_lets a₁ d₁ c₁ b₁ a₂ d₂ c₂ b₂ a₃ d₃ c₃ b₃ a₄ d₄ c₄ b₄
  exact (@foldl_sixteen _ 48 ⟨a, b, c, d⟩ ⟨a₁, b₁, c₁, d₁⟩ ⟨a₂, b₂, c₂, d₂⟩
    ⟨a₃, b₃, c₃, d₃⟩ ⟨a₄, b₄, c₄, d₄⟩ rfl rfl rfl rfl).symm

/-- The calls, which are written out, are a loop over the turns. -/
theorem rounds_eq_loop (x : ℕ → UInt32) (registers : Md5State) :
    round4 x (round3 x (round2 x (round1 x registers))) =
      (List.range 64).foldl (turn x) registers := by
  have hrange : List.range 64 = List.range' 0 16 ++ (List.range' 16 16 ++
      (List.range' 32 16 ++ List.range' 48 16)) := rfl
  rw [hrange, List.foldl_append, ← round1_eq, List.foldl_append, ← round2_eq,
    List.foldl_append, ← round3_eq, ← round4_eq]

/-! ## Undoing a turn -/

theorem toNat_rotateLeft {n : UInt32} (hpos : 0 < n.toNat) (hlt : n.toNat < 32)
    (x : UInt32) :
    (rotateLeft x n).toNat =
      x.toNat % 2 ^ (32 - n.toNat) * 2 ^ n.toNat + x.toNat / 2 ^ (32 - n.toNat) := by
  have hx := x.toNat_lt
  have hpow : 2 ^ (32 - n.toNat) * 2 ^ n.toNat = 2 ^ 32 := by
    rw [← pow_add, Nat.sub_add_cancel hlt.le]
  have h32 : (32 : UInt32).toNat = 32 := rfl
  have hsub : (32 - n).toNat = 32 - n.toNat := by
    rw [UInt32.toNat_sub_of_le _ _ (by rw [UInt32.le_iff_toNat_le]; omega), h32]
  have hleft : (x <<< n).toNat = x.toNat % 2 ^ (32 - n.toNat) * 2 ^ n.toNat := by
    rw [UInt32.toNat_shiftLeft, Nat.mod_eq_of_lt hlt, Nat.shiftLeft_eq, ← hpow,
      Nat.mul_mod_mul_right]
  have hright : (x >>> (32 - n)).toNat = x.toNat / 2 ^ (32 - n.toNat) := by
    rw [UInt32.toNat_shiftRight, hsub, Nat.mod_eq_of_lt (by omega),
      Nat.shiftRight_eq_div_pow]
  have hsmall : x.toNat / 2 ^ (32 - n.toNat) < 2 ^ n.toNat := by
    rw [Nat.div_lt_iff_lt_mul (by positivity), Nat.mul_comm, hpow]
    exact hx
  have hor := Nat.shiftLeft_add_eq_or_of_lt hsmall (x.toNat % 2 ^ (32 - n.toNat))
  rw [Nat.shiftLeft_eq] at hor
  rw [rotateLeft, UInt32.toNat_or, hleft, hright, ← hor]

theorem rotateLeft_injective {n : UInt32} (hpos : 0 < n.toNat) (hlt : n.toNat < 32) :
    Function.Injective fun x => rotateLeft x n := by
  intro x y heq
  have hsmall : ∀ z : UInt32, z.toNat / 2 ^ (32 - n.toNat) < 2 ^ n.toNat := by
    intro z
    have hz := z.toNat_lt
    rw [Nat.div_lt_iff_lt_mul (by positivity), ← pow_add, Nat.add_sub_cancel' hlt.le]
    exact hz
  have hvalue := congrArg UInt32.toNat heq
  simp only [toNat_rotateLeft hpos hlt] at hvalue
  -- the bits that went round, and then the others
  have hhigh := congrArg (· % 2 ^ n.toNat) hvalue
  simp only [Nat.mul_add_mod_self_right, Nat.mod_eq_of_lt (hsmall _)] at hhigh
  rw [hhigh, Nat.add_right_cancel_iff] at hvalue
  have hlow := Nat.eq_of_mul_eq_mul_right (by positivity) hvalue
  apply UInt32.toNat_inj.mp
  rw [← Nat.mod_add_div x.toNat (2 ^ (32 - n.toNat)), hlow, hhigh, Nat.mod_add_div]

theorem callShift_bounds {k : ℕ} (hk : k < 64) :
    0 < (callShift k).toNat ∧ (callShift k).toNat < 32 := by
  have hall : ∀ k : Fin 64, 0 < (callShift k).toNat ∧ (callShift k).toNat < 32 := by
    decide
  exact hall ⟨k, hk⟩

theorem turn_injective (x : ℕ → UInt32) {k : ℕ} (hk : k < 64) :
    Function.Injective fun registers => turn x registers k := by
  intro first second heq
  obtain ⟨hpos, hlt⟩ := callShift_bounds hk
  obtain ⟨hd, hvalue, hb, hc⟩ := Md5State.ext_iff.mp heq
  simp only [turn] at hd hvalue hb hc
  rw [hb, hc, hd, transformation, transformation, UInt32.add_left_inj] at hvalue
  have ha := (UInt32.add_left_inj _).mp (rotateLeft_injective hpos hlt hvalue)
  exact Md5State.ext ha hb hc hd

theorem foldl_turn_injective (x : ℕ → UInt32) {indices : List ℕ}
    (hindices : ∀ k ∈ indices, k < 64) :
    Function.Injective fun registers => indices.foldl (turn x) registers := by
  induction indices with
  | nil => exact Function.injective_id
  | cons k indices ih =>
      have hrest := ih fun other hmem => hindices other (List.mem_cons_of_mem _ hmem)
      exact hrest.comp (turn_injective x (hindices k List.mem_cons_self))

instance : Finite Md5State :=
  Finite.of_injective (fun state => (state.a, state.b, state.c, state.d)) fun first second heq => by
    simp only [Prod.mk.injEq] at heq
    exact Md5State.ext heq.1 heq.2.1 heq.2.2.1 heq.2.2.2

/-- No call loses anything: for every block the four rounds permute the states. -/
theorem rounds_bijective (x : ℕ → UInt32) :
    Function.Bijective fun registers =>
      round4 x (round3 x (round2 x (round1 x registers))) := by
  apply Function.Injective.bijective_of_finite
  simp only [rounds_eq_loop]
  exact foldl_turn_injective x fun k hmem => List.mem_range.mp hmem

end Md5

end Multisync
