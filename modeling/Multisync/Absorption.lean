import Mathlib.Data.List.Basic
import Mathlib.Tactic

/-!
# Absorbing words block by block

A machine takes words of any length and works on them in blocks of a fixed
width: a complete block is compressed into the chaining state as soon as it is
there, and the incomplete rest waits.  How a text is cut into words does not
matter, and two texts with the same final state force their computations to
meet, unless the blocks of one are the last blocks of the other.
-/

namespace Absorption

variable {σ α β : Type*}

/-- The first blocks of a word. -/
def takeBlocks (width : ℕ) : ℕ → List α → List (List α)
  | 0, _ => []
  | count + 1, word => word.take width :: takeBlocks width count (word.drop width)

/-- All complete blocks of a word. -/
def blocks (width : ℕ) (word : List α) : List (List α) :=
  takeBlocks width (word.length / width) word

/-- What follows the last complete block. -/
def rest (width : ℕ) (word : List α) : List α :=
  word.drop (word.length / width * width)

section Blocks

variable {width : ℕ}

theorem length_rest (word : List α) :
    (rest width word).length = word.length % width := by
  rw [rest, List.length_drop, Nat.mod_eq_sub_div_mul]

theorem length_rest_lt (hpos : 0 < width) (word : List α) :
    (rest width word).length < width := by
  rw [length_rest]
  exact Nat.mod_lt _ hpos

theorem blocks_of_lt {word : List α} (hlt : word.length < width) :
    blocks width word = [] := by
  rw [blocks, Nat.div_eq_of_lt hlt, takeBlocks]

theorem rest_of_lt {word : List α} (hlt : word.length < width) :
    rest width word = word := by
  rw [rest, Nat.div_eq_of_lt hlt, Nat.zero_mul, List.drop_zero]

theorem div_eq_succ (hpos : 0 < width) {word : List α} (hle : width ≤ word.length) :
    word.length / width = (word.drop width).length / width + 1 := by
  rw [List.length_drop, Nat.div_eq_sub_div hpos hle]

theorem blocks_of_le (hpos : 0 < width) {word : List α} (hle : width ≤ word.length) :
    blocks width word = word.take width :: blocks width (word.drop width) := by
  rw [blocks, div_eq_succ hpos hle, takeBlocks, blocks]

theorem rest_of_le (hpos : 0 < width) {word : List α} (hle : width ≤ word.length) :
    rest width word = rest width (word.drop width) := by
  rw [rest, rest, div_eq_succ hpos hle, List.drop_drop, Nat.add_mul, Nat.one_mul,
    Nat.add_comm width]

/-- Block by block: a word with a complete block is that block and what follows. -/
theorem induction_blocks (hpos : 0 < width) {P : List α → Prop}
    (hshort : ∀ word, word.length < width → P word)
    (hlong : ∀ word, width ≤ word.length → P (word.drop width) → P word) :
    ∀ word, P word := by
  intro word
  induction hn : word.length using Nat.strong_induction_on generalizing word with
  | _ n ih =>
      by_cases hle : width ≤ word.length
      · apply hlong word hle
        apply ih (word.drop width).length ?_ _ rfl
        rw [List.length_drop]
        omega
      · exact hshort word (by omega)

theorem blocks_append (hpos : 0 < width) (first second : List α) :
    blocks width (first ++ second) =
      blocks width first ++ blocks width (rest width first ++ second) := by
  induction first using induction_blocks hpos with
  | hshort first hlt => rw [blocks_of_lt hlt, rest_of_lt hlt, List.nil_append]
  | hlong first hle ih =>
      have hle' : width ≤ (first ++ second).length := by
        rw [List.length_append]
        omega
      rw [blocks_of_le hpos hle', blocks_of_le hpos hle, rest_of_le hpos hle,
        List.take_append_of_le_length hle, List.drop_append_of_le_length hle, ih,
        List.cons_append]

theorem rest_append (hpos : 0 < width) (first second : List α) :
    rest width (first ++ second) = rest width (rest width first ++ second) := by
  induction first using induction_blocks hpos with
  | hshort first hlt => rw [rest_of_lt hlt]
  | hlong first hle ih =>
      have hle' : width ≤ (first ++ second).length := by
        rw [List.length_append]
        omega
      rw [rest_of_le hpos hle', rest_of_le hpos hle, List.drop_append_of_le_length hle,
        ih]

theorem flatten_blocks_append_rest (hpos : 0 < width) (word : List α) :
    (blocks width word).flatten ++ rest width word = word := by
  induction word using induction_blocks hpos with
  | hshort word hlt => rw [blocks_of_lt hlt, rest_of_lt hlt, List.flatten_nil, List.nil_append]
  | hlong word hle ih =>
      rw [blocks_of_le hpos hle, rest_of_le hpos hle, List.flatten_cons,
        List.append_assoc, ih, List.take_append_drop]

theorem rest_of_dvd {word : List α} (hdvd : width ∣ word.length) :
    rest width word = [] := by
  apply List.eq_nil_of_length_eq_zero
  rw [length_rest]
  exact Nat.mod_eq_zero_of_dvd hdvd

theorem flatten_blocks (hpos : 0 < width) {word : List α} (hdvd : width ∣ word.length) :
    (blocks width word).flatten = word := by
  have hword := flatten_blocks_append_rest hpos word
  rwa [rest_of_dvd hdvd, List.append_nil] at hword

/-- The last blocks of a word of complete blocks are the blocks of its end. -/
theorem suffix_of_suffix_blocks (hpos : 0 < width) {first second : List α}
    (hfirst : width ∣ first.length) (hsecond : width ∣ second.length)
    (hsuffix : blocks width first <:+ blocks width second) : first <:+ second := by
  obtain ⟨before, hbefore⟩ := hsuffix
  refine ⟨before.flatten, ?_⟩
  have hflatten := congrArg List.flatten hbefore
  rwa [List.flatten_append, flatten_blocks hpos hfirst, flatten_blocks hpos hsecond]
    at hflatten

end Blocks

/-! ## The machine -/

/-- A chaining state and the incomplete block that waits. -/
@[ext] structure Absorber (σ α : Type*) (width : ℕ) where
  state : σ
  waiting : List α
  waiting_lt : waiting.length < width

namespace Absorber

variable {width : ℕ}

theorem width_pos (absorber : Absorber σ α width) : 0 < width :=
  Nat.zero_lt_of_lt absorber.waiting_lt

variable (compress : σ → List α → σ) (absorber : Absorber σ α width)

/-- Taking a word in: what is complete is compressed, the rest waits. -/
def push (word : List α) : Absorber σ α width where
  state := (blocks width (absorber.waiting ++ word)).foldl compress absorber.state
  waiting := rest width (absorber.waiting ++ word)
  waiting_lt := length_rest_lt absorber.width_pos _

theorem push_append (first second : List α) :
    absorber.push compress (first ++ second) =
      (absorber.push compress first).push compress second := by
  have hpos := absorber.width_pos
  ext1
  · simp only [push]
    rw [← List.append_assoc, blocks_append hpos, List.foldl_append]
  · simp only [push]
    rw [← List.append_assoc, rest_append hpos]

theorem push_nil : absorber.push compress [] = absorber := by
  ext1
  · simp only [push]
    rw [List.append_nil, blocks_of_lt absorber.waiting_lt, List.foldl_nil]
  · simp only [push]
    rw [List.append_nil, rest_of_lt absorber.waiting_lt]

/-- A word that does not complete the block is kept. -/
theorem push_waiting_of_lt {word : List α}
    (hlt : absorber.waiting.length + word.length < width) :
    (absorber.push compress word).state = absorber.state ∧
      (absorber.push compress word).waiting = absorber.waiting ++ word := by
  have hlt' : (absorber.waiting ++ word).length < width := by
    rwa [List.length_append]
  simp only [push]
  rw [blocks_of_lt hlt', rest_of_lt hlt', List.foldl_nil]
  exact ⟨rfl, rfl⟩

/-- A longer word completes the block, and what follows is taken in by itself. -/
theorem push_of_le {word : List α} {space : ℕ}
    (hspace : absorber.waiting.length + space = width) (hle : space ≤ word.length) :
    (absorber.push compress word).state =
        (blocks width (word.drop space)).foldl compress
          (compress absorber.state (absorber.waiting ++ word.take space)) ∧
      (absorber.push compress word).waiting = rest width (word.drop space) := by
  have hpos := absorber.width_pos
  have hlong : width ≤ (absorber.waiting ++ word).length := by
    rw [List.length_append]
    omega
  have htake : (absorber.waiting ++ word).take width =
      absorber.waiting ++ word.take space := by
    have htake := @List.take_length_add_append _ absorber.waiting word space
    rwa [hspace] at htake
  have hdrop : (absorber.waiting ++ word).drop width = word.drop space := by
    have hdrop := @List.drop_length_add_append _ absorber.waiting word space
    rwa [hspace] at hdrop
  simp only [push]
  rw [blocks_of_le hpos hlong, rest_of_le hpos hlong, htake, hdrop, List.foldl_cons]
  exact ⟨rfl, rfl⟩

end Absorber

/-! ## Computations that meet -/

/-- At some step of each of two computations the inputs differ and the states
they lead to agree. -/
def Meet (compress : σ → β → σ) (initial : σ) (first second : List β) : Prop :=
  ∃ before x after before' x' after',
    first = before ++ x :: after ∧ second = before' ++ x' :: after' ∧
      (before.foldl compress initial, x) ≠ (before'.foldl compress initial, x') ∧
      compress (before.foldl compress initial) x =
        compress (before'.foldl compress initial) x'

theorem Meet.concat {compress : σ → β → σ} {initial : σ} {first second : List β}
    (hmeet : Meet compress initial first second) (x : β) :
    Meet compress initial (first ++ [x]) (second ++ [x]) := by
  obtain ⟨before, y, after, before', y', after', rfl, rfl, hne, heq⟩ := hmeet
  refine ⟨before, y, after ++ [x], before', y', after' ++ [x], ?_, ?_, hne, heq⟩
  · rw [List.append_assoc, List.cons_append]
  · rw [List.append_assoc, List.cons_append]

/-- Computations with the same result meet, unless one is the end of the other. -/
theorem meet_of_foldl_eq {compress : σ → β → σ} {initial : σ} {first second : List β}
    (heq : first.foldl compress initial = second.foldl compress initial)
    (hfirst : ¬ first <:+ second) (hsecond : ¬ second <:+ first) :
    Meet compress initial first second := by
  induction first using List.reverseRecOn generalizing second with
  | nil => exact absurd List.nil_suffix hfirst
  | append_singleton before x ih =>
      cases second using List.reverseRecOn with
      | nil => exact absurd List.nil_suffix hsecond
      | append_singleton before' x' =>
          by_cases hsame : (before.foldl compress initial, x) =
              (before'.foldl compress initial, x')
          · -- the last steps agree, so the computations before them do
            obtain ⟨hstate, rfl⟩ := Prod.mk.inj hsame
            apply (ih hstate ?_ ?_).concat
            · rintro ⟨rest, rfl⟩
              exact hfirst ⟨rest, by rw [List.append_assoc]⟩
            · rintro ⟨rest, rfl⟩
              exact hsecond ⟨rest, by rw [List.append_assoc]⟩
          · simp only [List.foldl_append, List.foldl_cons, List.foldl_nil] at heq
            exact ⟨before, x, [], before', x', [], rfl, rfl, hsame, heq⟩

end Absorption
