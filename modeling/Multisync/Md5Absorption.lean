import Multisync.Md5
import Multisync.Absorption
import Mathlib.Tactic

/-!
# The digest class absorbs its input

A context stands for an absorber: its chaining state, and the bytes at the start
of its buffer that the count of bits says are there.  `update` takes its input in
as the absorber does, as long as the index of its loop stays below 2^32.
-/

namespace Multisync

open ByteLayout Absorption Md5

/-! ## Words, bytes and copies -/

namespace Md5

theorem memcpy_succ (output : Bytes) (start : ℕ) (input : Bytes) (len : ℕ) :
    memcpy output start input (len + 1) =
      (memcpy output start input len).set (start + len) (input.getD len 0) := by
  rw [memcpy, List.range_succ, List.foldl_append, List.foldl_cons, List.foldl_nil,
    memcpy]

/-- A copy within the bounds replaces a part of the output. -/
theorem memcpy_eq {output : Bytes} {start : ℕ} {input : Bytes} {len : ℕ}
    (hinput : len ≤ input.length) (houtput : start + len ≤ output.length) :
    memcpy output start input len =
      output.take start ++ (input.take len ++ output.drop (start + len)) := by
  induction len with
  | zero =>
      rw [List.take_zero, List.nil_append, Nat.add_zero, List.take_append_drop]
      rfl
  | succ len ih =>
      have hin : len < input.length := hinput
      have hout : start + len < output.length := by omega
      have hlength : (output.take start ++ input.take len).length = start + len := by
        rw [List.length_append, List.length_take_of_le (by omega),
          List.length_take_of_le (by omega)]
      have hvalue : input.getD len 0 = input[len] := by simp [hin]
      rw [memcpy_succ, ih (by omega) (by omega), ← List.append_assoc,
        List.set_append_right _ _ (by omega), hlength, Nat.sub_self,
        List.drop_eq_getElem_cons hout, List.set_cons_zero, hvalue, List.append_assoc,
        ← List.take_concat_get' input len hin, List.append_assoc,
        List.singleton_append, Nat.add_assoc]

end Md5

namespace Md5Context

/-! ## The count of bits -/

/-- The number of bits, which is counted modulo 2^64. -/
def bits (context : Md5Context) : ℕ :=
  context.count.1.toNat + 2 ^ 32 * context.count.2.toNat

theorem toNat_bufferIndex (context : Md5Context) :
    context.bufferIndex.toNat = context.bits / 8 % 64 := by
  have hmask : context.bufferIndex.toNat = context.count.1.toNat / 8 % 64 := by
    have hshift : (context.count.1 >>> 3).toNat = context.count.1.toNat / 8 := by
      rw [UInt32.toNat_shiftRight]
      exact Nat.shiftRight_eq_div_pow _ 3
    rw [bufferIndex, UInt32.toNat_and, hshift]
    exact Nat.and_two_pow_sub_one_eq_mod _ 6
  rw [hmask, bits]
  omega

theorem bufferIndex_lt (context : Md5Context) : context.bufferIndex.toNat < 64 := by
  rw [toNat_bufferIndex]
  exact Nat.mod_lt _ (by omega)

theorem bits_addBits (length : UInt32) (count : UInt32 × UInt32) :
    (addBits length count).1.toNat + 2 ^ 32 * (addBits length count).2.toNat =
      (count.1.toNat + 2 ^ 32 * count.2.toNat + 8 * length.toNat) % 2 ^ 64 := by
  have hlow := count.1.toNat_lt
  have hhigh := count.2.toNat_lt
  have hlength := length.toNat_lt
  have hleft : (length <<< 3).toNat = length.toNat * 8 % 2 ^ 32 := by
    rw [UInt32.toNat_shiftLeft]
    exact congrArg (· % 2 ^ 32) (Nat.shiftLeft_eq _ 3)
  have hright : (length >>> 29).toNat = length.toNat / 2 ^ 29 := by
    rw [UInt32.toNat_shiftRight]
    exact Nat.shiftRight_eq_div_pow _ 29
  have hone : (1 : UInt32).toNat = 1 := rfl
  simp only [addBits, UInt32.lt_iff_toNat_lt, UInt32.toNat_add, hleft, hright]
  split_ifs with hcarry
  · rw [UInt32.toNat_add, hone]
    omega
  · omega

/-! ## The absorber of a context -/

/-- The bytes of the buffer that are waiting. -/
def waiting (context : Md5Context) : Bytes :=
  context.buffer.take context.bufferIndex.toNat

theorem length_waiting (context : Md5Context) :
    context.waiting.length = context.bufferIndex.toNat := by
  have hlt := context.bufferIndex_lt
  rw [waiting, List.length_take_of_le (by rw [context.length_buffer]; omega)]

def absorber (context : Md5Context) : Absorber Md5State UInt8 64 where
  state := context.state
  waiting := context.waiting
  waiting_lt := by
    rw [length_waiting]
    exact context.bufferIndex_lt

/-- The last index of the loop of `update`. -/
def lastIndex (context : Md5Context) (input : Md5Input) : ℕ :=
  input.bytes.length - (context.bufferIndex.toNat + input.bytes.length) % 64

/-- The context after an input. -/
structure Updated (input : Bytes) (context context' : Md5Context) : Prop where
  absorber : context'.absorber = context.absorber.push compress input
  bits : context'.bits = (context.bits + 8 * input.length) % 2 ^ 64
  finalized : context'.finalized = false
  digest : context'.digest = context.digest
  cerr : context'.cerr = context.cerr

variable {input : Md5Input} {context : Md5Context}

theorem transform_of_open (hopen : context.finalized = false) (block : Bytes) :
    context.transform block =
      .ok { context with state := compress context.state block } := by
  simp [transform, hopen]

theorem toNat_length (input : Md5Input) : input.length.toNat = input.bytes.length := by
  have hlt := input.length_lt
  rw [Md5Input.length, UInt32.toNat_ofNat']
  omega

/-- The loop compresses all complete blocks from its index on.  Where the sum in
its condition wraps around, it goes on behind the end of the input. -/
theorem transformBlocks_eq {index : UInt32} (hopen : context.finalized = false)
    (hle : index.toNat ≤ input.bytes.length) :
    transformBlocks input index context =
      if index.toNat + (input.bytes.length - index.toNat) / 64 * 64 + 63 < 2 ^ 32 then
        .ok (UInt32.ofNat
            (index.toNat + (input.bytes.length - index.toNat) / 64 * 64),
          { context with
            state := (blocks 64 (input.bytes.drop index.toNat)).foldl compress
              context.state })
      else .error .outOfBounds := by
  have hlt := input.length_lt
  have hsum : (index + 63).toNat = (index.toNat + 63) % 2 ^ 32 := UInt32.toNat_add index 63
  fun_induction transformBlocks input index context with
  | case1 index context hguard hin ih =>
      have hnext : (index + 64).toNat = index.toNat + 64 := by
        rw [UInt32.toNat_add]
        exact Nat.mod_eq_of_lt (by have h64 : (64 : UInt32).toNat = 64 := rfl; omega)
      have hlong : 64 ≤ (input.bytes.drop index.toNat).length := by
        rw [List.length_drop]
        omega
      have hlast : index.toNat + (input.bytes.length - index.toNat) / 64 * 64 =
          (index + 64).toNat + (input.bytes.length - (index + 64).toNat) / 64 * 64 := by
        omega
      rw [transform_of_open hopen, blocks_of_le (by omega) hlong, List.foldl_cons,
        List.drop_drop, hlast, ← hnext]
      exact ih _ hopen (by omega) (UInt32.toNat_add (index + 64) 63)
  | case2 index context hguard hin =>
      rw [UInt32.lt_iff_toNat_lt, hsum, toNat_length] at hguard
      rw [if_neg (by omega)]
  | case3 index context hguard =>
      rw [UInt32.lt_iff_toNat_lt, hsum, toNat_length] at hguard
      have hzero : (input.bytes.length - index.toNat) / 64 = 0 := by omega
      have hshort : (input.bytes.drop index.toNat).length < 64 := by
        rw [List.length_drop]
        omega
      rw [hzero, if_pos (by omega), blocks_of_lt hshort, Nat.zero_mul, Nat.add_zero,
        UInt32.ofNat_toNat, List.foldl_nil]

theorem bits_of_count {context' : Md5Context}
    (hcount : context'.count = addBits input.length context.count) :
    context'.bits = (context.bits + 8 * input.bytes.length) % 2 ^ 64 := by
  rw [bits, hcount, bits_addBits, toNat_length, bits]

theorem bufferIndex_of_count {context' : Md5Context}
    (hcount : context'.count = addBits input.length context.count) :
    context'.bufferIndex.toNat =
      (context.bufferIndex.toNat + input.bytes.length) % 64 := by
  rw [toNat_bufferIndex, toNat_bufferIndex, bits_of_count hcount]
  omega

theorem Updated.of_parts {context' : Md5Context}
    (hstate : context'.state = (context.absorber.push compress input.bytes).state)
    (hbuffer : context'.buffer.take
        ((context.bufferIndex.toNat + input.bytes.length) % 64) =
      (context.absorber.push compress input.bytes).waiting)
    (hcount : context'.count = addBits input.length context.count)
    (hfinalized : context'.finalized = false)
    (hdigest : context'.digest = context.digest) (hcerr : context'.cerr = context.cerr) :
    Updated input.bytes context context' where
  absorber := by
    apply Absorber.ext
    · exact hstate
    · rw [← hbuffer, ← bufferIndex_of_count hcount]
      rfl
  bits := bits_of_count hcount
  finalized := hfinalized
  digest := hdigest
  cerr := hcerr

/-- The context after a word has been copied into the buffer. -/
structure Copied (start : ℕ) (word : Bytes) (context context' : Md5Context) : Prop where
  buffer : context'.buffer = context.buffer.take start ++
    (word ++ context.buffer.drop (start + word.length))
  state : context'.state = context.state
  count : context'.count = context.count
  finalized : context'.finalized = context.finalized
  digest : context'.digest = context.digest
  cerr : context'.cerr = context.cerr

theorem copyIn_of_fits {start len : UInt32} {bytes : Bytes}
    (houtput : start.toNat + len.toNat ≤ 64) (hinput : len.toNat ≤ bytes.length) :
    ∃ context', context.copyIn start bytes len = .ok context' ∧
      Copied start.toNat (bytes.take len.toNat) context context' := by
  have hcopy := memcpy_eq hinput (context.length_buffer.symm ▸ houtput)
  refine ⟨_, if_pos ⟨houtput, hinput⟩, ?_, rfl, rfl, rfl, rfl, rfl⟩
  rw [List.length_take_of_le hinput]
  exact hcopy

theorem copyIn_whole {start len : UInt32} {bytes : Bytes}
    (hlen : len.toNat = bytes.length) (houtput : start.toNat + bytes.length ≤ 64) :
    ∃ context', context.copyIn start bytes len = .ok context' ∧
      Copied start.toNat bytes context context' := by
  have hcopy := @copyIn_of_fits context start len bytes (by omega) hlen.le
  rwa [hlen, List.take_length] at hcopy

/-- A copy to the place where the buffer's content ends makes that longer. -/
theorem Copied.take_buffer {start : ℕ} {word : Bytes} {context' : Md5Context}
    (hcopied : Copied start word context context') (hfit : start + word.length ≤ 64) :
    context'.buffer.take (start + word.length) = context.buffer.take start ++ word := by
  have hlength : (context.buffer.take start ++ word).length = start + word.length := by
    rw [List.length_append, List.length_take_of_le (by rw [context.length_buffer]; omega)]
  rw [hcopied.buffer, ← List.append_assoc, ← hlength, List.take_left]

theorem toNat_bufferSpace (context : Md5Context) :
    (64 - context.bufferIndex).toNat = 64 - context.bufferIndex.toNat := by
  have hindex := context.bufferIndex_lt
  apply UInt32.toNat_sub_of_le
  rw [UInt32.le_iff_toNat_le]
  exact hindex.le

/-- An input that does not fill the buffer is copied behind what is there. -/
theorem update_of_short (hopen : context.finalized = false)
    (hshort : context.bufferIndex.toNat + input.bytes.length < 64) :
    ∃ context', context.update input = .ok context' ∧
      Updated input.bytes context context' := by
  have hlength := toNat_length input
  have hspace : ¬ 64 - context.bufferIndex ≤ input.length := by
    rw [UInt32.le_iff_toNat_le, toNat_bufferSpace]
    omega
  let counted := { context with count := addBits input.length context.count }
  obtain ⟨context', hcopy, hcopied⟩ := @copyIn_whole counted context.bufferIndex
    input.length input.bytes hlength (by omega)
  have hwaiting : context.absorber.waiting.length = context.bufferIndex.toNat :=
    length_waiting context
  have hpush := context.absorber.push_waiting_of_lt compress
    (hwaiting.symm ▸ hshort)
  refine ⟨context', ?_, ?_⟩
  · rw [update, if_neg (by simp [hopen])]
    simp only [if_neg hspace]
    exact hcopy
  · apply Updated.of_parts
    · rw [hcopied.state, hpush.1]
      rfl
    · rw [Nat.mod_eq_of_lt hshort, hcopied.take_buffer (by omega), hpush.2]
      rfl
    · exact hcopied.count
    · rw [hcopied.finalized]
      exact hopen
    · exact hcopied.digest
    · exact hcopied.cerr

/-- An input that fills the buffer: the buffer is compressed, and then the loop
runs over what follows. -/
theorem update_of_fills (hopen : context.finalized = false)
    (hlong : 64 ≤ context.bufferIndex.toNat + input.bytes.length) :
    ∃ filled : Md5Context,
      filled.state = compress context.state
        (context.waiting ++ input.bytes.take (64 - context.bufferIndex.toNat)) ∧
      filled.buffer = context.waiting ++
        input.bytes.take (64 - context.bufferIndex.toNat) ∧
      filled.count = addBits input.length context.count ∧
      filled.finalized = false ∧ filled.digest = context.digest ∧
      filled.cerr = context.cerr ∧
      context.update input =
        (filled.transformBlocks input (64 - context.bufferIndex)).bind fun result =>
          result.2.copyIn 0 (input.bytes.drop result.1.toNat)
            (input.length - result.1) := by
  have hlength := toNat_length input
  have hindex := context.bufferIndex_lt
  have hspace := toNat_bufferSpace context
  have hle : 64 - context.bufferIndex ≤ input.length := by
    rw [UInt32.le_iff_toNat_le, hspace]
    omega
  let counted := { context with count := addBits input.length context.count }
  obtain ⟨mid, hcopy, hcopied⟩ := @copyIn_of_fits counted context.bufferIndex
    (64 - context.bufferIndex) input.bytes (by omega) (by omega)
  rw [hspace] at hcopied
  have htake := List.length_take_of_le
    (show 64 - context.bufferIndex.toNat ≤ input.bytes.length by omega)
  have hopen' : mid.finalized = false := by
    rw [hcopied.finalized]
    exact hopen
  have hbuffer : mid.buffer =
      context.waiting ++ input.bytes.take (64 - context.bufferIndex.toNat) := by
    have hbuffer := hcopied.take_buffer (by omega)
    rwa [htake, Nat.add_sub_cancel' hindex.le,
      List.take_of_length_le mid.length_buffer.le] at hbuffer
  refine ⟨{ mid with state := compress mid.state mid.buffer }, ?_, hbuffer, hcopied.count,
    hopen', hcopied.digest, hcopied.cerr, ?_⟩
  · change compress mid.state mid.buffer = _
    rw [hbuffer, hcopied.state]
  · rw [update, if_neg (by simp [hopen])]
    simp only [if_pos hle]
    rw [hcopy]
    change (mid.transform mid.buffer).bind _ = _
    rw [transform_of_open hopen']
    rfl

theorem lastIndex_of_fills
    (hlong : 64 ≤ context.bufferIndex.toNat + input.bytes.length) :
    (64 - context.bufferIndex.toNat) +
        (input.bytes.length - (64 - context.bufferIndex.toNat)) / 64 * 64 =
      context.lastIndex input := by
  have hindex := context.bufferIndex_lt
  rw [lastIndex]
  omega

theorem rest_of_fills
    (hlong : 64 ≤ context.bufferIndex.toNat + input.bytes.length) :
    rest 64 (input.bytes.drop (64 - context.bufferIndex.toNat)) =
      input.bytes.drop (context.lastIndex input) := by
  rw [rest, List.drop_drop, List.length_drop, lastIndex_of_fills hlong]

/-- The complete blocks that follow are compressed, and what is left goes to the
start of the buffer. -/
theorem update_of_long (hopen : context.finalized = false)
    (hlong : 64 ≤ context.bufferIndex.toNat + input.bytes.length)
    (hlast : context.lastIndex input + 63 < 2 ^ 32) :
    ∃ context', context.update input = .ok context' ∧
      Updated input.bytes context context' ∧
      context'.buffer = input.bytes.drop (context.lastIndex input) ++
        (context.waiting ++ input.bytes.take (64 - context.bufferIndex.toNat)).drop
          (input.bytes.drop (context.lastIndex input)).length := by
  have hlength := toNat_length input
  have hindex := context.bufferIndex_lt
  have hspace := toNat_bufferSpace context
  obtain ⟨filled, hstate, hbuffer, hcount, hopen', hdigest, hcerr, hupdate⟩ :=
    update_of_fills hopen hlong
  have hloop := @transformBlocks_eq input filled (64 - context.bufferIndex) hopen'
    (by omega)
  rw [hspace, lastIndex_of_fills hlong, if_pos hlast] at hloop
  -- what is left behind the last block
  have htoNat : (UInt32.ofNat (context.lastIndex input)).toNat =
      context.lastIndex input := by
    rw [UInt32.toNat_ofNat']
    omega
  have hleft : (input.bytes.drop (context.lastIndex input)).length =
      (context.bufferIndex.toNat + input.bytes.length) % 64 := by
    rw [List.length_drop, lastIndex]
    omega
  have hrest : (input.length - UInt32.ofNat (context.lastIndex input)).toNat =
      (input.bytes.drop (context.lastIndex input)).length := by
    have hle : context.lastIndex input ≤ input.bytes.length := Nat.sub_le _ _
    rw [UInt32.toNat_sub_of_le _ _ (by rw [UInt32.le_iff_toNat_le]; omega), htoNat,
      hlength, List.length_drop]
  have hfit : (input.bytes.drop (context.lastIndex input)).length ≤ 64 := by
    rw [hleft]
    exact (Nat.mod_lt _ (by omega)).le
  obtain ⟨context', hcopy, hcopied⟩ := @copyIn_whole
    { filled with state := (blocks 64 (input.bytes.drop
        (64 - context.bufferIndex.toNat))).foldl compress filled.state }
    0 _ _ hrest (by
      rw [UInt32.toNat_zero, Nat.zero_add]
      exact hfit)
  have hwaiting : context.absorber.waiting.length = context.bufferIndex.toNat :=
    length_waiting context
  have hpush := context.absorber.push_of_le compress
    (show context.absorber.waiting.length + (64 - context.bufferIndex.toNat) = 64 by
      omega) (show 64 - context.bufferIndex.toNat ≤ input.bytes.length by omega)
  refine ⟨context', ?_, ?_, ?_⟩
  · rw [hupdate, hloop]
    change copyIn 0 (input.bytes.drop (UInt32.ofNat _).toNat) _ _ = _
    rw [htoNat]
    exact hcopy
  · apply Updated.of_parts
    · rw [hcopied.state, hpush.1, hstate]
      rfl
    · have htake := hcopied.take_buffer (by
        rw [UInt32.toNat_zero, Nat.zero_add]
        exact hfit)
      rwa [UInt32.toNat_zero, Nat.zero_add, List.take_zero, List.nil_append, hleft,
        ← rest_of_fills hlong, ← hpush.2] at htake
    · rw [hcopied.count]
      exact hcount
    · rw [hcopied.finalized]
      exact hopen'
    · rw [hcopied.digest]
      exact hdigest
    · rw [hcopied.cerr]
      exact hcerr
  · rw [hcopied.buffer, UInt32.toNat_zero, Nat.zero_add, List.take_zero, List.nil_append,
      ← hbuffer]

theorem update_of_wrap (hopen : context.finalized = false)
    (hlast : ¬ context.lastIndex input + 63 < 2 ^ 32) :
    context.update input = .error .outOfBounds := by
  have hindex := context.bufferIndex_lt
  have hspace := toNat_bufferSpace context
  have hlong : 64 ≤ context.bufferIndex.toNat + input.bytes.length := by
    rw [lastIndex] at hlast
    omega
  obtain ⟨filled, hstate, hbuffer, hcount, hopen', hdigest, hcerr, hupdate⟩ :=
    update_of_fills hopen hlong
  have hloop := @transformBlocks_eq input filled (64 - context.bufferIndex) hopen'
    (by omega)
  rw [hspace, lastIndex_of_fills hlong, if_neg hlast] at hloop
  rw [hupdate, hloop]
  rfl

theorem update_updated (hopen : context.finalized = false)
    (hlast : context.lastIndex input + 63 < 2 ^ 32) :
    ∃ context', context.update input = .ok context' ∧
      Updated input.bytes context context' := by
  by_cases hlong : 64 ≤ context.bufferIndex.toNat + input.bytes.length
  · obtain ⟨context', hok, hupdated, _⟩ := update_of_long hopen hlong hlast
    exact ⟨context', hok, hupdated⟩
  · exact update_of_short hopen (by omega)

/-- Lengths of which a multiple of 64 behind the buffer's content comes within 63 of
2^32 are the only ones that lead out of the input. -/
theorem update_returns_iff (hopen : context.finalized = false) :
    ((∃ context', context.update input = .ok context') ↔
      context.lastIndex input + 63 < 2 ^ 32) ∧
    (context.update input = .error .outOfBounds ↔
      ¬ context.lastIndex input + 63 < 2 ^ 32) := by
  by_cases hlast : context.lastIndex input + 63 < 2 ^ 32
  · obtain ⟨context', hok, _⟩ := update_updated hopen hlast
    refine ⟨⟨fun _ => hlast, fun _ => ⟨context', hok⟩⟩, ⟨fun herror => ?_, absurd hlast⟩⟩
    rw [hok] at herror
    contradiction
  · have herror := update_of_wrap hopen hlast
    refine ⟨⟨?_, fun hlt => absurd hlt hlast⟩, ⟨fun _ => hlast, fun _ => herror⟩⟩
    rintro ⟨context', hok⟩
    rw [herror] at hok
    contradiction

/-- The longest input there is: behind an empty buffer the loop stops in time. -/
theorem longest_input_returns :
    ∃ context', (init (List.replicate 64 0) List.length_replicate
        (stateDigest magic)).update
      ⟨List.replicate (2 ^ 32 - 1) 0, by rw [List.length_replicate]; omega⟩ = .ok context' := by
  apply (update_returns_iff rfl).1.mpr
  rw [lastIndex]
  simp only [List.length_replicate]
  decide

end Md5Context

end Multisync
