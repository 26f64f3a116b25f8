import Multisync.Md5Absorption
import Mathlib.Tactic

/-!
# Digests of texts

The digest of a text is defined without reference to the class: a one bit, zeros
and the number of bits are put behind it, and the blocks are compressed one after
the other.  Any sequence of calls of the class computes it for the text that was
given to it before it was finalized.
-/

namespace Multisync

open ByteLayout Absorption

namespace Md5

/-- What is put behind a text of the given length: a one bit, as many zeros as leave
eight bytes of a block, and the number of bits modulo 2^64, lowest byte first. -/
def suffix (length : ℕ) : Bytes :=
  0x80 :: (List.replicate ((119 - length % 64) % 64) 0 ++
    (toBytes 8 (8 * length)).reverse)

def pad (text : Bytes) : Bytes := text ++ suffix text.length

theorem length_suffix (length : ℕ) :
    (suffix length).length = (119 - length % 64) % 64 + 9 := by
  rw [suffix, List.length_cons, List.length_append, List.length_replicate,
    List.length_reverse, length_toBytes]

theorem dvd_length_pad (text : Bytes) : 64 ∣ (pad text).length := by
  rw [pad, List.length_append, length_suffix]
  omega

/-- The chaining state after a text, padded. -/
def chain (text : Bytes) : Md5State :=
  (blocks 64 (pad text)).foldl compress magic

def digest (text : Bytes) : Md5Digest := Md5Context.stateDigest (chain text)

example : (digest [97, 98, 99]).bytes = [0x90, 0x01, 0x50, 0x98, 0x3c, 0xd2, 0x4f, 0xb0,
    0xd6, 0x96, 0x3f, 0x7d, 0x28, 0xe1, 0x7f, 0x72] := by
  decide +kernel

/-! ## Words in the order of the encoder -/

theorem encodeWord_eq (word : UInt32) :
    encodeWord word = (toBytes 4 word.toNat).reverse := by
  have hmask : ∀ value : UInt32, (value &&& 0xff).toUInt8 = UInt8.ofNat value.toNat := by
    intro value
    apply UInt8.toNat_inj.mp
    rw [UInt32.toNat_toUInt8, UInt32.toNat_and, UInt8.toNat_ofNat']
    have hand := Nat.and_two_pow_sub_one_eq_mod value.toNat 8
    change (value.toNat &&& (2 ^ 8 - 1)) % 2 ^ 8 = _
    rw [hand]
    omega
  have h8 : (word >>> 8).toNat = word.toNat / 256 := by
    rw [UInt32.toNat_shiftRight]
    exact Nat.shiftRight_eq_div_pow _ 8
  have h16 : (word >>> 16).toNat = word.toNat / 256 / 256 := by
    rw [UInt32.toNat_shiftRight, Nat.div_div_eq_div_mul]
    exact Nat.shiftRight_eq_div_pow _ 16
  have h24 : (word >>> 24).toNat = word.toNat / 256 / 256 / 256 := by
    rw [UInt32.toNat_shiftRight, Nat.div_div_eq_div_mul, Nat.div_div_eq_div_mul]
    exact Nat.shiftRight_eq_div_pow _ 24
  rw [encodeWord, hmask, hmask, hmask, hmask, h8, h16, h24]
  rfl

theorem toBytes_add (high low value : ℕ) :
    toBytes (high + low) value = toBytes high (value / 256 ^ low) ++ toBytes low value := by
  induction low generalizing value with
  | zero => rw [Nat.add_zero, Nat.pow_zero, Nat.div_one, toBytes, List.append_nil]
  | succ low ih =>
      rw [← Nat.add_assoc, toBytes, ih, toBytes, Nat.div_div_eq_div_mul, List.append_assoc,
        Nat.pow_succ, Nat.mul_comm]

theorem toBytes_mod (width value : ℕ) :
    toBytes width (value % 256 ^ width) = toBytes width value := by
  have hofBytes := ofBytes_toBytes width value
  have hround := toBytes_ofBytes (toBytes width value)
  rwa [length_toBytes, hofBytes] at hround

end Md5

namespace Md5Context

open Md5

/-- The encoded count is the number of bits, lowest byte first. -/
theorem bytes_bitsInput (context : Md5Context) :
    (bitsInput context.count).bytes = (toBytes 8 context.bits).reverse := by
  have hlow := context.count.1.toNat_lt
  have hdiv : context.bits / 256 ^ 4 = context.count.2.toNat := by
    rw [bits]
    omega
  have hmod : context.bits % 256 ^ 4 = context.count.1.toNat := by
    rw [bits]
    omega
  have hsplit : toBytes 8 context.bits =
      toBytes 4 context.count.2.toNat ++ toBytes 4 context.count.1.toNat := by
    rw [toBytes_add 4 4, hdiv, ← toBytes_mod 4 context.bits, hmod]
  rw [hsplit, List.reverse_append, ← encodeWord_eq, ← encodeWord_eq]
  exact congrArg (encodeWord _ ++ ·) (List.append_nil _)

theorem length_nil_lt : ([] : Bytes).length < 64 := Nat.succ_pos 63

/-- The context has taken in exactly this text. -/
structure Absorbs (text : Bytes) (context : Md5Context) : Prop where
  absorber : context.absorber =
    (⟨magic, [], length_nil_lt⟩ : Absorber Md5State UInt8 64).push compress text
  bits : context.bits = 8 * text.length % 2 ^ 64
  finalized : context.finalized = false

variable {text : Bytes} {context : Md5Context} {input : Md5Input}

theorem absorbs_init (buffer : Bytes) (hbuffer : buffer.length = 64)
    (storage : Md5Digest) : (init buffer hbuffer storage).Absorbs [] := by
  have hzero : (init buffer hbuffer storage).bufferIndex.toNat = 0 := by
    simp [toNat_bufferIndex, bits, init]
  refine ⟨?_, rfl, rfl⟩
  rw [Absorber.push_nil]
  apply Absorber.ext
  · rfl
  · change buffer.take _ = []
    rw [hzero, List.take_zero]

theorem Absorbs.bufferIndex (habsorbs : context.Absorbs text) :
    context.bufferIndex.toNat = text.length % 64 := by
  rw [toNat_bufferIndex, habsorbs.bits]
  omega

theorem Absorbs.updated {context' : Md5Context} (habsorbs : context.Absorbs text)
    {word : Bytes} (hupdated : Updated word context context') :
    context'.Absorbs (text ++ word) where
  absorber := by rw [hupdated.absorber, habsorbs.absorber, Absorber.push_append]
  bits := by
    rw [hupdated.bits, habsorbs.bits, List.length_append]
    omega
  finalized := hupdated.finalized

theorem update_of_small (hopen : context.finalized = false)
    (hshort : input.bytes.length ≤ 2 ^ 32 - 64) :
    ∃ context', context.update input = .ok context' ∧
      Updated input.bytes context context' := by
  apply update_updated hopen
  rw [lastIndex]
  omega

/-! ## Finalization -/

theorem toNat_padLen (habsorbs : context.Absorbs text) :
    (if context.bufferIndex < 56 then 56 - context.bufferIndex
      else 120 - context.bufferIndex).toNat = (119 - text.length % 64) % 64 + 1 := by
  have hindex := habsorbs.bufferIndex
  have h56 : (56 : UInt32).toNat = 56 := rfl
  have h120 : (120 : UInt32).toNat = 120 := rfl
  split_ifs with hlt
  · rw [UInt32.lt_iff_toNat_lt, h56] at hlt
    rw [UInt32.toNat_sub_of_le _ _ (by rw [UInt32.le_iff_toNat_le, h56]; omega), h56]
    omega
  · rw [UInt32.lt_iff_toNat_lt, h56] at hlt
    rw [UInt32.toNat_sub_of_le _ _ (by rw [UInt32.le_iff_toNat_le, h120]; omega), h120]
    omega

theorem take_padding {zeros : ℕ} (hle : zeros ≤ 63) :
    padding.take (zeros + 1) = 0x80 :: List.replicate zeros 0 := by
  rw [padding, List.take_succ_cons, List.take_replicate, Nat.min_eq_left hle]

/-- The context after the digest has been made.  All of the last block but its first
byte is left in the buffer. -/
structure Finalized (text : Bytes) (context context' : Md5Context) : Prop where
  digest : context'.digest = Md5.digest text
  finalized : context'.finalized = true
  cerr : context'.cerr = context.cerr
  buffer : context'.buffer = 0 :: (pad text).drop ((pad text).length - 63)

/-- What waits behind a text is the end of it. -/
theorem Absorbs.waiting (habsorbs : context.Absorbs text) :
    context.waiting = text.drop (text.length / 64 * 64) :=
  congrArg Absorber.waiting habsorbs.absorber

theorem Absorbs.state (habsorbs : context.Absorbs text) :
    context.state = (blocks 64 text).foldl compress magic :=
  congrArg Absorber.state habsorbs.absorber

/-- The last block of a text that ends with the eight bytes of a number. -/
theorem drop_append_last {last : Bytes} (htext : text.length % 64 = 56)
    (hlast : last.length = 8) :
    text.drop (text.length / 64 * 64) ++ last =
      (text ++ last).drop ((text ++ last).length - 64) := by
  rw [List.length_append, hlast, List.drop_append_of_le_length (by omega)]
  congr 2
  omega

theorem memset_one {buffer : Bytes} (hpos : 0 < buffer.length) :
    memset buffer 0 1 = 0 :: buffer.drop 1 := by
  cases buffer with
  | nil => contradiction
  | cons byte buffer => rfl

/-- The first update of the two: eight bytes are missing to a block. -/
theorem update_padding (habsorbs : context.Absorbs text) :
    ∃ padded : Md5Context, context.update (paddingInput (if context.bufferIndex < 56 then
        56 - context.bufferIndex else 120 - context.bufferIndex)) = .ok padded ∧
      padded.Absorbs
        (text ++ 0x80 :: List.replicate ((119 - text.length % 64) % 64) 0) ∧
      padded.cerr = context.cerr := by
  have hzeros : (119 - text.length % 64) % 64 ≤ 63 := by omega
  have hpadLen := toNat_padLen habsorbs
  generalize hpadding : paddingInput (if context.bufferIndex < 56 then
    56 - context.bufferIndex else 120 - context.bufferIndex) = paddingBytes
  have hbytes : paddingBytes.bytes =
      0x80 :: List.replicate ((119 - text.length % 64) % 64) 0 := by
    rw [← hpadding]
    change padding.take (UInt32.toNat _) = _
    rw [hpadLen, take_padding hzeros]
  obtain ⟨padded, hok, hupdated⟩ := @update_of_small context paddingBytes habsorbs.finalized
    (by rw [hbytes, List.length_cons, List.length_replicate]; omega)
  refine ⟨padded, hok, ?_, hupdated.cerr⟩
  rw [← hbytes]
  exact habsorbs.updated hupdated

/-- The second one: it fills the block, and leaves it in the buffer. -/
theorem update_last {input : Md5Input} (habsorbs : context.Absorbs text)
    (htext : text.length % 64 = 56) (hinput : input.bytes.length = 8) :
    ∃ final : Md5Context, context.update input = .ok final ∧
      final.Absorbs (text ++ input.bytes) ∧ final.cerr = context.cerr ∧
      final.buffer = (text ++ input.bytes).drop ((text ++ input.bytes).length - 64) := by
  have hindex : context.bufferIndex.toNat = 56 := habsorbs.bufferIndex.trans htext
  have hlast : context.lastIndex input = 8 := by
    rw [lastIndex, hindex, hinput]
  obtain ⟨final, hok, hupdated, hbuffer⟩ := @update_of_long input context
    habsorbs.finalized (by rw [hindex, hinput]) (by rw [hlast]; omega)
  refine ⟨final, hok, habsorbs.updated hupdated, hupdated.cerr, ?_⟩
  rw [hbuffer, hlast, List.drop_of_length_le hinput.le, List.nil_append, List.length_nil,
    List.drop_zero, hindex, List.take_of_length_le hinput.le, habsorbs.waiting]
  exact drop_append_last htext hinput

/-- The padding and the number of bits make the padded text. -/
theorem Absorbs.append_bitsInput (habsorbs : context.Absorbs text) :
    text ++ 0x80 :: List.replicate ((119 - text.length % 64) % 64) 0 ++
      (bitsInput context.count).bytes = pad text := by
  have hbits : toBytes 8 context.bits = toBytes 8 (8 * text.length) := by
    rw [habsorbs.bits]
    exact toBytes_mod 8 (8 * text.length)
  rw [bytes_bitsInput, hbits, pad, suffix, List.append_assoc, List.cons_append]

theorem finalize_of_absorbs (habsorbs : context.Absorbs text) :
    ∃ context', context.finalize = .ok context' ∧ Finalized text context context' := by
  obtain ⟨padded, hok, hpadded, hcerr⟩ := update_padding habsorbs
  obtain ⟨final, hok', hfinal, hcerr', hbuffer⟩ :=
    @update_last _ padded (bitsInput context.count) hpadded
      (by rw [List.length_append, List.length_cons, List.length_replicate]; omega)
      (by rw [bytes_bitsInput, List.length_reverse, length_toBytes])
  rw [habsorbs.append_bitsInput] at hfinal hbuffer
  generalize hdone : ({ final with
    digest := stateDigest final.state
    buffer := memset final.buffer 0 1
    length_buffer := by rw [length_memset, final.length_buffer]
    finalized := true } : Md5Context) = done
  refine ⟨done, ?_, ?_⟩
  · rw [finalize, if_neg (by simp [habsorbs.finalized])]
    dsimp only
    rw [hok]
    change (padded.update (bitsInput context.count)).bind _ = _
    rw [hok', ← hdone]
    rfl
  · subst hdone
    constructor
    · exact congrArg stateDigest hfinal.state
    · rfl
    · exact hcerr'.trans hcerr
    · change memset final.buffer 0 1 = _
      have hlong := final.length_buffer
      rw [hbuffer, List.length_drop] at hlong
      rw [memset_one (by rw [final.length_buffer]; omega), hbuffer, List.drop_drop]
      congr 2
      omega

end Md5Context

/-! ## Any sequence of calls -/

inductive Md5Operation where
  | update (input : Md5Input)
  | finalize
  deriving DecidableEq, Repr

namespace Md5Operation

/-- What the class says to a call after the digest has been made. -/
def complaint : Md5Operation → String
  | update _ => "MD5::update:  Can't update a finalized digest!"
  | finalize => "MD5::finalize:  Already finalized this digest!"

/-- The text that is given before the digest is made. -/
def textOf : List Md5Operation → Bytes
  | update input :: operations => input.bytes ++ textOf operations
  | finalize :: _ => []
  | [] => []

/-- What is complained about. -/
def complaintsOf : List Md5Operation → List String
  | update _ :: operations => complaintsOf operations
  | finalize :: operations => operations.map complaint
  | [] => []

end Md5Operation

namespace Md5Context

open Md5 Md5Operation

def perform (context : Md5Context) : Md5Operation → Except Md5Fault Md5Context
  | .update input => context.update input
  | .finalize => context.finalize

def performAll (operations : List Md5Operation) (context : Md5Context) :
    Except Md5Fault Md5Context :=
  operations.foldlM perform context

variable {text : Bytes} {context : Md5Context} {operations : List Md5Operation}

theorem performAll_cons_of_ok {operation : Md5Operation} {context' : Md5Context}
    (hok : context.perform operation = .ok context') :
    performAll (operation :: operations) context = performAll operations context' := by
  rw [performAll, List.foldlM_cons, hok]
  rfl

/-- Nothing happens to a digest that has been made. -/
theorem performAll_of_finalized (hfinalized : context.finalized = true) :
    performAll operations context = .ok { context with
      cerr := context.cerr ++ operations.map complaint } := by
  induction operations generalizing context with
  | nil => rw [List.map_nil, List.append_nil]; rfl
  | cons operation operations ih =>
      have hok : context.perform operation = .ok { context with
          cerr := context.cerr ++ [operation.complaint] } := by
        cases operation with
        | update input => exact if_pos hfinalized
        | finalize => exact if_pos hfinalized
      have hrest := @ih { context with
        cerr := context.cerr ++ [operation.complaint] } hfinalized
      rw [performAll_cons_of_ok hok, hrest, List.append_assoc]
      rfl

/-- A context that has taken a text in, after more calls. -/
theorem Absorbs.performAll (habsorbs : context.Absorbs text)
    (hshort : ∀ input, .update input ∈ operations →
      input.bytes.length ≤ 2 ^ 32 - 64) :
    ∃ final, performAll operations context = .ok final ∧
      final.cerr = context.cerr ++ complaintsOf operations ∧
      (.finalize ∉ operations → final.Absorbs (text ++ textOf operations)) ∧
      (.finalize ∈ operations → final.finalized = true ∧
        final.digest = Md5.digest (text ++ textOf operations) ∧
        final.buffer = 0 :: (pad (text ++ textOf operations)).drop
          ((pad (text ++ textOf operations)).length - 63)) := by
  induction operations generalizing context text with
  | nil =>
      refine ⟨context, rfl, (List.append_nil _).symm, ?_, ?_⟩
      · intro _
        rwa [textOf, List.append_nil]
      · intro hmem
        contradiction
  | cons operation operations ih =>
      cases operation with
      | update input =>
          obtain ⟨context', hok, hupdated⟩ := update_of_small habsorbs.finalized
            (hshort input List.mem_cons_self)
          obtain ⟨final, hall, hcerr, hopen, hclosed⟩ :=
            ih (habsorbs.updated hupdated) fun other hmem =>
              hshort other (List.mem_cons_of_mem _ hmem)
          rw [List.append_assoc] at hopen hclosed
          refine ⟨final, ?_, ?_, ?_, ?_⟩
          · rw [@performAll_cons_of_ok _ _ (.update input) _ hok]
            exact hall
          · rw [hcerr, hupdated.cerr, complaintsOf]
          · intro hnot
            exact hopen fun hmem => hnot (List.mem_cons_of_mem _ hmem)
          · intro hmem
            rcases List.mem_cons.mp hmem with heq | hmem
            · contradiction
            · exact hclosed hmem
      | finalize =>
          obtain ⟨context', hok, hmade⟩ := finalize_of_absorbs habsorbs
          have hall := @performAll_of_finalized context' operations hmade.finalized
          rw [← @performAll_cons_of_ok context operations .finalize context' hok] at hall
          refine ⟨_, hall, ?_, ?_, ?_⟩
          · rw [hmade.cerr, complaintsOf]
          · intro hnot
            exact absurd List.mem_cons_self hnot
          · intro _
            rw [textOf, List.append_nil]
            exact ⟨hmade.finalized, hmade.digest, hmade.buffer⟩

/-- Whatever is called in whatever order, no call fails, the digest is that of the
text given before the first `finalize`, and calls after it change nothing. -/
theorem calls_answered (buffer : Bytes) (hbuffer : buffer.length = 64)
    (storage : Md5Digest) (operations : List Md5Operation)
    (hshort : ∀ input, .update input ∈ operations →
      input.bytes.length ≤ 2 ^ 32 - 64) :
    ∃ final, performAll operations (init buffer hbuffer storage) = .ok final ∧
      final.rawDigest = (if .finalize ∈ operations then
          .ok (Md5.digest (textOf operations))
        else .error (.notFinalized
          "MD5::raw_digest:  Can't get digest if you haven't finalized the digest!")) ∧
      final.hexDigest = (if .finalize ∈ operations then
          .ok (Md5.digest (textOf operations)).hexDigest
        else .error (.notFinalized
          "MD5::hex_digest:  Can't get digest if you haven't finalized the digest!")) ∧
      final.cerr = complaintsOf operations := by
  obtain ⟨final, hall, hcerr, hopen, hclosed⟩ :=
    (absorbs_init buffer hbuffer storage).performAll hshort
  refine ⟨final, hall, ?_, ?_, hcerr⟩
  · by_cases hmem : .finalize ∈ operations
    · obtain ⟨hfinalized, hdigest, _⟩ := hclosed hmem
      rw [rawDigest, if_pos hfinalized, if_pos hmem, hdigest]
      rfl
    · have hnot := (hopen hmem).finalized
      rw [rawDigest, if_neg (by simp [hnot]), if_neg hmem]
  · by_cases hmem : .finalize ∈ operations
    · obtain ⟨hfinalized, hdigest, _⟩ := hclosed hmem
      rw [hexDigest, if_pos hfinalized, if_pos hmem, hdigest]
      rfl
    · have hnot := (hopen hmem).finalized
      rw [hexDigest, if_neg (by simp [hnot]), if_neg hmem]

/-- Two pieces of a text, and calls that come too late. -/
def sampleOperations : List Md5Operation :=
  [.update ⟨[97], by decide⟩, .update ⟨[98, 99], by decide⟩, .finalize,
    .update ⟨[100], by decide⟩, .finalize]

theorem sampleOperations_short : ∀ input, .update input ∈ sampleOperations →
    input.bytes.length ≤ 2 ^ 32 - 64 := by
  intro input hmem
  simp only [sampleOperations, List.mem_cons, List.not_mem_nil, or_false,
    Md5Operation.update.injEq, reduceCtorEq, false_or] at hmem
  rcases hmem with rfl | rfl | rfl
  · decide
  · decide
  · decide

theorem sampleOperations_answered :
    ∃ final, performAll sampleOperations
        (init (List.replicate 64 7) (List.length_replicate) (Md5.digest [])) = .ok final ∧
      final.rawDigest = .ok (Md5.digest [97, 98, 99]) := by
  obtain ⟨final, hall, hraw, _, _⟩ := calls_answered (List.replicate 64 7)
    List.length_replicate (Md5.digest []) sampleOperations sampleOperations_short
  exact ⟨final, hall, hraw⟩

/-- The buffer is zeroized in its first byte only: the rest of the last block, with
the end of the text in it, is left. -/
theorem finalize_leaves_text (buffer : Bytes) (hbuffer : buffer.length = 64)
    (storage : Md5Digest) (operations : List Md5Operation)
    (hshort : ∀ input, .update input ∈ operations →
      input.bytes.length ≤ 2 ^ 32 - 64)
    (hfinalize : .finalize ∈ operations) :
    ∃ final, performAll operations (init buffer hbuffer storage) = .ok final ∧
      final.buffer = 0 :: (pad (textOf operations)).drop
        ((pad (textOf operations)).length - 63) := by
  obtain ⟨final, hall, _, _, hclosed⟩ :=
    (absorbs_init buffer hbuffer storage).performAll hshort
  exact ⟨final, hall, (hclosed hfinalize).2.2⟩

/-- Of the three bytes of the text the last two are left. -/
theorem sampleOperations_leave_text :
    ∃ final, performAll sampleOperations
        (init (List.replicate 64 7) (List.length_replicate) (Md5.digest [])) = .ok final ∧
      final.buffer.take 4 = [0, 98, 99, 0x80] := by
  obtain ⟨final, hall, hbuffer⟩ := finalize_leaves_text (List.replicate 64 7)
    List.length_replicate (Md5.digest []) sampleOperations sampleOperations_short (by decide)
  exact ⟨final, hall, by rw [hbuffer]; decide +kernel⟩

end Md5Context

end Multisync
