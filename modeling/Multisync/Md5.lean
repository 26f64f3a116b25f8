import Multisync.Metadata
import Mathlib.Tactic

/-!
# The message digest

The digest class keeps a chaining state of four words, the number of bits taken
in and a buffer for a block that is not complete.  Its arithmetic is that of
32-bit words, the lengths of its inputs included.  Memory that is not the
class's own is not read: an access past the end of an input is a fault.

What the class complains about on `cerr` is kept in `cerr`, oldest first.
-/

namespace Multisync

open ByteLayout

/-- `uint4 state[4]`, and the four variables `transform` works on. -/
@[ext] structure Md5State where
  a : UInt32
  b : UInt32
  c : UInt32
  d : UInt32
  deriving DecidableEq, Repr

namespace Md5

/-! ## The four functions -/

def f (x y z : UInt32) : UInt32 := (x &&& y) ||| (~~~x &&& z)

def g (x y z : UInt32) : UInt32 := (x &&& z) ||| (y &&& ~~~z)

def h (x y z : UInt32) : UInt32 := x ^^^ y ^^^ z

def i (x y z : UInt32) : UInt32 := y ^^^ (x ||| ~~~z)

def rotateLeft (x n : UInt32) : UInt32 := (x <<< n) ||| (x >>> (32 - n))

/-- What `FF`, `GG`, `HH` and `II` assign to `a`. -/
def transformation (function : UInt32 → UInt32 → UInt32 → UInt32)
    (a b c d x s ac : UInt32) : UInt32 :=
  rotateLeft (a + (function b c d + x + ac)) s + b

def ff := transformation f

def gg := transformation g

def hh := transformation h

def ii := transformation i

/-! ## Words and bytes -/

/-- One turn of `encode`. -/
def encodeWord (word : UInt32) : Bytes :=
  [(word &&& 0xff).toUInt8, ((word >>> 8) &&& 0xff).toUInt8,
    ((word >>> 16) &&& 0xff).toUInt8, ((word >>> 24) &&& 0xff).toUInt8]

def encode (input : List UInt32) : Bytes :=
  input.flatMap encodeWord

/-- One turn of `decode`. -/
def decodeWord (b₀ b₁ b₂ b₃ : UInt8) : UInt32 :=
  b₀.toUInt32 ||| (b₁.toUInt32 <<< 8) ||| (b₂.toUInt32 <<< 16) |||
    (b₃.toUInt32 <<< 24)

def decode : Bytes → List UInt32
  | b₀ :: b₁ :: b₂ :: b₃ :: input => decodeWord b₀ b₁ b₂ b₃ :: decode input
  | _ => []

/-- `memcpy` into `output + start`. -/
def memcpy (output : Bytes) (start : ℕ) (input : Bytes) (len : ℕ) : Bytes :=
  (List.range len).foldl (fun output i => output.set (start + i) (input.getD i 0))
    output

def memset (output : Bytes) (value : UInt8) (len : ℕ) : Bytes :=
  (List.range len).foldl (fun output i => output.set i value) output

/-! ## The transformation of a block -/

def s11 : UInt32 := 7
def s12 : UInt32 := 12
def s13 : UInt32 := 17
def s14 : UInt32 := 22
def s21 : UInt32 := 5
def s22 : UInt32 := 9
def s23 : UInt32 := 14
def s24 : UInt32 := 20
def s31 : UInt32 := 4
def s32 : UInt32 := 11
def s33 : UInt32 := 16
def s34 : UInt32 := 23
def s41 : UInt32 := 6
def s42 : UInt32 := 10
def s43 : UInt32 := 15
def s44 : UInt32 := 21

def round1 (x : ℕ → UInt32) (registers : Md5State) : Md5State :=
  let ⟨a, b, c, d⟩ := registers
  let a := ff a b c d (x 0) s11 0xd76aa478
  let d := ff d a b c (x 1) s12 0xe8c7b756
  let c := ff c d a b (x 2) s13 0x242070db
  let b := ff b c d a (x 3) s14 0xc1bdceee
  let a := ff a b c d (x 4) s11 0xf57c0faf
  let d := ff d a b c (x 5) s12 0x4787c62a
  let c := ff c d a b (x 6) s13 0xa8304613
  let b := ff b c d a (x 7) s14 0xfd469501
  let a := ff a b c d (x 8) s11 0x698098d8
  let d := ff d a b c (x 9) s12 0x8b44f7af
  let c := ff c d a b (x 10) s13 0xffff5bb1
  let b := ff b c d a (x 11) s14 0x895cd7be
  let a := ff a b c d (x 12) s11 0x6b901122
  let d := ff d a b c (x 13) s12 0xfd987193
  let c := ff c d a b (x 14) s13 0xa679438e
  let b := ff b c d a (x 15) s14 0x49b40821
  ⟨a, b, c, d⟩

def round2 (x : ℕ → UInt32) (registers : Md5State) : Md5State :=
  let ⟨a, b, c, d⟩ := registers
  let a := gg a b c d (x 1) s21 0xf61e2562
  let d := gg d a b c (x 6) s22 0xc040b340
  let c := gg c d a b (x 11) s23 0x265e5a51
  let b := gg b c d a (x 0) s24 0xe9b6c7aa
  let a := gg a b c d (x 5) s21 0xd62f105d
  let d := gg d a b c (x 10) s22 0x2441453
  let c := gg c d a b (x 15) s23 0xd8a1e681
  let b := gg b c d a (x 4) s24 0xe7d3fbc8
  let a := gg a b c d (x 9) s21 0x21e1cde6
  let d := gg d a b c (x 14) s22 0xc33707d6
  let c := gg c d a b (x 3) s23 0xf4d50d87
  let b := gg b c d a (x 8) s24 0x455a14ed
  let a := gg a b c d (x 13) s21 0xa9e3e905
  let d := gg d a b c (x 2) s22 0xfcefa3f8
  let c := gg c d a b (x 7) s23 0x676f02d9
  let b := gg b c d a (x 12) s24 0x8d2a4c8a
  ⟨a, b, c, d⟩

def round3 (x : ℕ → UInt32) (registers : Md5State) : Md5State :=
  let ⟨a, b, c, d⟩ := registers
  let a := hh a b c d (x 5) s31 0xfffa3942
  let d := hh d a b c (x 8) s32 0x8771f681
  let c := hh c d a b (x 11) s33 0x6d9d6122
  let b := hh b c d a (x 14) s34 0xfde5380c
  let a := hh a b c d (x 1) s31 0xa4beea44
  let d := hh d a b c (x 4) s32 0x4bdecfa9
  let c := hh c d a b (x 7) s33 0xf6bb4b60
  let b := hh b c d a (x 10) s34 0xbebfbc70
  let a := hh a b c d (x 13) s31 0x289b7ec6
  let d := hh d a b c (x 0) s32 0xeaa127fa
  let c := hh c d a b (x 3) s33 0xd4ef3085
  let b := hh b c d a (x 6) s34 0x4881d05
  let a := hh a b c d (x 9) s31 0xd9d4d039
  let d := hh d a b c (x 12) s32 0xe6db99e5
  let c := hh c d a b (x 15) s33 0x1fa27cf8
  let b := hh b c d a (x 2) s34 0xc4ac5665
  ⟨a, b, c, d⟩

def round4 (x : ℕ → UInt32) (registers : Md5State) : Md5State :=
  let ⟨a, b, c, d⟩ := registers
  let a := ii a b c d (x 0) s41 0xf4292244
  let d := ii d a b c (x 7) s42 0x432aff97
  let c := ii c d a b (x 14) s43 0xab9423a7
  let b := ii b c d a (x 5) s44 0xfc93a039
  let a := ii a b c d (x 12) s41 0x655b59c3
  let d := ii d a b c (x 3) s42 0x8f0ccc92
  let c := ii c d a b (x 10) s43 0xffeff47d
  let b := ii b c d a (x 1) s44 0x85845dd1
  let a := ii a b c d (x 8) s41 0x6fa87e4f
  let d := ii d a b c (x 15) s42 0xfe2ce6e0
  let c := ii c d a b (x 6) s43 0xa3014314
  let b := ii b c d a (x 13) s44 0x4e0811a1
  let a := ii a b c d (x 4) s41 0xf7537e82
  let d := ii d a b c (x 11) s42 0xbd3af235
  let c := ii c d a b (x 2) s43 0x2ad7d2bb
  let b := ii b c d a (x 9) s44 0xeb86d391
  ⟨a, b, c, d⟩

/-- The four rounds of `transform` and the additions at its end. -/
def compress (state : Md5State) (block : Bytes) : Md5State :=
  let x := fun k => (decode block).getD k 0
  let ⟨a, b, c, d⟩ := round4 x (round3 x (round2 x (round1 x state)))
  ⟨state.a + a, state.b + b, state.c + c, state.d + d⟩

/-- The magic initialization constants. -/
def magic : Md5State := ⟨0x67452301, 0xefcdab89, 0x98badcfe, 0x10325476⟩

/-- `PADDING`. -/
def padding : Bytes := 0x80 :: List.replicate 63 0

theorem length_padding : padding.length = 64 := by
  rw [padding, List.length_cons, List.length_replicate]

@[simp] theorem length_encodeWord (word : UInt32) : (encodeWord word).length = 4 := rfl

@[simp] theorem length_encode (input : List UInt32) :
    (encode input).length = 4 * input.length := by
  induction input with
  | nil => rfl
  | cons word input ih =>
      rw [encode, List.flatMap_cons, List.length_append, length_encodeWord,
        List.length_cons]
      rw [encode] at ih
      omega

theorem length_foldl_set {indices : List ℕ} {position : ℕ → ℕ} {value : ℕ → UInt8}
    (output : Bytes) :
    (indices.foldl (fun output i => output.set (position i) (value i)) output).length =
      output.length := by
  induction indices generalizing output with
  | nil => rfl
  | cons index indices ih => rw [List.foldl_cons, ih, List.length_set]

@[simp] theorem length_memcpy (output : Bytes) (start : ℕ) (input : Bytes) (len : ℕ) :
    (memcpy output start input len).length = output.length :=
  length_foldl_set output

@[simp] theorem length_memset (output : Bytes) (value : UInt8) (len : ℕ) :
    (memset output value len).length = output.length :=
  length_foldl_set output

end Md5

/-! ## The class -/

inductive Md5Fault where
  | outOfBounds
  | assertion
  | notFinalized (text : String)
  deriving DecidableEq, Repr

/-- An input and its length, which is a `uint4`. -/
structure Md5Input where
  bytes : Bytes
  length_lt : bytes.length < 2 ^ 32
  deriving DecidableEq, Repr

def Md5Input.length (input : Md5Input) : UInt32 :=
  UInt32.ofNat input.bytes.length

structure Md5Context where
  state : Md5State
  count : UInt32 × UInt32
  buffer : Bytes
  length_buffer : buffer.length = 64
  digest : Md5Digest
  finalized : Bool
  cerr : List String

namespace Md5Context

open Md5

/-- `init`, in storage that is not initialized. -/
def init (buffer : Bytes) (length_buffer : buffer.length = 64) (digest : Md5Digest) :
    Md5Context where
  state := magic
  count := (0, 0)
  buffer := buffer
  length_buffer := length_buffer
  digest := digest
  finalized := false
  cerr := []

/-- `transform`, which asserts that the digest is not finalized. -/
def transform (block : Bytes) (context : Md5Context) : Except Md5Fault Md5Context :=
  if context.finalized then .error .assertion
  else .ok { context with state := compress context.state block }

/-- The copies `update` makes into its buffer. -/
def copyIn (start : UInt32) (input : Bytes) (len : UInt32) (context : Md5Context) :
    Except Md5Fault Md5Context :=
  if start.toNat + len.toNat ≤ 64 ∧ len.toNat ≤ input.length then
    .ok { context with
      buffer := memcpy context.buffer start.toNat input len.toNat
      length_buffer := by rw [length_memcpy, context.length_buffer] }
  else .error .outOfBounds

/-- The loop over the complete blocks of the input. -/
def transformBlocks (input : Md5Input) (inputIndex : UInt32) (context : Md5Context) :
    Except Md5Fault (UInt32 × Md5Context) :=
  if inputIndex + 63 < input.length then
    if _hin : inputIndex.toNat + 64 ≤ input.bytes.length then do
      let context ← context.transform ((input.bytes.drop inputIndex.toNat).take 64)
      transformBlocks input (inputIndex + 64) context
    else .error .outOfBounds
  else .ok (inputIndex, context)
termination_by input.bytes.length - inputIndex.toNat
decreasing_by
  have hlt := input.length_lt
  rw [UInt32.toNat_add]
  have h64 : (64 : UInt32).toNat = 64 := rfl
  omega

/-- The number of bytes in the buffer. -/
def bufferIndex (context : Md5Context) : UInt32 :=
  (context.count.1 >>> 3) &&& 0x3f

/-- The number of bits after an input. -/
def addBits (length : UInt32) (count : UInt32 × UInt32) : UInt32 × UInt32 :=
  let low := count.1 + (length <<< 3)
  let high := if low < length <<< 3 then count.2 + 1 else count.2
  (low, high + (length >>> 29))

def update (input : Md5Input) (context : Md5Context) : Except Md5Fault Md5Context :=
  if context.finalized then
    .ok { context with
      cerr := context.cerr ++ ["MD5::update:  Can't update a finalized digest!"] }
  else do
    let bufferIndex := context.bufferIndex
    let context := { context with count := addBits input.length context.count }
    let bufferSpace := 64 - bufferIndex
    if bufferSpace ≤ input.length then
      let context ← context.copyIn bufferIndex input.bytes bufferSpace
      let context ← context.transform context.buffer
      let (inputIndex, context) ← context.transformBlocks input bufferSpace
      context.copyIn 0 (input.bytes.drop inputIndex.toNat) (input.length - inputIndex)
    else
      context.copyIn bufferIndex input.bytes input.length

/-- The first bytes of `PADDING`, and the length `finalize` gives with it. -/
def paddingInput (padLen : UInt32) : Md5Input where
  bytes := padding.take padLen.toNat
  length_lt := by
    have hlength := List.length_take_le' padLen.toNat padding
    rw [length_padding] at hlength
    omega

/-- The encoded number of bits. -/
def bitsInput (count : UInt32 × UInt32) : Md5Input where
  bytes := encode [count.1, count.2]
  length_lt := by
    rw [length_encode, List.length_cons, List.length_singleton]
    omega

/-- The encoded state. -/
def stateDigest (state : Md5State) : Md5Digest where
  bytes := encode [state.a, state.b, state.c, state.d]
  length_bytes := length_encode _

def finalize (context : Md5Context) : Except Md5Fault Md5Context :=
  if context.finalized then
    .ok { context with
      cerr := context.cerr ++ ["MD5::finalize:  Already finalized this digest!"] }
  else do
    let bits := bitsInput context.count
    let index := context.bufferIndex
    let padLen := if index < 56 then 56 - index else 120 - index
    let context ← context.update (paddingInput padLen)
    let context ← context.update bits
    -- `sizeof(*buffer)` is the size of one byte
    return { context with
      digest := stateDigest context.state
      buffer := memset context.buffer 0 1
      length_buffer := by rw [length_memset, context.length_buffer]
      finalized := true }

/-- The input a read of the stream gives. -/
def readInput (stream : InStream) (error : Bool) : Md5Input where
  bytes := (stream.read 1024 error).1
  length_lt := by
    have hle := stream.length_read_le 1024 error
    omega

/-- `update(ifstream&)`.  `errors` says which of the reads fail. -/
def updateStream (errors : ℕ → Bool) (stream : InStream) (context : Md5Context) :
    Except Md5Fault Md5Context :=
  if hgood : stream.good = true then do
    let context ← context.update (readInput stream (errors 0))
    updateStream (fun k => errors (k + 1)) (stream.read 1024 (errors 0)).2 context
  else .ok context
termination_by stream.unread
decreasing_by exact InStream.unread_read_lt hgood (by omega) (errors 0)

/-- The constructor that digests a stream. -/
def ofStream (buffer : Bytes) (length_buffer : buffer.length = 64) (digest : Md5Digest)
    (errors : ℕ → Bool) (stream : InStream) : Except Md5Fault Md5Context := do
  let context ← updateStream errors stream (init buffer length_buffer digest)
  context.finalize

def rawDigest (context : Md5Context) : Except Md5Fault Md5Digest :=
  if context.finalized then .ok context.digest
  else .error (.notFinalized
    "MD5::raw_digest:  Can't get digest if you haven't finalized the digest!")

def hexDigest (context : Md5Context) : Except Md5Fault Bytes :=
  if context.finalized then .ok context.digest.hexDigest
  else .error (.notFinalized
    "MD5::hex_digest:  Can't get digest if you haven't finalized the digest!")

end Md5Context

end Multisync
