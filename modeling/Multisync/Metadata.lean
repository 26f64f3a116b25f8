import Multisync.FileStreams
import Mathlib.Data.List.TakeWhile
import Mathlib.Order.Defs.Unbundled
import Mathlib.Tactic

/-!
# The metadata carried by messages

`HostInfo`, `FileInfo` and `BlockInfo` are copied into messages as raw structs:
their words are kept in network order, and the memory image of a value is what
travels.  The records below keep the words as the host's memory holds them, so
that the hand-written comparisons can be read off the source.
-/

namespace Multisync

open ByteLayout

abbrev Bytes := List UInt8

/-- The C string that starts at the first byte: all bytes before the first NUL. -/
def cstr (bytes : Bytes) : Bytes :=
  bytes.takeWhile (· != 0)

theorem cstr_of_notMem {bytes : Bytes} (hnul : 0 ∉ bytes) : cstr bytes = bytes := by
  rw [cstr, List.takeWhile_eq_self_iff]
  intro byte hbyte
  have hne : byte ≠ 0 := fun heq => hnul (heq ▸ hbyte)
  simpa using hne

theorem notMem_cstr (bytes : Bytes) : 0 ∉ cstr bytes := by
  intro hmem
  simpa using List.mem_takeWhile_imp hmem

/-- `memcmp`: the sign of the first difference. -/
def memcmp : Bytes → Bytes → Int
  | a :: as, b :: bs =>
      if a.toNat < b.toNat then -1
      else if b.toNat < a.toNat then 1
      else memcmp as bs
  | _, _ => 0

theorem memcmp_self (bytes : Bytes) : memcmp bytes bytes = 0 := by
  induction bytes with
  | nil => rfl
  | cons byte bytes ih => simp [memcmp, ih]

theorem memcmp_eq_zero {as bs : Bytes} (hlength : as.length = bs.length)
    (hzero : memcmp as bs = 0) : as = bs := by
  induction as generalizing bs with
  | nil =>
      cases bs with
      | nil => rfl
      | cons b bs => simp at hlength
  | cons a as ih =>
      cases bs with
      | nil => simp at hlength
      | cons b bs =>
          rw [memcmp] at hzero
          split_ifs at hzero with hab hba
          · simp at hzero
          · have hhead : a = b := UInt8.toNat_inj.mp (by omega)
            rw [hhead, ih (by simpa using hlength) hzero]

theorem memcmp_neg_iff (as bs : Bytes) : memcmp as bs < 0 ↔ 0 < memcmp bs as := by
  induction as generalizing bs with
  | nil => cases bs <;> simp [memcmp]
  | cons a as ih =>
      cases bs with
      | nil => simp [memcmp]
      | cons b bs =>
          rw [memcmp, memcmp]
          split_ifs with hab hba hba
          · omega
          · simp
          · simp
          · exact ih bs

theorem memcmp_trans {as bs cs : Bytes} (hab : as.length = bs.length)
    (hbc : bs.length = cs.length) (h₁ : memcmp as bs < 0)
    (h₂ : memcmp bs cs < 0) : memcmp as cs < 0 := by
  induction as generalizing bs cs with
  | nil => simp [memcmp] at h₁
  | cons a as ih =>
      cases bs with
      | nil => simp at hab
      | cons b bs =>
          cases cs with
          | nil => simp at hbc
          | cons c cs =>
              have hrest := @ih bs cs (by simpa using hab) (by simpa using hbc)
              simp only [memcmp] at h₁ h₂ ⊢
              split_ifs at h₁ h₂ ⊢ <;> omega

/-! ## Host information -/

/-- A host id, in network order. -/
structure HostInfo where
  id : UInt32
  deriving DecidableEq, Repr

namespace HostInfo

def ofId (order : ByteOrder) (id : UInt32) : HostInfo := ⟨order.htonl id⟩

def getId (order : ByteOrder) (info : HostInfo) : UInt32 := order.ntohl info.id

/-- `operator<`: the stored words are compared. -/
def Lt (a b : HostInfo) : Prop := a.id < b.id

instance : DecidableRel Lt := fun a b => inferInstanceAs (Decidable (a.id < b.id))

theorem lt_iff (a b : HostInfo) : Lt a b ↔ a.id.toNat < b.id.toNat :=
  UInt32.lt_iff_toNat_lt

instance : IsStrictTotalOrder HostInfo Lt where
  irrefl a := by simp [lt_iff]
  trans a b c hab hbc := by
    rw [lt_iff] at hab hbc ⊢
    omega
  trichotomous a b hab hba := by
    rw [lt_iff] at hab hba
    have hid : a.id = b.id := UInt32.toNat_inj.mp (by omega)
    cases a
    cases b
    simpa using hid

end HostInfo

/-! ## File information -/

/-- The digest of a file, a C string of 32 hexadecimal digits when the file
was read here, and its number of blocks in network order. -/
structure FileInfo where
  digest : Bytes
  digest_length : digest.length = 33
  numBlocks : UInt32
  deriving DecidableEq, Repr

/-- `BLOCKSIZE`. -/
def blockSize : ℕ := 1024

/-- A raw MD5 digest. -/
structure Md5Digest where
  bytes : Bytes
  length_bytes : bytes.length = 16

/-- The character of a hexadecimal digit, as `"%x"` prints it. -/
def hexChar (digit : ℕ) : UInt8 :=
  UInt8.ofNat (if digit < 10 then 48 + digit else 87 + digit)

/-- `MD5::hex_digest`: two digits for each byte and the terminating NUL. -/
def Md5Digest.hexDigest (digest : Md5Digest) : Bytes :=
  digest.bytes.flatMap (fun byte =>
    [hexChar (byte.toNat / 16), hexChar (byte.toNat % 16)]) ++ [0]

theorem Md5Digest.length_hexDigest (digest : Md5Digest) :
    digest.hexDigest.length = 33 := by
  simp [hexDigest, digest.length_bytes]

namespace FileInfo

/-- The stream of the constructor once it has sought the end of the file, if the file
could be opened. -/
def atEnd (source : Option FileSource) : InStream :=
  (InStream.openFile (source.map FileSource.bytes)).seekEnd
    (source.bind FileSource.endOffset)

/-- The number of blocks up to the end, with the division and the remainder of C. -/
def countBlocks (input : InStream) : UInt32 :=
  let count := UInt32.ofInt (input.tellg.tdiv blockSize)
  if input.tellg.tmod blockSize ≠ 0 then count + 1 else count

/-- What the digest is made of: the reads of 1024 bytes from the start, as far as the
stream is good. -/
def digested (source : Option FileSource) : Bytes :=
  if ((atEnd source).seekg 0).good then
    ((source.map fun file => file.text 1024).getD [])
  else []

/-- The constructor from a path, which looks at no result of a stream operation. -/
def ofFile (order : ByteOrder) (md5 : Bytes → Md5Digest)
    (source : Option FileSource) : FileInfo where
  digest := (md5 (digested source)).hexDigest
  digest_length := (md5 (digested source)).length_hexDigest
  numBlocks := order.htonl (countBlocks (atEnd source))

def getBlockCount (order : ByteOrder) (info : FileInfo) : UInt32 :=
  order.ntohl info.numBlocks

/-- The count of a file is that of the blocks up to the offset that it reports, as a
32-bit integer, and one when its end cannot be sought. -/
theorem toNat_getBlockCount_ofFile (order : ByteOrder) (md5 : Bytes → Md5Digest)
    (source : Option FileSource) :
    ((ofFile order md5 source).getBlockCount order).toNat =
      ((source.bind FileSource.endOffset).elim 1 fun offset =>
        (offset + blockSize - 1) / blockSize % 2 ^ 32) := by
  have hcount : (ofFile order md5 source).getBlockCount order =
      countBlocks (atEnd source) := order.ntohl_htonl _
  rw [hcount]
  cases hend : source.bind FileSource.endOffset with
  | none =>
      have htell : (atEnd source).tellg = -1 := by
        rw [atEnd, hend]
        cases source with
        | none => rfl
        | some file => rfl
      rw [countBlocks, htell]
      decide
  | some offset =>
      have htell : (atEnd source).tellg = (offset : ℤ) := by
        rw [atEnd, hend]
        cases source with
        | none => contradiction
        | some file => rfl
      have hdiv : ((offset : ℤ).tdiv blockSize) = ((offset / blockSize : ℕ) : ℤ) := rfl
      have hmod : ((offset : ℤ).tmod blockSize) = ((offset % blockSize : ℕ) : ℤ) := rfl
      have hofInt : ∀ value : ℕ, (UInt32.ofInt (value : ℤ)).toNat = value % 2 ^ 32 := by
        intro value
        rw [UInt32.ofInt, UInt32.toNat_ofNat']
        omega
      simp only [countBlocks, htell, hdiv, hmod, Option.elim_some]
      rw [blockSize]
      split_ifs with hrest
      · rw [UInt32.toNat_add, hofInt, UInt32.toNat_one]
        omega
      · rw [hofInt]
        omega

/-- A file that could be opened and whose end could be sought is digested as far as it
can be read, and any other as an empty one. -/
theorem digested_eq (source : Option FileSource) :
    digested source =
      ((source.filter fun file => file.endOffset.isSome).map fun file =>
        file.text 1024).getD [] := by
  cases source with
  | none => rfl
  | some file =>
      obtain ⟨bytes, endOffset, errors⟩ := file
      cases endOffset with
      | none => rfl
      | some offset => rfl

theorem digested_of_readThrough {file : FileSource} (hfile : file.ReadThrough 1024) :
    digested (some file) = file.bytes := by
  rw [digested_eq, Option.filter_some, if_pos hfile.sought, Option.map_some,
    Option.getD_some, hfile.text_eq (by decide)]

theorem digested_regular (bytes : Bytes) : digested (some (.regular bytes)) = bytes :=
  digested_of_readThrough (FileSource.readThrough_regular bytes 1024)

/-- `operator==`, which holds when `memcmp` finds a difference. -/
def equal (a b : FileInfo) : Bool :=
  memcmp a.digest b.digest != 0 && a.numBlocks == b.numBlocks

/-- `operator<`: the digests first, then the stored block counts. -/
def Lt (a b : FileInfo) : Prop :=
  let val := memcmp a.digest b.digest
  if val ≠ 0 then val < 0 else a.numBlocks < b.numBlocks

instance : DecidableRel Lt := fun a b => by
  unfold Lt
  infer_instance

theorem lt_iff (a b : FileInfo) :
    Lt a b ↔ memcmp a.digest b.digest < 0 ∨
      a.digest = b.digest ∧ a.numBlocks.toNat < b.numBlocks.toNat := by
  have hlength : a.digest.length = b.digest.length := by
    rw [a.digest_length, b.digest_length]
  simp only [Lt, UInt32.lt_iff_toNat_lt]
  split_ifs with hval
  · constructor
    · exact Or.inl
    · rintro (hneg | ⟨heq, _⟩)
      · exact hneg
      · exact absurd (heq ▸ memcmp_self a.digest) hval
  · have hzero : memcmp a.digest b.digest = 0 := by simpa using hval
    simp [memcmp_self, memcmp_eq_zero hlength hzero]

instance : IsStrictTotalOrder FileInfo Lt where
  irrefl a hlt := by
    rw [lt_iff, memcmp_self] at hlt
    simp at hlt
  trans a b c hab hbc := by
    rw [lt_iff] at hab hbc ⊢
    rcases hab with hab | ⟨hab, hcount⟩
    · left
      rcases hbc with hbc | ⟨hbc, _⟩
      · exact memcmp_trans (by rw [a.digest_length, b.digest_length])
          (by rw [b.digest_length, c.digest_length]) hab hbc
      · rwa [← hbc]
    · rw [hab]
      rcases hbc with hbc | ⟨hbc, hcount'⟩
      · exact Or.inl hbc
      · exact Or.inr ⟨hbc, by omega⟩
  trichotomous a b hab hba := by
    rw [lt_iff] at hab hba
    push Not at hab hba
    have hdigest : a.digest = b.digest := by
      apply memcmp_eq_zero (by rw [a.digest_length, b.digest_length])
      have hle := (memcmp_neg_iff b.digest a.digest).not.mp (not_lt.mpr hba.1)
      omega
    have hcount : a.numBlocks = b.numBlocks := by
      have h₁ := hab.2 hdigest
      have h₂ := hba.2 hdigest.symm
      exact UInt32.toNat_inj.mp (by omega)
    cases a
    cases b
    simp_all

end FileInfo

/-! ## Block information -/

/-- A block of a file, its number in network order. -/
structure BlockInfo where
  fileInfo : FileInfo
  blockNum : UInt32
  deriving DecidableEq, Repr

namespace BlockInfo

def ofBlock (order : ByteOrder) (info : FileInfo) (block : UInt32) : BlockInfo :=
  ⟨info, order.htonl block⟩

/-- `get_block`, and the conversion to `unsigned int`. -/
def getBlock (order : ByteOrder) (info : BlockInfo) : UInt32 :=
  order.ntohl info.blockNum

/-- `operator++`. -/
def succ (order : ByteOrder) (info : BlockInfo) : BlockInfo :=
  { info with blockNum := order.htonl (order.ntohl info.blockNum + 1) }

end BlockInfo

/-! ## Memory images -/

/-- Size and alignment of a type, as the compiler lays it out. -/
structure Layout where
  size : ℕ
  align : ℕ
  align_pos : 0 < align

/-- The least multiple of the alignment that is not below the offset. -/
def alignUp (offset align : ℕ) : ℕ := (offset + align - 1) / align * align

theorem le_alignUp (offset : ℕ) {align : ℕ} (hpos : 0 < align) :
    offset ≤ alignUp offset align := by
  unfold alignUp
  have hdiv := Nat.div_add_mod (offset + align - 1) align
  have hmod := Nat.mod_lt (offset + align - 1) hpos
  rw [Nat.mul_comm] at hdiv
  omega

/-- `sizeof(Header)`: three words, a half word and two bytes of padding. -/
def headerSize : ℕ := 16

namespace Layout

/-- The offset of the metadata in a `MetadataHeader`. -/
def metadataOffset (layout : Layout) : ℕ := alignUp headerSize layout.align

/-- `sizeof(MetadataHeader<M>)`. -/
def metadataHeaderSize (layout : Layout) : ℕ :=
  alignUp (layout.metadataOffset + layout.size) (max 4 layout.align)

theorem metadata_le (layout : Layout) :
    layout.metadataOffset + layout.size ≤ layout.metadataHeaderSize :=
  le_alignUp _ (by omega)

theorem headerSize_le_metadataOffset (layout : Layout) :
    headerSize ≤ layout.metadataOffset :=
  le_alignUp _ layout.align_pos

end Layout

/-- A type of metadata: its layout and its image in the memory of a host. -/
class Metadata (M : Type) where
  layout : Layout
  store : ByteOrder → M → Bytes
  load : ByteOrder → Bytes → M
  length_store : ∀ order metadata, (store order metadata).length = layout.size

instance : Metadata HostInfo where
  layout := ⟨4, 4, by omega⟩
  store order info := order.store32 info.id
  load order bytes := ⟨order.load32 bytes⟩
  length_store := by simp

/-- The digest is followed by three bytes of padding. -/
instance : Metadata FileInfo where
  layout := ⟨40, 4, by omega⟩
  store order info := info.digest ++ (List.replicate 3 0 ++ order.store32 info.numBlocks)
  load order bytes :=
    { digest := window bytes 0 33
      digest_length := length_window bytes 0 33
      numBlocks := order.load32 (window bytes 36 4) }
  length_store order info := by simp [info.digest_length]

instance : Metadata BlockInfo where
  layout := ⟨44, 4, by omega⟩
  store order info :=
    Metadata.store order info.fileInfo ++ order.store32 info.blockNum
  load order bytes :=
    { fileInfo := Metadata.load order (window bytes 0 40)
      blockNum := order.load32 (window bytes 40 4) }
  length_store order info := by
    rw [List.length_append, Metadata.length_store, ByteOrder.length_store32]
    rfl

/-- The id of a host survives the way between hosts of either byte order. -/
theorem HostInfo.getId_load (sender receiver : ByteOrder) (info : HostInfo) :
    (Metadata.load receiver (Metadata.store sender info) : HostInfo).getId receiver =
      info.getId sender :=
  receiver.ntohl_load32 (sender.length_store32 info.id)

theorem FileInfo.window_digest (order : ByteOrder) (info : FileInfo) :
    window (Metadata.store order info) 0 33 = info.digest := by
  have hwindow := window_append [] info.digest
    (List.replicate 3 0 ++ order.store32 info.numBlocks)
  rwa [info.digest_length] at hwindow

theorem FileInfo.window_numBlocks (order : ByteOrder) (info : FileInfo) :
    window (Metadata.store order info) 36 4 = order.store32 info.numBlocks := by
  have hwindow := window_append (info.digest ++ List.replicate 3 0)
    (order.store32 info.numBlocks) []
  rw [List.length_append, info.digest_length, List.length_replicate,
    ByteOrder.length_store32, List.append_nil, List.append_assoc] at hwindow
  exact hwindow

theorem FileInfo.digest_load (sender receiver : ByteOrder) (info : FileInfo) :
    (Metadata.load receiver (Metadata.store sender info) : FileInfo).digest =
      info.digest :=
  FileInfo.window_digest sender info

theorem FileInfo.getBlockCount_load (sender receiver : ByteOrder)
    (info : FileInfo) :
    (Metadata.load receiver (Metadata.store sender info) :
        FileInfo).getBlockCount receiver = info.getBlockCount sender := by
  change receiver.ntohl (receiver.load32 (window _ 36 4)) = _
  rw [FileInfo.window_numBlocks,
    receiver.ntohl_load32 (sender.length_store32 info.numBlocks)]
  rfl

theorem BlockInfo.window_fileInfo (order : ByteOrder) (info : BlockInfo) :
    window (Metadata.store order info) 0 40 =
      Metadata.store order info.fileInfo := by
  have hwindow := window_append [] (Metadata.store order info.fileInfo)
    (order.store32 info.blockNum)
  rwa [Metadata.length_store] at hwindow

theorem BlockInfo.window_blockNum (order : ByteOrder) (info : BlockInfo) :
    window (Metadata.store order info) 40 4 = order.store32 info.blockNum := by
  have hwindow := window_append (Metadata.store order info.fileInfo)
    (order.store32 info.blockNum) []
  rwa [Metadata.length_store, ByteOrder.length_store32, List.append_nil] at hwindow

theorem BlockInfo.fileInfo_load (sender receiver : ByteOrder)
    (info : BlockInfo) :
    (Metadata.load receiver (Metadata.store sender info) : BlockInfo).fileInfo =
      Metadata.load receiver (Metadata.store sender info.fileInfo) := by
  change Metadata.load receiver (window _ 0 40) = _
  rw [BlockInfo.window_fileInfo]

theorem BlockInfo.getBlock_load (sender receiver : ByteOrder)
    (info : BlockInfo) :
    (Metadata.load receiver (Metadata.store sender info) :
        BlockInfo).getBlock receiver = info.getBlock sender := by
  change receiver.ntohl (receiver.load32 (window _ 40 4)) = _
  rw [BlockInfo.window_blockNum,
    receiver.ntohl_load32 (sender.length_store32 info.blockNum)]
  rfl

/-- On one host a memory image gives its value back. -/
theorem FileInfo.load_store (order : ByteOrder) (info : FileInfo) :
    Metadata.load order (Metadata.store order info) = info := by
  have hdigest := FileInfo.window_digest order info
  have hcount := FileInfo.window_numBlocks order info
  change FileInfo.mk (window _ 0 33) _ (order.load32 (window _ 36 4)) = info
  simp only [hdigest, hcount, order.load32_store32]

theorem BlockInfo.load_store (order : ByteOrder) (info : BlockInfo) :
    Metadata.load order (Metadata.store order info) = info := by
  change BlockInfo.mk (Metadata.load order (window _ 0 40))
    (order.load32 (window _ 40 4)) = info
  rw [BlockInfo.window_fileInfo, BlockInfo.window_blockNum,
    FileInfo.load_store, order.load32_store32]

end Multisync
