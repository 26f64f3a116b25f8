import Multisync.Md5Digests
import Mathlib.Tactic

/-!
# Digests of files

The constructor of `FileInfo` with the digest class at work: the file is read in
pieces of 1024 bytes, and the digits of the digest of what was read are copied.
Files with the same digits make the computations of their digests meet.
-/

namespace Multisync

open ByteLayout Absorption

namespace Md5Context

open Md5

variable {errors : ℕ → Bool} {stream : InStream} {context : Md5Context} {text : Bytes}

theorem updateStream_of_good (hgood : stream.good = true) :
    updateStream errors stream context =
      (context.update (readInput stream (errors 0))).bind fun context =>
        updateStream (fun k => errors (k + 1)) (stream.read 1024 (errors 0)).2 context := by
  rw [updateStream, dif_pos hgood]
  rfl

theorem updateStream_of_not_good (hgood : ¬ stream.good = true) :
    updateStream errors stream context = .ok context := by
  rw [updateStream, dif_neg hgood]

theorem update_readInput (hopen : context.finalized = false) (error : Bool) :
    ∃ context', context.update (readInput stream error) = .ok context' ∧
      Updated (stream.read 1024 error).1 context context' := by
  apply update_of_small hopen
  have hle := stream.length_read_le 1024 error
  change (stream.read 1024 error).1.length ≤ _
  omega

/-- What is read is taken in, up to the first read that fails or to the end. -/
theorem Absorbs.updateStream {limit : ℕ} (habsorbs : context.Absorbs text)
    (hgood : stream.good = true) (hquiet : ∀ k < limit, errors k = false)
    (hstop : errors limit = true ∨ stream.remaining < 1024 * limit) :
    ∃ context', updateStream errors stream context = .ok context' ∧
      context'.Absorbs (text ++
        ((stream.source.getD []).drop stream.position).take (1024 * limit)) := by
  induction limit generalizing errors stream context text with
  | zero =>
      have herror : errors 0 = true := by simpa using hstop
      obtain ⟨context', hok, hupdated⟩ := @update_readInput stream _ habsorbs.finalized
        (errors 0)
      have hread : stream.read 1024 (errors 0) = ([], { stream with bad := true }) := by
        rw [herror, InStream.read, if_pos hgood, if_pos rfl]
      rw [hread] at hupdated
      refine ⟨context', ?_, ?_⟩
      · rw [updateStream_of_good hgood, hok, hread]
        exact updateStream_of_not_good (by simp [InStream.good])
      · rw [Nat.mul_zero, List.take_zero]
        exact habsorbs.updated hupdated
  | succ limit ih =>
      have herror : errors 0 = false := hquiet 0 (Nat.succ_pos limit)
      obtain ⟨context', hok, hupdated⟩ := @update_readInput stream _ habsorbs.finalized
        (errors 0)
      have hread := InStream.read_good hgood 1024
      rw [herror, hread] at hupdated
      have habsorbs' := habsorbs.updated hupdated
      rw [updateStream_of_good hgood, hok, herror]
      change ∃ final, updateStream _ _ context' = .ok final ∧ _
      by_cases hshort : stream.remaining < 1024
      · have hrest := List.take_of_length_le hshort.le
        refine ⟨context', ?_, ?_⟩
        · exact updateStream_of_not_good (by simp [InStream.read_of_lt hgood hshort])
        · rw [List.take_of_length_le (by exact hshort.le.trans (by omega))]
          rwa [hrest] at habsorbs'
      · have hnext := InStream.read_of_le hgood (Nat.le_of_not_lt hshort)
        rw [hnext]
        have hremaining : { stream with position := stream.position + 1024 }.remaining =
            stream.remaining - 1024 := by
          simp only [InStream.remaining, List.length_drop]
          omega
        obtain ⟨final, hall, hfinal⟩ := @ih (fun k => errors (k + 1))
          { stream with position := stream.position + 1024 } context' _ habsorbs' hgood
          (fun k hk => hquiet (k + 1) (Nat.succ_lt_succ hk))
          (hstop.imp_right fun hlt => by rw [hremaining]; omega)
        refine ⟨final, hall, ?_⟩
        rw [List.append_assoc, ← List.drop_drop, ← List.take_add] at hfinal
        rwa [Nat.mul_succ, Nat.add_comm]

/-- The constructor digests what it reads. -/
theorem ofStream_digest (buffer : Bytes) (hbuffer : buffer.length = 64)
    (storage : Md5Digest) {limit : ℕ} (hgood : stream.good = true)
    (hquiet : ∀ k < limit, errors k = false)
    (hstop : errors limit = true ∨ stream.remaining < 1024 * limit) :
    ∃ context, ofStream buffer hbuffer storage errors stream = .ok context ∧
      context.finalized = true ∧ context.digest = Md5.digest
        (((stream.source.getD []).drop stream.position).take (1024 * limit)) := by
  obtain ⟨mid, hupdate, hmid⟩ :=
    (absorbs_init buffer hbuffer storage).updateStream hgood hquiet hstop
  obtain ⟨context, hok, hmade⟩ := finalize_of_absorbs hmid
  refine ⟨context, ?_, hmade.finalized, hmade.digest⟩
  rw [ofStream, hupdate]
  exact hok

theorem ofStream_of_not_good (buffer : Bytes) (hbuffer : buffer.length = 64)
    (storage : Md5Digest) (hgood : ¬ stream.good = true) :
    ∃ context, ofStream buffer hbuffer storage errors stream = .ok context ∧
      context.finalized = true ∧ context.digest = Md5.digest [] := by
  obtain ⟨context, hok, hmade⟩ :=
    finalize_of_absorbs (absorbs_init buffer hbuffer storage)
  refine ⟨context, ?_, hmade.finalized, hmade.digest⟩
  rw [ofStream, updateStream_of_not_good hgood]
  exact hok

end Md5Context

/-! ## The constructor of `FileInfo` -/

namespace FileInfo

theorem length_digest_window (digest : Bytes) : (window digest 0 33).length = 33 :=
  length_window digest 0 33

/-- The constructor from a path: the size is taken at the end of the file, then the
digest is made from its start. -/
def ofPath (order : ByteOrder) (buffer : Bytes) (hbuffer : buffer.length = 64)
    (storage : Md5Digest) (source : Option FileSource) : Except Md5Fault FileInfo := do
  let input := atEnd source
  let count := countBlocks input
  let context ← Md5Context.ofStream buffer hbuffer storage
    ((source.map FileSource.errors).getD fun _ => false) (input.seekg 0)
  let digest ← context.hexDigest
  return {
    digest := window digest 0 33
    digest_length := length_digest_window digest
    numBlocks := order.htonl count }

/-- The class at work gives the digest of what the reads get. -/
theorem ofStream_digested (buffer : Bytes) (hbuffer : buffer.length = 64)
    (storage : Md5Digest) (source : Option FileSource) :
    ∃ context, Md5Context.ofStream buffer hbuffer storage
        ((source.map FileSource.errors).getD fun _ => false) ((atEnd source).seekg 0) =
          .ok context ∧
      context.finalized = true ∧ context.digest = Md5.digest (digested source) := by
  by_cases hgood : ((atEnd source).seekg 0).good = true
  · obtain ⟨file, rfl, offset, hoffset⟩ : ∃ file, source = some file ∧
        ∃ offset, file.endOffset = some offset := by
      cases source with
      | none => contradiction
      | some file =>
          obtain ⟨bytes, endOffset, errors⟩ := file
          cases endOffset with
          | none => contradiction
          | some offset => exact ⟨_, rfl, offset, rfl⟩
    have hstream : (atEnd (some file)).seekg 0 =
        { InStream.openFile (some file.bytes) with position := 0 } := by
      simp only [atEnd, Option.map_some, Option.bind_some, hoffset]
      rfl
    have hdigested : digested (some file) = file.text 1024 := if_pos hgood
    rw [hdigested, hstream]
    exact Md5Context.ofStream_digest buffer hbuffer storage rfl
      (fun k hk => FileSource.not_errors_of_lt hk)
      (FileSource.readsServed_stop (by decide))
  · rw [digested, if_neg hgood]
    exact Md5Context.ofStream_of_not_good buffer hbuffer storage hgood

/-- The constructor with the class at work is the one with the digest of a text. -/
theorem ofPath_eq (order : ByteOrder) (buffer : Bytes) (hbuffer : buffer.length = 64)
    (storage : Md5Digest) (source : Option FileSource) :
    ofPath order buffer hbuffer storage source = .ok (ofFile order Md5.digest source) := by
  obtain ⟨context, hok, hfinalized, hdigest⟩ :=
    ofStream_digested buffer hbuffer storage source
  have hhex : context.hexDigest = .ok (Md5.digest (digested source)).hexDigest := by
    rw [Md5Context.hexDigest, if_pos hfinalized, hdigest]
  have hwindow : window (Md5.digest (digested source)).hexDigest 0 33 =
      (Md5.digest (digested source)).hexDigest := by
    have hlength := (Md5.digest (digested source)).length_hexDigest
    rw [window_eq_of_le (by omega), List.drop_zero, List.take_of_length_le hlength.le]
  simp only [ofPath]
  rw [hok]
  change context.hexDigest.bind _ = _
  rw [hhex]
  change Except.ok (FileInfo.mk (window _ 0 33) _ _) = _
  simp only [hwindow]
  rfl

/-- The constructor returns, whatever file is found and wherever seeking or reading it
fails.  The count is that of the offset which the file reports, as a 32-bit integer, and one
when there is none; the digest is that of the reads up to the first one that fails, and
that of an empty file when there is no offset. -/
theorem ofPath_reads (order : ByteOrder) (buffer : Bytes) (hbuffer : buffer.length = 64)
    (storage : Md5Digest) (source : Option FileSource) :
    ∃ info, ofPath order buffer hbuffer storage source = .ok info ∧
      (info.getBlockCount order).toNat =
        ((source.bind FileSource.endOffset).elim 1 fun offset =>
          (offset + blockSize - 1) / blockSize % 2 ^ 32) ∧
      info.digest = (Md5.digest
        (((source.filter fun file => file.endOffset.isSome).map fun file =>
          file.bytes.take (1024 * file.readsServed 1024)).getD [])).hexDigest := by
  refine ⟨_, ofPath_eq order buffer hbuffer storage source,
    toNat_getBlockCount_ofFile order Md5.digest source, ?_⟩
  change (Md5.digest (digested source)).hexDigest = _
  rw [digested_eq]
  rfl

/-- A directory, which can be opened: its end is the greatest offset, and no read of it is
served. -/
def directory : FileSource := ⟨[], some (2 ^ 63 - 1), fun _ => true⟩

/-- A directory has the info of an empty file. -/
theorem directory_ofPath : ∃ info, ofPath .little (List.replicate 64 0)
    List.length_replicate (Md5.digest [7]) (some directory) = .ok info ∧
      (info.getBlockCount .little).toNat = 0 ∧
      info.digest = (Md5.digest []).hexDigest :=
  ofPath_reads .little (List.replicate 64 0) List.length_replicate (Md5.digest [7])
    (some directory)

end FileInfo

/-! ## Files with one digest -/

theorem hexChar_inj {first second : ℕ} (hfirst : first < 16) (hsecond : second < 16)
    (heq : hexChar first = hexChar second) : first = second := by
  have hall : ∀ a b : Fin 16, hexChar a = hexChar b → a = b := by decide
  exact congrArg Fin.val (hall ⟨first, hfirst⟩ ⟨second, hsecond⟩ heq)

theorem Md5Digest.bytes_of_hexDigest {first second : Md5Digest}
    (heq : first.hexDigest = second.hexDigest) : first.bytes = second.bytes := by
  have hdigits := (List.append_inj' heq rfl).1
  have hlength : first.bytes.length = second.bytes.length :=
    first.length_bytes.trans second.length_bytes.symm
  generalize first.bytes = a at hdigits hlength
  generalize second.bytes = b at hdigits hlength
  induction a generalizing b with
  | nil => exact (List.eq_nil_of_length_eq_zero hlength.symm).symm
  | cons byte a ih =>
      cases b with
      | nil => contradiction
      | cons byte' b =>
          simp only [List.flatMap_cons, List.cons_append, List.nil_append,
            List.cons.injEq] at hdigits
          have hlt := byte.toNat_lt
          have hlt' := byte'.toNat_lt
          have hhigh := hexChar_inj (by omega) (by omega) hdigits.1
          have hlow := hexChar_inj (by omega) (by omega) hdigits.2.1
          have hbyte : byte = byte' := UInt8.toNat_inj.mp (by omega)
          rw [hbyte, ih b hdigits.2.2 (by simpa using hlength)]

namespace Md5

theorem encodeWord_inj {first second : UInt32}
    (heq : encodeWord first = encodeWord second) : first = second := by
  rw [encodeWord_eq, encodeWord_eq, List.reverse_inj] at heq
  rw [← ByteOrder.ofNat_ofBytes_toBytes32 first, heq, ByteOrder.ofNat_ofBytes_toBytes32]

theorem encode_inj {first second : List UInt32} (hlength : first.length = second.length)
    (heq : encode first = encode second) : first = second := by
  induction first generalizing second with
  | nil => exact (List.eq_nil_of_length_eq_zero hlength.symm).symm
  | cons word first ih =>
      cases second with
      | nil => contradiction
      | cons word' second =>
          obtain ⟨hword, hrest⟩ := List.append_inj heq rfl
          rw [encodeWord_inj hword, ih (by simpa using hlength) hrest]

theorem chain_of_digest {first second : Bytes}
    (heq : (digest first).bytes = (digest second).bytes) : chain first = chain second := by
  have hwords := @encode_inj [(chain first).a, (chain first).b, (chain first).c,
    (chain first).d] [(chain second).a, (chain second).b, (chain second).c,
    (chain second).d] rfl heq
  simp only [List.cons.injEq, and_true] at hwords
  obtain ⟨ha, hb, hc, hd⟩ := hwords
  exact Md5State.ext ha hb hc hd

/-- A padded text tells its text, below 2^61 bytes, whatever stands before it. -/
theorem eq_of_pad_suffix {first second : Bytes} (hfirst : first.length < 2 ^ 61)
    (hsecond : second.length < 2 ^ 61) (hsuffix : pad first <:+ pad second) :
    first = second := by
  obtain ⟨before, hbefore⟩ := hsuffix
  have hlength : first.length = second.length := by
    have hbits : toBytes 8 (8 * first.length) = toBytes 8 (8 * second.length) := by
      simp only [pad, suffix, ← List.append_assoc, ← List.cons_append] at hbefore
      have hlast := (List.append_inj' hbefore (by simp)).2
      exact List.reverse_inj.mp hlast
    have hvalue := congrArg ofBytes hbits
    rw [ofBytes_toBytes, ofBytes_toBytes] at hvalue
    omega
  have hnil : before = [] := by
    have hlengths := congrArg List.length hbefore
    rw [List.length_append, pad, pad, List.length_append, List.length_append, hlength]
      at hlengths
    exact List.eq_nil_of_length_eq_zero (by omega)
  rw [hnil, List.nil_append] at hbefore
  exact (List.append_inj hbefore hlength).1

end Md5

/-- Two different files, both below 2^61 bytes, that are announced with one digest: at
some block of each the states and blocks differ, and `transform` makes them the same
state. -/
theorem FileInfo.digests_meet (order order' : ByteOrder) (buffer : Bytes)
    (hbuffer : buffer.length = 64) (storage : Md5Digest) {first second : Bytes}
    (hfirst : first.length < 2 ^ 61) (hsecond : second.length < 2 ^ 61)
    (hne : first ≠ second) {info info' : FileInfo}
    (hinfo : ofPath order buffer hbuffer storage (some (.regular first)) = .ok info)
    (hinfo' : ofPath order' buffer hbuffer storage (some (.regular second)) = .ok info')
    (hsame : info.digest = info'.digest) :
    Meet Md5.compress Md5.magic (blocks 64 (Md5.pad first)) (blocks 64 (Md5.pad second)) := by
  rw [ofPath_eq] at hinfo hinfo'
  cases hinfo
  cases hinfo'
  have hchain : Md5.chain first = Md5.chain second := by
    apply Md5.chain_of_digest
    rw [← digested_regular first, ← digested_regular second]
    exact Md5Digest.bytes_of_hexDigest hsame
  apply meet_of_foldl_eq hchain
  · intro hsuffix
    exact hne (Md5.eq_of_pad_suffix hfirst hsecond (suffix_of_suffix_blocks (by omega)
      (Md5.dvd_length_pad first) (Md5.dvd_length_pad second) hsuffix))
  · intro hsuffix
    exact hne (Md5.eq_of_pad_suffix hsecond hfirst (suffix_of_suffix_blocks (by omega)
      (Md5.dvd_length_pad second) (Md5.dvd_length_pad first) hsuffix)).symm

/-- Two files of two blocks with one digest. -/
def firstTwin : Bytes :=
  [0xd1, 0x31, 0xdd, 0x02, 0xc5, 0xe6, 0xee, 0xc4, 0x69, 0x3d, 0x9a, 0x06, 0x98, 0xaf,
    0xf9, 0x5c, 0x2f, 0xca, 0xb5, 0x87, 0x12, 0x46, 0x7e, 0xab, 0x40, 0x04, 0x58, 0x3e,
    0xb8, 0xfb, 0x7f, 0x89, 0x55, 0xad, 0x34, 0x06, 0x09, 0xf4, 0xb3, 0x02, 0x83, 0xe4,
    0x88, 0x83, 0x25, 0x71, 0x41, 0x5a, 0x08, 0x51, 0x25, 0xe8, 0xf7, 0xcd, 0xc9, 0x9f,
    0xd9, 0x1d, 0xbd, 0xf2, 0x80, 0x37, 0x3c, 0x5b, 0xd8, 0x82, 0x3e, 0x31, 0x56, 0x34,
    0x8f, 0x5b, 0xae, 0x6d, 0xac, 0xd4, 0x36, 0xc9, 0x19, 0xc6, 0xdd, 0x53, 0xe2, 0xb4,
    0x87, 0xda, 0x03, 0xfd, 0x02, 0x39, 0x63, 0x06, 0xd2, 0x48, 0xcd, 0xa0, 0xe9, 0x9f,
    0x33, 0x42, 0x0f, 0x57, 0x7e, 0xe8, 0xce, 0x54, 0xb6, 0x70, 0x80, 0xa8, 0x0d, 0x1e,
    0xc6, 0x98, 0x21, 0xbc, 0xb6, 0xa8, 0x83, 0x93, 0x96, 0xf9, 0x65, 0x2b, 0x6f, 0xf7,
    0x2a, 0x70]

def secondTwin : Bytes :=
  [0xd1, 0x31, 0xdd, 0x02, 0xc5, 0xe6, 0xee, 0xc4, 0x69, 0x3d, 0x9a, 0x06, 0x98, 0xaf,
    0xf9, 0x5c, 0x2f, 0xca, 0xb5, 0x07, 0x12, 0x46, 0x7e, 0xab, 0x40, 0x04, 0x58, 0x3e,
    0xb8, 0xfb, 0x7f, 0x89, 0x55, 0xad, 0x34, 0x06, 0x09, 0xf4, 0xb3, 0x02, 0x83, 0xe4,
    0x88, 0x83, 0x25, 0xf1, 0x41, 0x5a, 0x08, 0x51, 0x25, 0xe8, 0xf7, 0xcd, 0xc9, 0x9f,
    0xd9, 0x1d, 0xbd, 0x72, 0x80, 0x37, 0x3c, 0x5b, 0xd8, 0x82, 0x3e, 0x31, 0x56, 0x34,
    0x8f, 0x5b, 0xae, 0x6d, 0xac, 0xd4, 0x36, 0xc9, 0x19, 0xc6, 0xdd, 0x53, 0xe2, 0x34,
    0x87, 0xda, 0x03, 0xfd, 0x02, 0x39, 0x63, 0x06, 0xd2, 0x48, 0xcd, 0xa0, 0xe9, 0x9f,
    0x33, 0x42, 0x0f, 0x57, 0x7e, 0xe8, 0xce, 0x54, 0xb6, 0x70, 0x80, 0x28, 0x0d, 0x1e,
    0xc6, 0x98, 0x21, 0xbc, 0xb6, 0xa8, 0x83, 0x93, 0x96, 0xf9, 0x65, 0xab, 0x6f, 0xf7,
    0x2a, 0x70]

/-- The announced infos of the two are the same altogether. -/
theorem twins_meet :
    FileInfo.ofFile .little Md5.digest (some (.regular firstTwin)) =
        FileInfo.ofFile .little Md5.digest (some (.regular secondTwin)) ∧
      Meet Md5.compress Md5.magic (blocks 64 (Md5.pad firstTwin))
        (blocks 64 (Md5.pad secondTwin)) := by
  have hsame : FileInfo.ofFile .little Md5.digest (some (.regular firstTwin)) =
      FileInfo.ofFile .little Md5.digest (some (.regular secondTwin)) := by
    decide +kernel
  refine ⟨hsame, ?_⟩
  exact FileInfo.digests_meet .little .little Md5.padding Md5.length_padding
    (Md5.digest []) (by decide +kernel) (by decide +kernel) (by decide +kernel)
    (FileInfo.ofPath_eq _ _ _ _ _) (FileInfo.ofPath_eq _ _ _ _ _)
    (congrArg FileInfo.digest hsame)

end Multisync
