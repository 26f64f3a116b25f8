import Multisync.Slicing
import Mathlib.Tactic

/-!
# Does a read depend on those before it?

All blocks are read from one stream.  A read that comes up short leaves the stream
failed, after which no seek moves it and every read is empty; nothing clears the flags.
Only the last block of a file can be short, and it is read at its own place only when
its number is below `2^22`.
-/

namespace Multisync

open ByteLayout Effects BlockAssembly

namespace BlockServer

/-- The message a block is read into after other blocks were read. -/
def readAfter (order : ByteOrder) (before : List BlockInfo) (b : BlockInfo)
    (server : BlockServer) : Option Message :=
  match (before ++ [b]).forM (enqueueBlock order false "") server with
  | .ok _ final => final.messageQueue.getLast?
  | .error _ _ => none

/-- The stream after blocks were read. -/
def streamAfter (order : ByteOrder) (blocks : List BlockInfo) (input : InStream) :
    InStream :=
  blocks.foldl (fun input i => (readBlock order false i input).2) input

end BlockServer

/-- The info has the number of a block of the source. -/
def BlockInfo.IsOf (order : ByteOrder) (source : Bytes) (i : BlockInfo) : Prop :=
  (i.getBlock order).toNat < blockCount blockSize source

/-- Whatever was read before, a block is read into a message with the same length and the
same payload. -/
def HistoryFree (order : ByteOrder) (source : Bytes) : Prop :=
  ∀ server : BlockServer, server.ServesFile order source →
    ∀ before before' : List BlockInfo, (∀ i ∈ before, i.IsOf order source) →
      (∀ i ∈ before', i.IsOf order source) → ∀ b : BlockInfo, b.IsOf order source →
        ∃ message message', server.readAfter order before b = some message ∧
          server.readAfter order before' b = some message' ∧
          message.getLength order = message'.getLength order ∧
          message.getText order = message'.getText order

/-- Every block is read in full from where the product puts it. -/
def FullReads (source : Bytes) : Prop :=
  ∀ number < blockCount blockSize source,
    (slice blockSize source (number % 2 ^ 22)).length = blockSize

theorem fullReads_iff {source : Bytes} :
    FullReads source ↔
      source.length % blockSize = 0 ∨ 2 ^ 22 < blockCount blockSize source := by
  have hsize : blockSize = 1024 := rfl
  constructor
  · intro hfull
    by_contra hnot
    push Not at hnot
    obtain ⟨hrest, hcount⟩ := hnot
    have hlt : blockCount blockSize source - 1 < blockCount blockSize source := by
      rw [blockCount, hsize] at *
      omega
    have hlength := hfull _ hlt
    rw [Nat.mod_eq_of_lt (by omega), length_slice, blockCount, hsize] at hlength
    rw [hsize] at hrest
    omega
  · intro hcases number hlt
    rcases hcases with hrest | hcount
    · rw [length_slice]
      rw [blockCount, hsize] at hlt
      rw [hsize] at hrest ⊢
      omega
    · apply length_slice_of_succ_lt
      omega

namespace BlockServer

variable {order : ByteOrder} {source : Bytes} {server : BlockServer} {input : InStream}
  {i b : BlockInfo} {before : List BlockInfo}

/-- Only the number counts for a read. -/
theorem readBlock_blockAt (i : BlockInfo) (input : InStream) :
    readBlock order false i input =
      readBlock order false (i.fileInfo.blockAt order (i.getBlock order).toNat) input := by
  have hnumber : (i.fileInfo.blockAt order (i.getBlock order).toNat).getBlock order =
      i.getBlock order :=
    UInt32.toNat_inj.mp (FileInfo.getBlock_blockAt _ _ (i.getBlock order).toNat_lt)
  rw [readBlock, readBlock, hnumber]

/-- As long as all reads are full the stream stays good. -/
theorem streamAfter_good (hfull : FullReads source) (hgood : input.good = true)
    (hsource : input.source = some source) (hbefore : ∀ i ∈ before, i.IsOf order source) :
    (streamAfter order before input).good = true ∧
      (streamAfter order before input).source = some source := by
  induction before generalizing input with
  | nil => exact ⟨hgood, hsource⟩
  | cons i before ih =>
      obtain ⟨_, hfound, hnext⟩ := @readBlock_of_good order i.fileInfo input source
        (i.getBlock order).toNat hgood hsource
      rw [← readBlock_blockAt] at hfound hnext
      have hlength := hfull _ (hbefore i List.mem_cons_self)
      exact ih (hnext hlength) hfound fun j hj => hbefore j (List.mem_cons_of_mem i hj)

/-- A short read fails the stream. -/
theorem readBlock_short (hgood : input.good = true) (hsource : input.source = some source)
    (hlt : (i.getBlock order).toNat < 2 ^ 22)
    (hshort : (slice blockSize source (i.getBlock order).toNat).length < blockSize) :
    (readBlock order false i input).2.fail = true := by
  have hflags : input.eof = false ∧ input.fail = false ∧ input.bad = false := by
    simpa [InStream.good, and_assoc] using hgood
  obtain ⟨heof, hfail, hbad⟩ := hflags
  have hposition : (UInt32.ofNat blockSize * i.getBlock order).toNat =
      blockSize * (i.getBlock order).toNat := by
    have hwrap := toNat_blockSize_mul (i.getBlock order).toNat
    rwa [UInt32.ofNat_toNat, Nat.mod_eq_of_lt hlt] at hwrap
  rw [readBlock, hposition]
  simp only [InStream.seekg, hfail, hbad, Bool.or_false, Bool.false_eq_true, if_false,
    InStream.read, InStream.good, hsource, Option.getD_some]
  exact decide_eq_true hshort

/-- Nothing is read from a failed stream. -/
theorem readBlock_failed (hfail : input.fail = true) :
    (readBlock order false i input).1 = [] := by
  have hseek : input.seekg (UInt32.ofNat blockSize * i.getBlock order).toNat = input := by
    simp [InStream.seekg, hfail]
  have hgood : input.good = false := by simp [InStream.good, hfail]
  rw [readBlock, hseek, InStream.read, hgood]
  rfl

/-- Reads from a stream that is not bad return, each with a message in the queue. -/
theorem forM_enqueueBlock (hbad : server.input.bad = false) (blocks : List BlockInfo) :
    ∃ queue, blocks.forM (enqueueBlock order false "") server =
      .ok ⟨⟩ { server with
        messageQueue := queue
        input := streamAfter order blocks server.input } := by
  induction blocks generalizing server with
  | nil => exact ⟨server.messageQueue, rfl⟩
  | cons i blocks ih =>
      have hstep := @enqueueBlock_apply order false "" i server
      simp only [readBlock_not_bad i hbad, Bool.false_eq_true, if_false] at hstep
      rw [forM_cons, bind_of_ok hstep]
      exact @ih { server with
        messageQueue := server.messageQueue ++
          [blockMessage order server.id i (readBlock order false i server.input).1]
        input := (readBlock order false i server.input).2 } (readBlock_not_bad i hbad)

theorem streamAfter_not_bad (hbad : input.bad = false) (blocks : List BlockInfo) :
    (streamAfter order blocks input).bad = false := by
  induction blocks generalizing input with
  | nil => exact hbad
  | cons i blocks ih => exact ih (readBlock_not_bad i hbad)

theorem readAfter_eq (hbad : server.input.bad = false) (before : List BlockInfo)
    (b : BlockInfo) :
    server.readAfter order before b = some (blockMessage order server.id b
      (readBlock order false b (streamAfter order before server.input)).1) := by
  obtain ⟨queue, hbefore⟩ := @forM_enqueueBlock order server hbad before
  have hstep := @enqueueBlock_apply order false "" b { server with
    messageQueue := queue
    input := streamAfter order before server.input }
  simp only [readBlock_not_bad b (streamAfter_not_bad hbad before), Bool.false_eq_true,
    if_false] at hstep
  rw [readAfter, forM_append_of_ok hbefore, forM_cons, bind_of_ok hstep]
  exact List.getLast?_concat

/-- The message has the bytes read as its payload. -/
theorem readAfter_carries (hbad : server.input.bad = false) (before : List BlockInfo)
    {data : Bytes}
    (hdata : (readBlock order false b (streamAfter order before server.input)).1 = data) :
    ∃ message, server.readAfter order before b = some message ∧
      (message.getLength order).toNat = data.length ∧ message.getText order = .ok data := by
  have hle := length_readBlock_le order false b (streamAfter order before server.input)
  have hread := @readAfter_eq order server hbad before b
  rw [hdata] at hle hread
  have hform := @blockMessage_wireForm order server.id b _ hle
  have hlt : data.length < 2 ^ 32 := lt_of_le_of_lt hle (by decide)
  exact ⟨_, hread, hform.getLength hlt order, hform.getText order⟩

/-- Where all reads are full, a read finds what the file has for the wrapped number. -/
theorem readAfter_of_full (hserver : server.ServesFile order source)
    (hfull : FullReads source) (hbefore : ∀ i ∈ before, i.IsOf order source)
    (b : BlockInfo) :
    ∃ message, server.readAfter order before b = some message ∧
      (message.getLength order).toNat =
        (slice blockSize source ((b.getBlock order).toNat % 2 ^ 22)).length ∧
      message.getText order =
        .ok (slice blockSize source ((b.getBlock order).toNat % 2 ^ 22)) := by
  obtain ⟨hslicing, hgood⟩ := hserver.slicing
  obtain ⟨hgood, hsource⟩ := streamAfter_good hfull hgood hslicing.source hbefore
  obtain ⟨hpayload, _⟩ := @readBlock_of_good order b.fileInfo _ source
    (b.getBlock order).toNat hgood hsource
  rw [← readBlock_blockAt] at hpayload
  exact readAfter_carries hslicing.bad before hpayload

/-- A short block that is read twice is found once. -/
theorem readAfter_of_short (hserver : server.ServesFile order source)
    (hlt : (b.getBlock order).toNat < 2 ^ 22)
    (hshort : (slice blockSize source (b.getBlock order).toNat).length < blockSize) :
    (∃ message, server.readAfter order [] b = some message ∧
      message.getText order = .ok (slice blockSize source (b.getBlock order).toNat)) ∧
    ∃ message, server.readAfter order [b] b = some message ∧
      message.getText order = .ok [] := by
  obtain ⟨hslicing, hgood⟩ := hserver.slicing
  obtain ⟨hpayload, _⟩ := @readBlock_of_good order b.fileInfo _ source
    (b.getBlock order).toNat hgood hslicing.source
  rw [← readBlock_blockAt, Nat.mod_eq_of_lt hlt] at hpayload
  have hfail := readBlock_short hgood hslicing.source hlt hshort
  obtain ⟨first, hfirst, _, htext⟩ := readAfter_carries hslicing.bad [] hpayload
  obtain ⟨second, hsecond, _, htext'⟩ :=
    readAfter_carries hslicing.bad [b] (readBlock_failed hfail)
  exact ⟨⟨first, hfirst, htext⟩, second, hsecond, htext'⟩

end BlockServer

/-- There is a server of every file. -/
theorem BlockServer.exists_servesFile (order : ByteOrder) (source : Bytes) :
    ∃ server : BlockServer, server.ServesFile order source :=
  ⟨_, fun _ => zeroDigest, [], 0, 0, 0, rfl⟩

/-- If reads do not depend on those before them, a block that is read short is empty:
the second read of it is. -/
theorem HistoryFree.short_empty {order : ByteOrder} {source : Bytes}
    (hfree : HistoryFree order source) {b : BlockInfo} (hof : b.IsOf order source)
    (hlt : (b.getBlock order).toNat < 2 ^ 22)
    (hshort : (slice blockSize source (b.getBlock order).toNat).length < blockSize) :
    slice blockSize source (b.getBlock order).toNat = [] := by
  obtain ⟨server, hserver⟩ := BlockServer.exists_servesFile order source
  obtain ⟨⟨first, hfirst, htext⟩, second, hsecond, htext'⟩ :=
    BlockServer.readAfter_of_short hserver hlt hshort
  obtain ⟨message, message', hmessage, hmessage', _, hsame⟩ :=
    hfree server hserver [] [b] (by simp) (by simpa using hof) b hof
  rw [hfirst] at hmessage
  rw [hsecond] at hmessage'
  cases hmessage
  cases hmessage'
  rw [htext, htext'] at hsame
  exact Except.ok.inj hsame

/-- Reads do not depend on those before them exactly when all of them are full. -/
theorem historyFree_iff (order : ByteOrder) (source : Bytes) :
    HistoryFree order source ↔
      source.length % blockSize = 0 ∨ 2 ^ 22 < blockCount blockSize source := by
  rw [← fullReads_iff]
  constructor
  · intro hfree
    by_contra hfull
    have hcases := mt fullReads_iff.mpr hfull
    push Not at hcases
    obtain ⟨hrest, hcount⟩ := hcases
    -- the last block is neither empty nor full
    have hlast : 0 < (slice blockSize source (blockCount blockSize source - 1)).length ∧
        (slice blockSize source (blockCount blockSize source - 1)).length < blockSize ∧
        0 < blockCount blockSize source := by
      rw [length_slice]
      rw [blockCount, blockSize] at *
      omega
    obtain ⟨hpositive, hshort, hblocks⟩ := hlast
    have hnumber := @FileInfo.getBlock_blockAt order sampleFile
      (blockCount blockSize source - 1) (by omega)
    have hof : (sampleFile.blockAt order (blockCount blockSize source - 1)).IsOf order
        source := by
      rw [BlockInfo.IsOf, hnumber]
      omega
    have hempty := hfree.short_empty hof (by omega) (by rwa [hnumber])
    rw [hnumber] at hempty
    rw [hempty] at hpositive
    exact absurd hpositive (by simp)
  · intro hfull server hserver before before' hbefore hbefore' b _
    obtain ⟨message, hmessage, hlength, htext⟩ :=
      BlockServer.readAfter_of_full hserver hfull hbefore b
    obtain ⟨message', hmessage', hlength', htext'⟩ :=
      BlockServer.readAfter_of_full hserver hfull hbefore' b
    refine ⟨message, message', hmessage, hmessage', ?_, htext.trans htext'.symm⟩
    exact UInt32.toNat_inj.mp (hlength.trans hlength'.symm)

/-- The block of a file of three bytes is found by the first read only. -/
theorem not_historyFree_short : ¬ HistoryFree .little [1, 2, 3] := by
  intro hfree
  have hempty := @HistoryFree.short_empty _ _ hfree
    (BlockInfo.ofBlock .little sampleFile 0) (by rw [BlockInfo.IsOf]; decide) (by decide)
    (by decide)
  exact absurd hempty (by decide)

end Multisync
