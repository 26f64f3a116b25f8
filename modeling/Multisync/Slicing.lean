import Multisync.Addressing
import Multisync.BlockAssembly
import Multisync.ServerPosts
import Mathlib.Tactic

/-!
# Do slicing and placement agree?

The server seeks to a product of two unsigned 32-bit integers, the client to one of
64-bit integers.  So the server reads for block `i` what the file has at block
`i % 2^22`, and the client stores it at block `i`: up to 4 GiB these are the same.
-/

namespace Multisync

open ByteLayout Effects BlockAssembly

/-- The message carries the bytes of the block, and the client stores them where the
file has them. -/
structure AgreesAt (order : ByteOrder) (source : Bytes) (number : ℕ) (message : Message) :
    Prop where
  payload : message.getText order = .ok (slice blockSize source number)
  placed : ∀ (env : Environment) (state state' : StatusState) (file : ℕ),
    state.status.blockArray[number]? = some false →
    state.status.output.file = some file →
    SyncStatus.writeBlock order env number message state = .ok () state' →
      state'.files.contents file = overlay (state.files.contents file)
        (blockSize * number) (slice blockSize source number)

/-- The server of a readable file. -/
def BlockServer.ServesFile (order : ByteOrder) (source : Bytes) (server : BlockServer) :
    Prop :=
  ∃ md5 path group port id, server =
    BlockServer.create order md5 (some source) (some (.regular source)) path group port id

/-- The runs of `start` in which no read of the source fails. -/
inductive ServerRun.Readable (order : ByteOrder) (server : BlockServer) : ServerRun → Prop
  | start (ephemeral : UInt16) (openError : Option String) (input : ServerInput)
      (hread : input.readError = false) :
      Readable order server (ServerRun.start order ephemeral openError input server)
  | step {run : ServerRun} (hrun : Readable order server run) (input : ServerInput)
      (hread : input.readError = false) : Readable order server (run.step order input)

/-- The message was sent or is queued, and carries the block with this number. -/
def ServerRun.PostedBlock (order : ByteOrder) (run : ServerRun) (number : ℕ)
    (message : Message) : Prop :=
  message.buffer ∈ run.server.posted ∧
    message.getType order = MessageType.block.code ∧
    ∃ i, message.getMetadata order BlockInfo = .ok i ∧ (i.getBlock order).toNat = number

/-- Slicing and placement agree for the file. -/
structure SlicesAgree (source : Bytes) : Prop where
  count : ∀ order md5,
    ((FileInfo.ofFile order md5 (some (.regular source))).getBlockCount order).toNat =
      blockCount blockSize source
  blocks : ∀ order server run, BlockServer.ServesFile order source server →
    ServerRun.Readable order server run →
    ∀ number < blockCount blockSize source, ∀ message,
      run.PostedBlock order number message → AgreesAt order source number message
  whole : ∀ order server run, BlockServer.ServesFile order source server →
    ServerRun.Readable order server run →
    ∀ (messages : ℕ → Message) (payloads : ℕ → Bytes),
      (∀ number < blockCount blockSize source,
        run.PostedBlock order number (messages number) ∧
          (messages number).getText order = .ok (payloads number)) →
      (List.range (blockCount blockSize source)).flatMap payloads = source

/-! ## Counting and seeking -/

theorem FileInfo.getBlockCount_ofFile {source : Bytes}
    (hcount : blockCount blockSize source < 2 ^ 32) (order : ByteOrder)
    (md5 : Bytes → Md5Digest) :
    ((FileInfo.ofFile order md5 (some (.regular source))).getBlockCount order).toNat =
      blockCount blockSize source := by
  rw [toNat_getBlockCount_ofFile]
  exact Nat.mod_eq_of_lt hcount

/-- The product of the server wraps at `2^32`. -/
theorem toNat_blockSize_mul (number : ℕ) :
    (UInt32.ofNat blockSize * UInt32.ofNat number).toNat =
      blockSize * (number % 2 ^ 22) := by
  rw [UInt32.toNat_mul, UInt32.toNat_ofNat', UInt32.toNat_ofNat', blockSize]
  omega

/-- What a stream without errors gives for a block, and what is left of it. -/
theorem BlockServer.readBlock_of_good {order : ByteOrder} {info : FileInfo} {input : InStream}
    {source : Bytes} {number : ℕ} (hgood : input.good = true)
    (hsource : input.source = some source) :
    (readBlock order false (info.blockAt order number) input).1 =
        slice blockSize source (number % 2 ^ 22) ∧
      (readBlock order false (info.blockAt order number) input).2.source = some source ∧
      ((slice blockSize source (number % 2 ^ 22)).length = blockSize →
        (readBlock order false (info.blockAt order number) input).2.good = true) := by
  have hflags : input.eof = false ∧ input.fail = false ∧ input.bad = false := by
    simpa [InStream.good, and_assoc] using hgood
  obtain ⟨heof, hfail, hbad⟩ := hflags
  have hposition : (UInt32.ofNat blockSize *
      (info.blockAt order number).getBlock order).toNat =
        blockSize * (number % 2 ^ 22) := by
    rw [FileInfo.blockAt, BlockInfo.ofBlock, BlockInfo.getBlock, order.ntohl_htonl,
      toNat_blockSize_mul]
  obtain ⟨found, position, eof, fail, bad⟩ := input
  simp only at heof hfail hbad hsource hposition
  subst heof hfail hbad hsource
  rw [BlockServer.readBlock, hposition]
  refine ⟨rfl, rfl, fun hlength => ?_⟩
  have hshort : decide ((slice blockSize source (number % 2 ^ 22)).length < blockSize) =
      false := by
    rw [hlength]
    decide
  simp only [InStream.good, Bool.not_eq_true', Bool.or_eq_false_iff]
  exact ⟨⟨hshort, hshort⟩, rfl⟩

/-! ## What a run posts -/

/-- Of `count` blocks, each one posted has the bytes that the server finds for it. -/
def Sliced (source : Bytes) (count : ℕ) (posts : List Post) : Prop :=
  ∀ number payload, .block number payload ∈ posts →
    number < count ∧ payload = slice blockSize source (number % 2 ^ 22)

theorem Sliced.append {source : Bytes} {count : ℕ} {posts infos : List Post}
    (hsliced : Sliced source count posts) (hinfos : ∀ post ∈ infos, post = .info) :
    Sliced source count (posts ++ infos) := by
  intro number payload hmem
  rcases List.mem_append.mp hmem with hold | hnew
  · exact hsliced number payload hold
  · cases hinfos _ hnew

/-- The source has a whole block where the product puts one of `count` blocks, unless it
is the last of them. -/
def WholeButLast (source : Bytes) (count : ℕ) : Prop :=
  ∀ number, number + 1 < count →
    (slice blockSize source (number % 2 ^ 22)).length = blockSize

theorem wholeButLast_blockCount (source : Bytes) :
    WholeButLast source (blockCount blockSize source) := by
  intro number hlt
  apply length_slice_of_succ_lt
  have := Nat.mod_le number (2 ^ 22)
  omega

namespace BlockServer

variable {order : ByteOrder} {initial server : BlockServer} {source : Bytes}
  {posts : List Post}

/-- The number of blocks that the server announces. -/
def total (order : ByteOrder) (server : BlockServer) : ℕ :=
  (server.fileInfo.getBlockCount order).toNat

/-- The posts so far have the right bytes, and the source can still be read: after
the block with the given number, if there is another. -/
structure Slicing (order : ByteOrder) (initial : BlockServer) (source : Bytes)
    (posts : List Post) (server : BlockServer) : Prop where
  serves : Serves order initial posts server
  sliced : Sliced source (initial.total order) posts
  source : server.input.source = some source
  bad : server.input.bad = false

/-- Where a run waits, the stream is good for the next block. -/
def SlicesAt (order : ByteOrder) (initial : BlockServer) (source : Bytes) :
    ServerPhase → BlockServer → Prop
  | .serving i, server => ∃ posts number, Slicing order initial source posts server ∧
      i = initial.fileInfo.blockAt order number ∧
      number < initial.total order ∧
      (number + 1 < initial.total order → server.input.good = true)
  | _, server => ∃ posts, Slicing order initial source posts server

/-- What an exception leaves. -/
def SlicedWithin (order : ByteOrder) (initial : BlockServer) (source : Bytes)
    (server : BlockServer) : Prop :=
  ∃ posts, Sliced source (initial.total order) posts ∧ Within order initial posts server

theorem Slicing.within (hslicing : Slicing order initial source posts server) :
    SlicedWithin order initial source server :=
  ⟨posts, hslicing.sliced, hslicing.serves.within⟩

variable (hwhole : WholeButLast source (initial.total order))

include hwhole in
/-- The head of the first loop, with a good stream while there is a block to read. -/
theorem HeadStep.slices {number : ℕ} {phase : ServerPhase} {final : BlockServer}
    {posts' : List Post} (hslicing : Slicing order initial source posts server)
    (hgood : number < initial.total order → server.input.good = true)
    (hstep : HeadStep order false number posts server phase final posts')
    (hserves : Serves order initial posts' final) :
    SlicesAt order initial source phase final := by
  have hcount : (server.fileInfo.getBlockCount order).toNat = initial.total order := by
    rw [hslicing.serves.fileInfo, total]
  cases hstep with
  | posted hlt hroom hread =>
      rw [hcount] at hlt
      obtain ⟨hpayload, hsource, hnext⟩ :=
        @readBlock_of_good order server.fileInfo _ _ _ (hgood hlt) hslicing.source
      refine ⟨_, number, ⟨hserves, ?_, hsource, hread⟩, ?_, hlt,
        fun hsucc => hnext (hwhole number hsucc)⟩
      · intro other payload hmem
        rcases List.mem_append.mp hmem with hold | hnew
        · exact hslicing.sliced other payload hold
        · cases List.mem_singleton.mp hnew
          exact ⟨hlt, hpayload⟩
      · rw [hslicing.serves.fileInfo]
  | skipped hlt hfull =>
      rw [hcount] at hlt
      refine ⟨posts, number, hslicing, ?_, hlt, fun _ => hgood hlt⟩
      rw [hslicing.serves.fileInfo]
  | drained hdone => exact ⟨posts, hslicing⟩
  | returned hdone hempty => exact ⟨posts, hslicing⟩

include hwhole in
theorem start_slices {ephemeral : UInt16} {openError : Option String}
    {input : ServerInput} (hread : input.readError = false)
    (hinitial : Slicing order initial source [] initial)
    (hgood : initial.input.good = true) :
    (ServerRun.start order ephemeral openError input initial).Holds
      (SlicesAt order initial source) (SlicedWithin order initial source) := by
  apply ServerRun.holds_ofResult
  · intro phase final hok
    obtain ⟨mid, posts', hmid, hinput, _, hstep, hfinal⟩ :=
      start_step hinitial.serves hok
    rw [hread] at hstep
    have hslicing : Slicing order initial source [.info] mid :=
      ⟨hmid, hinitial.sliced.append (by simp), hinput ▸ hinitial.source,
        hinput ▸ hinitial.bad⟩
    exact hstep.slices hwhole hslicing (fun _ => hinput ▸ hgood) hfinal
  · intro fault final herror
    cases openError with
    | some error =>
        cases herror
        exact hinitial.within
    | none =>
        obtain ⟨_, mid, hopen, hnext⟩ : ∃ value mid, zoom BlockServer.socket
            (fun socket server => { server with socket := socket })
            (BlockSocket.openSocket ephemeral none) initial = .ok value mid ∧
              mid.input = initial.input := ⟨_, _, rfl, rfl⟩
        obtain ⟨phase, final', hok⟩ := @serveHead_returns order
          { mid with messageQueue := mid.messageQueue ++ [mid.infoMessage order] } input
          hread (hnext ▸ hinitial.bad) (BlockInfo.ofBlock order mid.fileInfo 0)
        rw [start, bind_of_ok hopen] at herror
        exact absurd (herror.symm.trans hok) (by simp)

include hwhole in
theorem resume_slices {input : ServerInput} (hread : input.readError = false)
    (phase : ServerPhase) (hserver : SlicesAt order initial source phase server) :
    (ServerRun.ofResult (resume order input phase server)).Holds
      (SlicesAt order initial source) (SlicedWithin order initial source) := by
  have hslicing : ∃ posts, Slicing order initial source posts server := by
    cases phase with
    | serving i =>
        obtain ⟨posts, _, hslicing, _⟩ := hserver
        exact ⟨posts, hslicing⟩
    | draining => exact hserver
    | returned => exact hserver
  apply ServerRun.holds_ofResult
  · intro phase' final hok
    cases phase with
    | serving i =>
        obtain ⟨posts, number, hslicing, rfl, hlt, hgood⟩ := hserver
        have hnumber : number < (server.fileInfo.getBlockCount order).toNat := by
          rw [hslicing.serves.fileInfo]
          exact hlt
        rw [← hslicing.serves.fileInfo] at hok
        obtain ⟨mid, infos, posts', _, hinfos, hmid, hinput, hstep, hfinal⟩ :=
          resume_serving_step hslicing.serves hnumber hok
        rw [hread] at hstep
        have hslicing' : Slicing order initial source (posts ++ infos) mid :=
          ⟨hmid, hslicing.sliced.append hinfos, hinput ▸ hslicing.source,
            hinput ▸ hslicing.bad⟩
        exact hstep.slices hwhole hslicing' (fun hsucc => hinput ▸ hgood hsucc) hfinal
    | draining =>
        obtain ⟨posts, hslicing⟩ := hserver
        obtain ⟨infos, hinfos, hserves, hinput, hphase⟩ :=
          resume_draining_step hslicing.serves hok
        have hfinal : Slicing order initial source (posts ++ infos) final :=
          ⟨hserves, hslicing.sliced.append hinfos, hinput ▸ hslicing.source,
            hinput ▸ hslicing.bad⟩
        rcases hphase with rfl | ⟨rfl, _⟩
        · exact ⟨_, hfinal⟩
        · exact ⟨_, hfinal⟩
    | returned =>
        cases hok
        exact hserver
  · intro fault final herror
    obtain ⟨posts, hslicing⟩ := hslicing
    exact ⟨posts, hslicing.sliced,
      resume_error hslicing.serves hread hslicing.bad herror⟩

/-- The stream of the server is good and finds the source, which has whole blocks for the
numbers announced. -/
structure Supplied (order : ByteOrder) (source : Bytes) (server : BlockServer) : Prop where
  slicing : Slicing order server source [] server
  good : server.input.good = true
  whole : WholeButLast source (server.total order)

end BlockServer

theorem BlockServer.ServesFile.slicing {order : ByteOrder} {source : Bytes}
    {server : BlockServer} (hserver : server.ServesFile order source) :
    BlockServer.Slicing order server source [] server ∧ server.input.good = true := by
  obtain ⟨md5, path, group, port, id, rfl⟩ := hserver
  exact ⟨⟨BlockServer.Serves.fresh rfl rfl, by simp [Sliced], rfl, rfl⟩, rfl⟩

theorem BlockServer.ServesFile.count {order : ByteOrder} {source : Bytes}
    {server : BlockServer} (hserver : server.ServesFile order source)
    (hcount : blockCount blockSize source < 2 ^ 32) :
    (server.fileInfo.getBlockCount order).toNat = blockCount blockSize source := by
  obtain ⟨md5, path, group, port, id, rfl⟩ := hserver
  exact FileInfo.getBlockCount_ofFile hcount order md5

theorem BlockServer.ServesFile.whole {order : ByteOrder} {source : Bytes}
    {server : BlockServer} (hserver : server.ServesFile order source)
    (hcount : blockCount blockSize source < 2 ^ 32) :
    WholeButLast source (server.total order) := by
  rw [total, hserver.count hcount]
  exact wholeButLast_blockCount source

theorem BlockServer.ServesFile.supplied {order : ByteOrder} {source : Bytes}
    {server : BlockServer} (hserver : server.ServesFile order source)
    (hcount : blockCount blockSize source < 2 ^ 32) : server.Supplied order source :=
  ⟨hserver.slicing.1, hserver.slicing.2, hserver.whole hcount⟩

namespace ServerRun

variable {order : ByteOrder} {source : Bytes} {server : BlockServer} {run : ServerRun}
  {number : ℕ} {message : Message}

theorem Readable.slices (hrun : Readable order server run)
    (hserver : server.Supplied order source) :
    run.Holds (BlockServer.SlicesAt order server source)
      (BlockServer.SlicedWithin order server source) := by
  induction hrun with
  | start ephemeral openError input hread =>
      exact BlockServer.start_slices hserver.whole hread hserver.slicing hserver.good
  | step hrun input hread ih =>
      exact step_holds (fun phase _ hslices =>
        BlockServer.resume_slices hserver.whole hread phase hslices) ih

theorem Readable.within (hrun : Readable order server run)
    (hserver : server.Supplied order source) :
    BlockServer.SlicedWithin order server source run.server := by
  have hslices := hrun.slices hserver
  unfold Holds at hslices
  split at hslices
  next phase _ =>
    cases phase with
    | serving i =>
        obtain ⟨posts, _, hslicing, _⟩ := hslices
        exact hslicing.within
    | draining =>
        obtain ⟨posts, hslicing⟩ := hslices
        exact hslicing.within
    | returned =>
        obtain ⟨posts, hslicing⟩ := hslices
        exact hslicing.within
  next => exact hslices

/-- The payload of a block is what the file has at the block the product wraps to. -/
theorem Readable.payload (hrun : Readable order server run)
    (hserver : server.Supplied order source)
    (hposted : run.PostedBlock order number message) :
    number < server.total order ∧
      message.getText order = .ok (slice blockSize source (number % 2 ^ 22)) := by
  have hbound := (server.fileInfo.getBlockCount order).toNat_lt
  obtain ⟨posts, hsliced, hwithin⟩ := hrun.within hserver
  obtain ⟨hmem, htype, i, hmetadata, hnumber⟩ := hposted
  obtain ⟨post, hpost, hbuffer⟩ := hwithin _ hmem
  cases post with
  | info =>
      have hform := (infoMessage_wireForm order server).of_buffer hbuffer
      rw [hform.getType order] at htype
      exact absurd htype (by decide)
  | block other payload =>
      have hmem : Post.block other payload ∈ posts := by simpa using hpost
      obtain ⟨hlt, rfl⟩ := hsliced other payload hmem
      have hlength : (slice blockSize source (other % 2 ^ 22)).length ≤ blockSize := by
        rw [length_slice]
        omega
      have hform := (BlockServer.blockMessage_wireForm server.id
        (server.fileInfo.blockAt order other) hlength).of_buffer hbuffer
      have hfound := hform.getMetadata (M := BlockInfo) order
      rw [hmetadata, BlockInfo.load_store] at hfound
      cases hfound
      rw [FileInfo.getBlock_blockAt _ _ (hlt.trans hbound)] at hnumber
      rw [hform.getText order, ← hnumber]
      exact ⟨hlt, rfl⟩

end ServerRun

/-- Where the client stores a block that it accepts. -/
theorem SyncStatus.writeBlock_contents {order : ByteOrder} {env : Environment}
    {number file : ℕ} {message : Message} {payload : Bytes} {state state' : StatusState}
    (hmark : state.status.blockArray[number]? = some false)
    (hfile : state.status.output.file = some file)
    (hpayload : message.getText order = .ok payload)
    (hok : writeBlock order env number message state = .ok () state') :
    state'.files.contents file = overlay (state.files.contents file)
      (blockSize * number % 2 ^ 64) payload := by
  rw [writeBlock_apply, hmark, hpayload] at hok
  simp only at hok
  split_ifs at hok with hfailed
  cases hok
  simp only [marked, wrote] at hfailed ⊢
  cases hstream : state.status.output.failed with
  | true =>
      rw [OutStream.seekp_write_closed (Or.inl hstream)] at hfailed
      exact absurd rfl hfailed
  | false =>
      rw [OutStream.seekp_write_limit hfile hstream] at hfailed ⊢
      have hlimit : env.writeLimit = none := by simpa using hfailed
      rw [hlimit, Option.getD_none, List.take_length]
      exact state.files.write_contents_self file _ _

/-- Where every product is the offset that was meant, slicing and placement agree. -/
theorem slicesAgree_of_wraps {source : Bytes}
    (hcount : blockCount blockSize source < 2 ^ 32)
    (hwraps : ∀ number < blockCount blockSize source,
      slice blockSize source number = slice blockSize source (number % 2 ^ 22)) :
    SlicesAgree source := by
  have hpayload : ∀ order server run, BlockServer.ServesFile order source server →
      ServerRun.Readable order server run →
      ∀ number < blockCount blockSize source, ∀ message : Message,
        run.PostedBlock order number message →
          message.getText order = .ok (slice blockSize source number) := by
    intro order server run hserver hrun number hlt message hposted
    rw [hwraps number hlt]
    exact (hrun.payload (hserver.supplied hcount) hposted).2
  refine ⟨fun order md5 => FileInfo.getBlockCount_ofFile hcount order md5, ?_, ?_⟩
  · intro order server run hserver hrun number hlt message hposted
    have htext := hpayload order server run hserver hrun number hlt message hposted
    refine ⟨htext, fun env state state' file hmark hfile hok => ?_⟩
    rw [SyncStatus.writeBlock_contents hmark hfile htext hok, Nat.mod_eq_of_lt]
    rw [blockSize]
    omega
  · intro order server run hserver hrun messages payloads hposted
    have hslices : ∀ number ∈ List.range (blockCount blockSize source),
        payloads number = slice blockSize source number := by
      intro number hmem
      have hlt := List.mem_range.mp hmem
      obtain ⟨hmessage, htext⟩ := hposted number hlt
      rw [hpayload order server run hserver hrun number hlt _ hmessage] at htext
      exact (Except.ok.inj htext).symm
    rw [List.flatMap_congr hslices]
    exact flatMap_slice (by decide) source

/-! ## A run that posts every block -/

namespace BlockServer

variable {order : ByteOrder} {initial server : BlockServer} {posts : List Post}

/-- A wait that ends because the socket can be written sends the front of the queue. -/
theorem select_writable (hserves : Serves order initial posts server)
    (hpath : initial.path.length < 2 ^ 32) {input : ServerInput}
    (hready : input.ready = .ok ⟨false, true⟩) (hsend : input.sendError = none)
    {message : Message} {rest : List Message}
    (hqueue : server.messageQueue = message :: rest) :
    select order input server = .ok ()
      { server with
        socket := { server.socket with
          sent := server.socket.sent ++ [(server.socket.destination, message.buffer)] }
        messageQueue := rest } := by
  have hmem : message ∈ server.messageQueue := by simp [hqueue]
  obtain ⟨hframed, hne⟩ := hserves.sendable hpath message hmem
  have hfront := @Endpoint.sendFront_of_cons _ endpoint order input.sendError server
    message rest hqueue
  rw [hsend, BlockSocket.send_framed order hframed hne] at hfront
  have hsome : endpoint.messageQueue server ≠ [] := by
    rw [show endpoint.messageQueue server = message :: rest from hqueue]
    exact List.cons_ne_nil message rest
  rw [select, hready, hsend, Endpoint.select_of_ready, if_neg (by decide),
    if_pos ⟨hsome, rfl⟩]
  exact hfront

/-- With room in the queue, the head of the first loop posts the block. -/
theorem serveHead_posts (hserves : Serves order initial posts server)
    {input : ServerInput} (hread : input.readError = false)
    (hbad : server.input.bad = false) {number : ℕ} (hcount : number < initial.total order)
    (hroom : server.messageQueue.length < 5) :
    ∃ final,
      serveHead order input (initial.fileInfo.blockAt order number) server =
        .ok (.serving (initial.fileInfo.blockAt order number)) final ∧
      Serves order initial (posts ++ [.block number
        (readBlock order false (initial.fileInfo.blockAt order number) server.input).1])
        final ∧
      final.messageQueue.length = server.messageQueue.length + 1 ∧
      final.input =
        (readBlock order false (initial.fileInfo.blockAt order number) server.input).2 := by
  have hlt := (initial.fileInfo.getBlockCount order).toNat_lt
  rw [total] at hcount
  rw [← hserves.fileInfo] at hcount hlt ⊢
  have hhead := @serveHead_of_room order server input number (by omega) hcount hroom
  simp only [hread, readBlock_not_bad _ hbad] at hhead
  refine ⟨_, hhead, hserves.pushBlock number (length_readBlock_le order _ _ _) _, ?_, rfl⟩
  simp

/-- The stream after the blocks below a number were read, one after the other. -/
def inputAt (order : ByteOrder) (server : BlockServer) : ℕ → InStream
  | 0 => server.input
  | number + 1 => (readBlock order false (server.fileInfo.blockAt order number)
      (inputAt order server number)).2

theorem inputAt_not_bad (hbad : initial.input.bad = false) (number : ℕ) :
    (initial.inputAt order number).bad = false := by
  induction number with
  | zero => exact hbad
  | succ number ih => exact readBlock_not_bad _ ih

end BlockServer

namespace ServerRun

variable {order : ByteOrder} {source : Bytes} {initial : BlockServer} {number : ℕ}

/-- A block that was posted is one in its form. -/
theorem postedBlock_of_mem {run : ServerRun} {payload : Bytes} (hnumber : number < 2 ^ 32)
    (hlength : payload.length ≤ blockSize)
    (hmem : initial.render order (.block number payload) ∈ run.server.posted) :
    run.PostedBlock order number (BlockServer.blockMessage order initial.id
        (initial.fileInfo.blockAt order number) payload) ∧
      (BlockServer.blockMessage order initial.id (initial.fileInfo.blockAt order number)
        payload).getText order = .ok payload := by
  have hform := @BlockServer.blockMessage_wireForm order initial.id
    (initial.fileInfo.blockAt order number) payload hlength
  refine ⟨⟨hmem, hform.getType order, _, hform.getMetadata (M := BlockInfo) order, ?_⟩,
    hform.getText order⟩
  rw [BlockInfo.load_store, FileInfo.getBlock_blockAt _ _ hnumber]

/-- The run in which the socket opens and each wait can send. -/
def posting (order : ByteOrder) (initial : BlockServer) (waits : ℕ) : ServerRun :=
  (start order 40000 none writableServerInput initial).steps order
    (List.replicate waits writableServerInput)

theorem posting_succ (waits : ℕ) :
    posting order initial (waits + 1) =
      (posting order initial waits).step order writableServerInput := by
  rw [posting, List.replicate_succ', steps, List.foldl_append]
  rfl

theorem readable_posting (waits : ℕ) :
    Readable order initial (posting order initial waits) := by
  induction waits with
  | zero => exact .start 40000 none writableServerInput rfl
  | succ waits ih =>
      rw [posting_succ]
      exact ih.step writableServerInput rfl

/-- The run has just posted the block, read after all those before it, and has another
message in the queue. -/
def JustPosts (order : ByteOrder) (initial : BlockServer) (number : ℕ) (run : ServerRun) :
    Prop :=
  ∃ posts, run.phase = .ok (.serving (initial.fileInfo.blockAt order number)) ∧
    BlockServer.Serves order initial (posts ++ [.block number
      (BlockServer.readBlock order false (initial.fileInfo.blockAt order number)
        (initial.inputAt order number)).1]) run.server ∧
    run.server.messageQueue.length = 2 ∧
    run.server.input = initial.inputAt order (number + 1)

section Posting

variable (hinitial : BlockServer.Serves order initial [] initial)
  (hqueue : initial.messageQueue = []) (hbad : initial.input.bad = false)

include hinitial hqueue hbad in
/-- The run that starts posts the announcement and the first block. -/
theorem justPosts_zero (hpos : 0 < initial.total order) :
    JustPosts order initial 0 (posting order initial 0) := by
  let port := if initial.socket.group.port = 0 then 40000 else initial.socket.group.port
  let opened : BlockServer :=
    { initial with socket := { initial.socket with bound := some port } }
  have hopened : BlockServer.Serves order initial [] opened :=
    hinitial.of_same rfl rfl rfl rfl rfl rfl
  obtain ⟨final, hhead, hfinal, hlength, hinput⟩ :=
    BlockServer.serveHead_posts hopened.pushInfo
      (rfl : writableServerInput.readError = false) hbad hpos (by simp [opened, hqueue])
  have hstart : BlockServer.start order 40000 none writableServerInput initial =
      .ok (.serving (initial.fileInfo.blockAt order 0)) final := hhead
  have hposting : posting order initial 0 =
      ⟨final, .ok (.serving (initial.fileInfo.blockAt order 0))⟩ := by
    change start order 40000 none writableServerInput initial = _
    rw [start, hstart]
    rfl
  rw [hposting]
  exact ⟨_, rfl, hfinal, by simpa [opened, hqueue] using hlength, hinput⟩

include hbad in
/-- A wait that sends the front makes room for the next block. -/
theorem JustPosts.succ {run : ServerRun} (hpath : initial.path.length < 2 ^ 32)
    (hnumber : number + 1 < initial.total order)
    (hposts : JustPosts order initial number run) :
    JustPosts order initial (number + 1) (run.step order writableServerInput) := by
  obtain ⟨posts, hphase, hserves, hlength, hinput⟩ := hposts
  have hbad' : run.server.input.bad = false := by
    rw [hinput]
    exact BlockServer.inputAt_not_bad hbad _
  obtain ⟨message, rest, hqueue⟩ : ∃ message rest,
      run.server.messageQueue = message :: rest := by
    cases hqueue : run.server.messageQueue with
    | nil => simp [hqueue] at hlength
    | cons message rest => exact ⟨message, rest, rfl⟩
  have hrest : rest.length = 1 := by
    rw [hqueue, List.length_cons] at hlength
    omega
  obtain ⟨final, hhead, hfinal, hlength', hinput'⟩ :=
    BlockServer.serveHead_posts (hserves.pop hqueue)
      (rfl : writableServerInput.readError = false) hbad' hnumber (by simp [hrest])
  have hwakes : BlockServer.endpoint.Wakes writableServerInput.ready run.server := by
    change Ready.wakes ⟨false, true⟩ (!run.server.messageQueue.isEmpty) = true
    rw [hqueue]
    rfl
  have hresume : BlockServer.resume order writableServerInput
      (.serving (initial.fileInfo.blockAt order number)) run.server =
        .ok (.serving (initial.fileInfo.blockAt order (number + 1))) final := by
    rw [BlockServer.resume, bind_of_ok
      (BlockServer.select_writable hserves hpath rfl rfl hqueue),
      FileInfo.succ_blockAt]
    exact hhead
  simp only [hinput] at hfinal hinput'
  rw [step, hphase]
  simp only [hwakes, if_true, hresume]
  exact ⟨_, rfl, hfinal, by simpa [ofResult, hrest] using hlength', hinput'⟩

include hinitial hqueue hbad in
/-- A run in which each wait sends a message posts one block after the other. -/
theorem justPosts (hpath : initial.path.length < 2 ^ 32)
    (hnumber : number < initial.total order) :
    JustPosts order initial number (posting order initial number) := by
  induction number with
  | zero => exact justPosts_zero hinitial hqueue hbad hnumber
  | succ number ih =>
      rw [posting_succ]
      exact (ih (by omega)).succ hbad hpath hnumber

include hinitial hqueue hbad in
/-- The message with the block that was read after all those before it. -/
theorem exists_postedBlock (hpath : initial.path.length < 2 ^ 32)
    (hnumber : number < initial.total order) :
    ∃ message, (posting order initial number).PostedBlock order number message ∧
      message.getText order =
        .ok (BlockServer.readBlock order false (initial.fileInfo.blockAt order number)
          (initial.inputAt order number)).1 := by
  have hbound := (initial.fileInfo.getBlockCount order).toNat_lt
  obtain ⟨posts, _, hserves, _⟩ := justPosts hinitial hqueue hbad hpath hnumber
  generalize hpayload : (BlockServer.readBlock order false
    (initial.fileInfo.blockAt order number) (initial.inputAt order number)).1 = payload
  rw [hpayload] at hserves
  have hmem : initial.render order (.block number payload) ∈
      (posting order initial number).server.posted := by
    rw [hserves.posted]
    exact List.mem_map_of_mem (List.mem_append_right _ (List.mem_singleton.mpr rfl))
  exact ⟨_, postedBlock_of_mem (hnumber.trans hbound)
    (hserves.payloads number payload (by simp)) hmem⟩

end Posting

end ServerRun

/-- Some run posts the block, with the bytes that its offset wraps to. -/
theorem SlicesAgree.wraps {source : Bytes} (hagree : SlicesAgree source)
    (hcount : blockCount blockSize source < 2 ^ 32) :
    ∀ number < blockCount blockSize source,
      slice blockSize source number = slice blockSize source (number % 2 ^ 22) := by
  intro number hnumber
  let md5 : Bytes → Md5Digest := fun _ => ⟨List.replicate 16 0, by decide⟩
  let initial := BlockServer.create .little md5 (some source) (some (.regular source))
    [97] 0 9000 9
  have hserver : initial.ServesFile .little source := ⟨md5, [97], 0, 9000, 9, rfl⟩
  have hsupplied := hserver.supplied hcount
  have htotal : number < initial.total .little := by
    rw [BlockServer.total, hserver.count hcount]
    exact hnumber
  obtain ⟨message, hposted, _⟩ := ServerRun.exists_postedBlock hsupplied.slicing.serves rfl
    hsupplied.slicing.bad (by simp [initial, BlockServer.create]) htotal
  have hrun := @ServerRun.readable_posting .little initial number
  have hmeant := (hagree.blocks _ _ _ hserver hrun number hnumber message hposted).payload
  have hfound := (hrun.payload hsupplied hposted).2
  rw [hmeant] at hfound
  exact Except.ok.inj hfound

/-- Slicing and placement agree for a file when no block of it differs from the one
that its offset wraps to. -/
theorem slicesAgree_iff {source : Bytes} (hcount : blockCount blockSize source < 2 ^ 32) :
    SlicesAgree source ↔ ∀ number < blockCount blockSize source,
      slice blockSize source number = slice blockSize source (number % 2 ^ 22) :=
  ⟨fun hagree => hagree.wraps hcount, slicesAgree_of_wraps hcount⟩

/-- A file of three bytes has one block. -/
theorem threeBytes_slicesAgree : SlicesAgree [1, 2, 3] ↔
    ∀ number < blockCount blockSize [1, 2, 3],
      slice blockSize [1, 2, 3] number = slice blockSize [1, 2, 3] (number % 2 ^ 22) :=
  slicesAgree_iff (by decide)

/-- One byte more than 4 GiB. -/
def longFile : Bytes :=
  List.replicate (2 ^ 32 + 1) 7

/-- The last block of this file has one byte, and block 0 has 1024. -/
theorem longFile_not_slicesAgree :
    blockCount blockSize longFile < 2 ^ 32 ∧ ¬ SlicesAgree longFile := by
  have hlength : longFile.length = 2 ^ 32 + 1 := List.length_replicate
  have hcount : blockCount blockSize longFile = 2 ^ 22 + 1 := by
    rw [blockCount, hlength, blockSize]
    norm_num
  refine ⟨by rw [hcount]; decide, fun hagree => ?_⟩
  have hwraps := hagree.wraps (by rw [hcount]; decide) (2 ^ 22) (by rw [hcount]; decide)
  have hlengths := congrArg List.length hwraps
  rw [length_slice, length_slice, hlength, blockSize] at hlengths
  omega

end Multisync
