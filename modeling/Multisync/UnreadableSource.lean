import Multisync.Filling
import Multisync.Slicing
import Mathlib.Tactic

/-!
# What is served of a source that cannot be read?

The source is opened twice, for the announcement and for the blocks, and nothing is
checked: neither the opens, nor the seek to the end, nor the reads for the digest.  A
file that is not there has the end position -1, which counts as one block, and a read
from it gives no bytes and no exception: it is announced as a file of one block, and the
block is posted empty.
-/

namespace Multisync

open ByteLayout Effects BlockAssembly

/-- What opening and reading a source comes to: the bytes that the stream of the server
finds, the file that the constructor of the info finds, and whether a read of the blocks
may fail. -/
structure SourceOutcome where
  opened : Option Bytes
  measured : Option FileSource
  faulty : Bool

/-- The info is the one of a file with these bytes. -/
structure FileInfo.Describes (order : ByteOrder) (md5 : Bytes → Md5Digest) (bytes : Bytes)
    (info : FileInfo) : Prop where
  digest : info.digest = (md5 bytes).hexDigest
  count : (info.getBlockCount order).toNat = blockCount blockSize bytes

/-- An announcement or a block of the file comes only with a datagram that was posted. -/
def Delivery.Posted (order : ByteOrder) (info : FileInfo) (posted : List Bytes)
    (delivery : Delivery) : Prop :=
  delivery.message.fileInfo? order = some info →
    delivery.message.getType order ≠ MessageType.sgoodbye.code → delivery.datagram ∈ posted

namespace ServerRun

/-- `start` has thrown before it posted anything. -/
def NothingPosted (run : ServerRun) : Prop :=
  (∃ fault, run.phase = .error fault) ∧ run.server.posted = []

/-- The announcements describe bytes that were read without a failure up to the end of the
file, and the blocks consist of bytes that were read. -/
structure ServesBytes (order : ByteOrder) (md5 : Bytes → Md5Digest)
    (source : SourceOutcome) (run : ServerRun) : Prop where
  infos : ∃ file, source.measured = some file ∧ file.ReadThrough 1024 ∧
    ∀ message : Message, message.buffer ∈ run.server.posted →
      message.getType order = MessageType.info.code →
        ∃ info, message.getMetadata order FileInfo = .ok info ∧
          info.Describes order md5 file.bytes
  blocks : ∃ bytes, source.opened = some bytes ∧
    ∀ number message, run.PostedBlock order number message →
      message.getText order = .ok (slice blockSize bytes (number % 2 ^ 22)) ∧
        slice blockSize bytes (number % 2 ^ 22) ≠ []

/-- A client that hears of a file what was posted, in any order and any number of times,
and whatever else of others, publishes an empty file of it only if the source is one that
was read. -/
def NeverEmpties (source : SourceOutcome) (run : ServerRun) : Prop :=
  ∀ (receiver : ByteOrder) (info : FileInfo) (client : BlockClient)
    (deliveries : List Delivery),
    client.syncSet = OrderedMap.empty → client.trace = [] →
    BlockClient.NamesApart receiver client.files deliveries →
    (∀ delivery ∈ deliveries, delivery.Posted receiver info run.server.posted) →
    ∀ publication, ClientEvent.published info publication ∈
        (endState (deliveries.forM (BlockClient.deliver receiver) client)).trace →
      publication.content = [] →
        ∃ file, source.measured = some file ∧ file.ReadThrough 1024 ∧ file.bytes = []

/-- A source that cannot be read is neither announced nor served, and empties no
destination. -/
def HonestSource (order : ByteOrder) (md5 : Bytes → Md5Digest) (source : SourceOutcome)
    (run : ServerRun) : Prop :=
  (run.NothingPosted ∨ run.ServesBytes order md5 source) ∧ run.NeverEmpties source

end ServerRun

namespace SourceOutcome

/-- A read fails only if that may happen. -/
def Permits (source : SourceOutcome) (input : ServerInput) : Prop :=
  input.readError = true → source.faulty = true

/-- Whatever happens to the server of the source, its source is treated honestly. -/
def Honest (order : ByteOrder) (md5 : Bytes → Md5Digest) (openError : Option String)
    (source : SourceOutcome) : Prop :=
  ∀ (path : Bytes) (group : UInt32) (port : UInt16) (id : UInt32) (ephemeral : UInt16)
    (input : ServerInput) (inputs : List ServerInput),
    source.Permits input → (∀ input ∈ inputs, source.Permits input) →
    ((ServerRun.start order ephemeral openError input
      (BlockServer.create order md5 source.opened source.measured path group port id)).steps
        order inputs).HonestSource order md5 source

/-- The source is there both times.  The one file is read through and reports as many
blocks as it has; the other has bytes where each of these blocks is looked for, a whole
block unless it is the last, and is read without failures if there are any. -/
structure Sound (source : SourceOutcome) (file : FileSource) (bytes : Bytes) : Prop where
  measured : source.measured = some file
  opened : source.opened = some bytes
  through : file.ReadThrough 1024
  counted : ∀ offset, file.endOffset = some offset →
    (offset + blockSize - 1) / blockSize % 2 ^ 32 = blockCount blockSize file.bytes
  found : ∀ number < blockCount blockSize file.bytes,
    slice blockSize bytes (number % 2 ^ 22) ≠ []
  whole : WholeButLast bytes (blockCount blockSize file.bytes)
  served : 0 < blockCount blockSize file.bytes → source.faulty = false

variable {source : SourceOutcome} {file : FileSource} {bytes : Bytes}

/-- A file of fewer than `2^32` blocks that is found both times and can be read. -/
theorem sound_regular (hcount : blockCount blockSize bytes < 2 ^ 32) :
    Sound ⟨some bytes, some (.regular bytes), false⟩ (.regular bytes) bytes where
  measured := rfl
  opened := rfl
  through := FileSource.readThrough_regular bytes 1024
  counted offset hoffset := by
    cases hoffset
    exact Nat.mod_eq_of_lt hcount
  found number hlt := by
    have hmod := Nat.mod_le number (2 ^ 22)
    apply List.ne_nil_of_length_pos
    rw [length_slice]
    have hmul := (Nat.le_div_iff_mul_le (by decide : 0 < blockSize)).mp hlt
    simp only [FileSource.regular, blockSize] at hmul ⊢
    omega
  whole := wholeButLast_blockCount bytes
  served _ := rfl

end SourceOutcome

/-! ## What is posted at once -/

namespace BlockServer

variable {order : ByteOrder} {initial : BlockServer} {input : ServerInput}

/-- The server when its socket is open and the announcement is queued. -/
def opened (order : ByteOrder) (ephemeral : UInt16) (initial : BlockServer) : BlockServer :=
  { initial with
    socket := endState (BlockSocket.openSocket ephemeral none initial.socket)
    messageQueue := initial.messageQueue ++ [initial.infoMessage order] }

theorem start_opened (ephemeral : UInt16) (input : ServerInput) (initial : BlockServer) :
    start order ephemeral none input initial =
      serveHead order input (initial.fileInfo.blockAt order 0)
        (initial.opened order ephemeral) := rfl

/-- Once the socket is open the announcement is posted, whatever the source. -/
theorem start_posts (ephemeral : UInt16) (input : ServerInput) (initial : BlockServer) :
    initial.render order .info ∈
      (ServerRun.start order ephemeral none input initial).server.posted := by
  have hopened : initial.render order .info ∈ (initial.opened order ephemeral).posted := by
    simp [opened, posted, render]
  rw [ServerRun.start, ServerRun.server_ofResult, start_opened]
  refine (serveHead_keeps (P := fun server => initial.render order .info ∈ server.posted)
    ?_).endState hopened
  apply enqueueBlock_keeps fun _ hserver => hserver
  intro server hserver data input _
  rw [posted] at hserver ⊢
  rcases List.mem_append.mp hserver with hsent | hqueued
  · exact List.mem_append_left _ hsent
  · exact List.mem_append_right _ (List.map_append ▸ List.mem_append_left _ hqueued)

/-- And so is block 0, if the file has one. -/
theorem start_posts_block (ephemeral : UInt16) (input : ServerInput)
    (hqueue : initial.messageQueue = []) (hpos : 0 < initial.total order) :
    initial.render order (.block 0 (readBlock order input.readError
        (initial.fileInfo.blockAt order 0) initial.input).1) ∈
      (ServerRun.start order ephemeral none input initial).server.posted := by
  have hhead := @serveHead_of_room order (initial.opened order ephemeral) input 0 (by decide)
    hpos (by simp [opened, hqueue])
  rw [show (initial.opened order ephemeral).fileInfo = initial.fileInfo from rfl] at hhead
  rw [ServerRun.start, ServerRun.server_ofResult, start_opened, hhead]
  dsimp only
  split_ifs
  · simp [posted, render, opened]
  · simp [posted, render, opened]

/-! ## What a block tells of the stream -/

theorem fail_of_readBlock {readError : Bool} {i : BlockInfo} {stream : InStream}
    (hne : (readBlock order readError i stream).1 ≠ []) : stream.fail = false := by
  have hgood := InStream.good_of_read hne
  by_contra hfail
  rw [Bool.not_eq_false] at hfail
  rw [InStream.seekg, if_pos (by simp [hfail])] at hgood
  simp [InStream.good, hfail] at hgood

theorem readBlock_faulty (i : BlockInfo) (stream : InStream) :
    (readBlock order true i stream).1 = [] := by
  rw [readBlock, InStream.read, if_pos rfl]
  split_ifs
  · rfl
  · rfl

end BlockServer

/-! ## The inputs do not matter without blocks -/

/-- The input, and no read fails. -/
def ServerInput.quiet (input : ServerInput) : ServerInput :=
  { input with readError := false }

namespace ServerRun

variable {order : ByteOrder} {initial : BlockServer} {run : ServerRun}

/-- The run is not in the loop over the blocks. -/
def Drains (run : ServerRun) : Prop :=
  ∀ i, run.phase ≠ .ok (.serving i)

theorem drains_ofResult_drainHead (server : BlockServer) :
    (ofResult (BlockServer.drainHead server)).Drains := by
  rcases BlockServer.drainHead_apply server with hmore | ⟨hnone, _⟩
  · rw [hmore]
    exact fun i hphase => by cases hphase
  · rw [hnone]
    exact fun i hphase => by cases hphase

/-- Without a block `start` goes on to the second loop. -/
theorem start_of_done (hzero : initial.total order = 0) (ephemeral : UInt16)
    (openError : Option String) (input : ServerInput) :
    start order ephemeral openError input initial =
        start order ephemeral openError input.quiet initial ∧
      (start order ephemeral openError input initial).Drains := by
  cases openError with
  | some error =>
      have hfailed : ∀ input, start order ephemeral (some error) input initial =
          ⟨initial, .error (.system error)⟩ := fun _ => rfl
      rw [hfailed, hfailed]
      exact ⟨rfl, fun i hphase => by cases hphase⟩
  | none =>
      have hdone : ∀ input, start order ephemeral none input initial =
          ofResult (BlockServer.drainHead (initial.opened order ephemeral)) := by
        intro input
        have hcount : ¬ 0 < ((initial.opened order ephemeral).fileInfo.getBlockCount
            order).toNat := hzero.not_gt
        have hhead := @BlockServer.serveHead_of_done order _ input 0 (by decide) hcount
        rw [show (initial.opened order ephemeral).fileInfo = initial.fileInfo from rfl] at hhead
        rw [start, BlockServer.start_opened, hhead]
      rw [hdone, hdone]
      exact ⟨rfl, drains_ofResult_drainHead _⟩

theorem Drains.step (hrun : run.Drains) (input : ServerInput) :
    run.step order input = run.step order input.quiet ∧ (run.step order input).Drains := by
  obtain ⟨server, phase⟩ := run
  cases phase with
  | error fault => exact ⟨rfl, hrun⟩
  | ok phase =>
      cases phase with
      | serving i => exact absurd rfl (hrun i)
      | returned =>
          refine ⟨rfl, ?_⟩
          simp only [ServerRun.step]
          split_ifs
          · exact fun i hphase => by cases hphase
          · exact hrun
      | draining =>
          refine ⟨rfl, ?_⟩
          simp only [ServerRun.step]
          split_ifs
          · rw [BlockServer.resume]
            cases hselect : BlockServer.select order input server with
            | error fault mid =>
                rw [bind_of_error hselect]
                exact fun i hphase => by cases hphase
            | ok value mid =>
                rw [bind_of_ok hselect]
                exact drains_ofResult_drainHead mid
          · exact hrun

theorem Drains.readable (hrun : run.Drains) (hreadable : Readable order initial run)
    (inputs : List ServerInput) : Readable order initial (run.steps order inputs) := by
  induction inputs generalizing run with
  | nil => exact hreadable
  | cons input inputs ih =>
      obtain ⟨hsame, hdrains⟩ := @Drains.step order run hrun input
      refine ih hdrains ?_
      rw [hsame]
      exact hreadable.step input.quiet rfl

/-- A run in which no read of a block fails, as far as there are blocks. -/
theorem readable_of_permits {source : SourceOutcome} (ephemeral : UInt16)
    (openError : Option String) {input : ServerInput} {inputs : List ServerInput}
    (hserved : 0 < initial.total order → source.faulty = false)
    (hinput : source.Permits input) (hinputs : ∀ input ∈ inputs, source.Permits input) :
    Readable order initial
      ((start order ephemeral openError input initial).steps order inputs) := by
  rcases Nat.eq_zero_or_pos (initial.total order) with hzero | hpos
  · obtain ⟨hsame, hdrains⟩ := start_of_done hzero ephemeral openError input
    refine hdrains.readable ?_ inputs
    rw [hsame]
    exact .start ephemeral openError input.quiet rfl
  · have hquiet : ∀ input, source.Permits input → input.readError = false := by
      intro input hpermits
      by_contra herror
      rw [Bool.not_eq_false] at herror
      exact Bool.false_ne_true ((hserved hpos).symm.trans (hpermits herror))
    have hall : ∀ run, Readable order initial run →
        Readable order initial (run.steps order inputs) := by
      induction inputs with
      | nil => exact fun _ hrun => hrun
      | cons input inputs ih =>
          intro run hrun
          obtain ⟨hfirst, hrest⟩ := List.forall_mem_cons.mp hinputs
          exact ih hrest _ (hrun.step input (hquiet input hfirst))
    exact hall _ (.start ephemeral openError input (hquiet input hinput))

end ServerRun

/-! ## What the posts bring to a client -/

namespace ServerRun

variable {order : ByteOrder} {initial : BlockServer} {run : ServerRun} {bytes : Bytes}

/-- If an announcement of the file that was posted stands for a file that was read, unless
it has blocks, and the blocks of it that were posted have bytes, nothing is emptied. -/
theorem neverEmpties_of_fills {source : SourceOutcome}
    (hfills : ∀ receiver info, ∃ announced : Prop,
      (∀ delivery : Delivery, delivery.Posted receiver info run.server.posted →
        delivery.message.Fills receiver info announced) ∧
      (announced → (info.getBlockCount receiver).toNat = 0 →
        ∃ file, source.measured = some file ∧ file.ReadThrough 1024 ∧ file.bytes = [])) :
    run.NeverEmpties source := by
  intro receiver info client deliveries hempty htrace hnames hposted publication hmem hnil
  obtain ⟨announced, hfill, hread⟩ := hfills receiver info
  have hfilled := BlockClient.published_filled hempty htrace
    (fun delivery hdelivery => hfill delivery (hposted delivery hdelivery)) hnames
    publication hmem
  refine hread hfilled.announced (Nat.eq_zero_of_not_pos fun hpos => ?_)
  exact hfilled.content hpos hnil

/-- Of a server that posts slices with bytes, a client hears blocks with bytes. -/
theorem fills_of_posted {receiver : ByteOrder} {info : FileInfo} {delivery : Delivery}
    (hwithin : BlockServer.SlicedWithin order initial bytes run.server)
    (hfound : ∀ number < initial.total order, slice blockSize bytes (number % 2 ^ 22) ≠ [])
    (hposted : delivery.Posted receiver info run.server.posted) :
    delivery.message.Fills receiver info
      (info = Metadata.load receiver (Metadata.store order initial.fileInfo)) := by
  obtain ⟨posts, hsliced, hwithin⟩ := hwithin
  have hpost : ∀ type : MessageType, type ≠ MessageType.sgoodbye →
      delivery.message.getType receiver = type.code →
      delivery.message.fileInfo? receiver = some info →
        ∃ post, (post = .info ∨ post ∈ posts) ∧
          delivery.datagram = initial.render order post := by
    intro type hne htype hinfo
    refine hwithin _ (hposted hinfo ?_)
    rw [htype]
    exact fun hcode => hne ((MessageType.code_inj _ _).mp hcode)
  have hblock : ∀ number payload, .block number payload ∈ posts →
      delivery.datagram = initial.render order (.block number payload) →
        delivery.message.getType receiver = MessageType.block.code ∧
          delivery.message.getText receiver = .ok payload ∧ payload ≠ [] := by
    intro number payload hmem hdatagram
    obtain ⟨hlt, rfl⟩ := hsliced number payload hmem
    have hlength : (slice blockSize bytes (number % 2 ^ 22)).length ≤ blockSize := by
      rw [length_slice]
      omega
    have himage : (Message.metadataImage order
        (initial.fileInfo.blockAt order number)).length = 44 :=
      Message.length_metadataImage order _
    have hsize : blockSize = 1024 := rfl
    have hform := (@BlockServer.blockMessage_wireForm order initial.id
      (initial.fileInfo.blockAt order number) _ hlength).received (by
        rw [himage, headerSize]
        omega)
    rw [Delivery.message, hdatagram]
    exact ⟨hform.getType receiver, hform.getText receiver, hfound number hlt⟩
  constructor
  · intro htype hinfo
    obtain ⟨post, hmem, hdatagram⟩ := hpost .info (by decide) htype hinfo
    cases post with
    | info =>
        have hread := (infoMessage_wireForm order initial).getMetadata_received (by decide)
          receiver
        have hof := Message.fileInfo?_of_named (Or.inl htype) (by
          rw [Delivery.message, hdatagram]
          exact hread)
        rw [hof] at hinfo
        exact (Option.some.inj hinfo).symm
    | block number payload =>
        have hother := (hblock number payload (by simpa using hmem) hdatagram).1
        rw [htype] at hother
        exact absurd hother (by decide)
  · intro htype hinfo payload htext
    obtain ⟨post, hmem, hdatagram⟩ := hpost .block (by decide) htype hinfo
    cases post with
    | info =>
        have hother := (infoMessage_wireForm order initial).getType_received receiver
        rw [Delivery.message, hdatagram] at htype
        exact absurd (hother.symm.trans htype) (by decide)
    | block number payload' =>
        obtain ⟨_, htext', hne⟩ := hblock number payload' (by simpa using hmem) hdatagram
        rw [htext] at htext'
        rwa [Except.ok.inj htext']

end ServerRun

/-! ## A source that is sound -/

namespace SourceOutcome

variable {order : ByteOrder} {md5 : Bytes → Md5Digest} {source : SourceOutcome}
  {file : FileSource} {bytes path : Bytes} {group : UInt32} {port : UInt16} {id : UInt32}

/-- The server of the source. -/
def server (order : ByteOrder) (md5 : Bytes → Md5Digest) (source : SourceOutcome)
    (path : Bytes) (group : UInt32) (port : UInt16) (id : UInt32) : BlockServer :=
  BlockServer.create order md5 source.opened source.measured path group port id

/-- The server announces the blocks of the offset that the file reports. -/
theorem total_server {offset : ℕ} (hmeasured : source.measured = some file)
    (hoffset : file.endOffset = some offset) :
    (source.server order md5 path group port id).total order =
      (offset + blockSize - 1) / blockSize % 2 ^ 32 := by
  rw [server, hmeasured]
  refine (FileInfo.toNat_getBlockCount_ofFile order md5 (some file)).trans ?_
  rw [Option.bind_some, hoffset, Option.elim_some]

theorem Sound.total (hsound : source.Sound file bytes) :
    (source.server order md5 path group port id).total order =
      blockCount blockSize file.bytes := by
  obtain ⟨offset, hoffset⟩ := Option.isSome_iff_exists.mp hsound.through.sought
  rw [total_server hsound.measured hoffset, hsound.counted offset hoffset]

theorem Sound.describes (hsound : source.Sound file bytes) :
    (source.server order md5 path group port id).fileInfo.Describes order md5 file.bytes := by
  refine ⟨?_, hsound.total⟩
  rw [server, hsound.measured]
  change (md5 (FileInfo.digested (some file))).hexDigest = _
  rw [FileInfo.digested_of_readThrough hsound.through]

theorem Sound.supplied (hsound : source.Sound file bytes) :
    (source.server order md5 path group port id).Supplied order bytes := by
  have hserver : source.server order md5 path group port id =
      BlockServer.create order md5 (some bytes) source.measured path group port id := by
    rw [server, hsound.opened]
  refine ⟨?_, ?_, ?_⟩
  · rw [hserver]
    exact ⟨.fresh rfl rfl, by simp [Sliced], rfl, rfl⟩
  · rw [hserver]
    rfl
  · rw [hsound.total]
    exact hsound.whole

/-- A run without failing reads treats a sound source honestly. -/
theorem Sound.honestSource (hsound : source.Sound file bytes) {run : ServerRun}
    (hrun : ServerRun.Readable order (source.server order md5 path group port id) run) :
    run.HonestSource order md5 source := by
  have hsupplied := @Sound.supplied order md5 source file bytes path group port id hsound
  have hwithin := hrun.within hsupplied
  have hfound : ∀ number < (source.server order md5 path group port id).total order,
      slice blockSize bytes (number % 2 ^ 22) ≠ [] := by
    rw [hsound.total]
    exact hsound.found
  refine ⟨Or.inr ⟨⟨file, hsound.measured, hsound.through, ?_⟩, bytes, hsound.opened, ?_⟩, ?_⟩
  · intro message hmem htype
    obtain ⟨posts, hsliced, hposts⟩ := hwithin
    obtain ⟨post, hpost, hbuffer⟩ := hposts _ hmem
    cases post with
    | info =>
        have hform := (infoMessage_wireForm order _).of_buffer hbuffer
        refine ⟨_, hform.getMetadata (M := FileInfo) order, ?_⟩
        rw [FileInfo.load_store]
        exact hsound.describes
    | block number payload =>
        have hlength : payload.length ≤ blockSize := by
          rw [(hsliced number payload (by simpa using hpost)).2, length_slice]
          omega
        have hform := (BlockServer.blockMessage_wireForm _ _ hlength).of_buffer hbuffer
        rw [hform.getType order] at htype
        exact absurd htype (by decide)
  · intro number message hposted
    obtain ⟨hlt, htext⟩ := hrun.payload hsupplied hposted
    exact ⟨htext, hfound number hlt⟩
  · refine ServerRun.neverEmpties_of_fills fun receiver info => ⟨_, fun delivery hposted =>
      ServerRun.fills_of_posted hwithin hfound hposted, ?_⟩
    rintro rfl hzero
    rw [FileInfo.getBlockCount_load] at hzero
    refine ⟨file, hsound.measured, hsound.through, ?_⟩
    have hcount := hsound.total.symm.trans hzero
    apply List.eq_nil_of_length_eq_zero
    rw [blockCount, blockSize] at hcount
    omega

/-! ## A source that is treated honestly -/

section Necessary

variable (hhonest : source.Honest order md5 none)

include hhonest in
/-- Since the announcement is posted, the source is served. -/
theorem Honest.servesBytes {input : ServerInput} {inputs : List ServerInput}
    (hinput : source.Permits input) (hinputs : ∀ input ∈ inputs, source.Permits input)
    {bytes : Bytes} (hposted : bytes ∈ ((ServerRun.start order 40000 none input
      (source.server order md5 [97] 0 9000 9)).steps order inputs).server.posted) :
    ((ServerRun.start order 40000 none input
      (source.server order md5 [97] 0 9000 9)).steps order inputs).ServesBytes
        order md5 source := by
  refine (hhonest [97] 0 9000 9 40000 input inputs hinput hinputs).1.resolve_left ?_
  rintro ⟨_, hnothing⟩
  rw [server] at hposted
  rw [hnothing] at hposted
  contradiction

include hhonest in
/-- The bytes that the server reads for the blocks are where it looks for them. -/
theorem Honest.readBlock (hopened : source.opened = some bytes) {number : ℕ}
    (hlt : number < (source.server order md5 [97] 0 9000 9).total order) :
    (BlockServer.readBlock order false
        ((source.server order md5 [97] 0 9000 9).fileInfo.blockAt order number)
        ((source.server order md5 [97] 0 9000 9).inputAt order number)).1 =
          slice blockSize bytes (number % 2 ^ 22) ∧
      slice blockSize bytes (number % 2 ^ 22) ≠ [] := by
  obtain ⟨message, hposted, htext⟩ := @ServerRun.exists_postedBlock order
    (source.server order md5 [97] 0 9000 9) number (.fresh rfl rfl) rfl rfl
    (by simp [server, BlockServer.create]) hlt
  have hquiet : source.Permits writableServerInput := fun herror => by cases herror
  obtain ⟨_, bytes', hopened', hblocks⟩ := hhonest.servesBytes hquiet
    (fun input hmem => List.eq_of_mem_replicate hmem ▸ hquiet) hposted.1
  cases hopened.symm.trans hopened'
  obtain ⟨hmeant, hne⟩ := hblocks number message hposted
  exact ⟨Except.ok.inj (htext.symm.trans hmeant), hne⟩

include hhonest in
theorem Honest.sound : ∃ file bytes, source.Sound file bytes := by
  have hquiet : source.Permits writableServerInput := fun herror => by cases herror
  have hnone : ∀ input ∈ ([] : List ServerInput), source.Permits input := by simp
  have hannounced := @BlockServer.start_posts order 40000 writableServerInput
    (source.server order md5 [97] 0 9000 9)
  obtain ⟨⟨file, hmeasured, hthrough, hinfos⟩, bytes, hopened, _⟩ :=
    hhonest.servesBytes hquiet hnone hannounced
  -- The announcement gives the number of blocks.
  have htotal : (source.server order md5 [97] 0 9000 9).total order =
      blockCount blockSize file.bytes := by
    have hform := infoMessage_wireForm order (source.server order md5 [97] 0 9000 9)
    obtain ⟨info, hread, hdescribes⟩ := hinfos _ hannounced (hform.getType order)
    rw [hform.getMetadata (M := FileInfo) order, FileInfo.load_store] at hread
    cases hread
    exact hdescribes.count
  refine ⟨file, bytes, hmeasured, hopened, hthrough, ?_, ?_, ?_, ?_⟩
  · intro offset hoffset
    rw [← htotal, total_server hmeasured hoffset]
  · intro number hlt
    exact (hhonest.readBlock hopened (htotal ▸ hlt)).2
  · -- A short block makes the stream fail, and the next one is empty.
    intro number hlt
    have hnext := hhonest.readBlock hopened (htotal ▸ hlt)
    have hfail := BlockServer.fail_of_readBlock (hnext.1 ▸ hnext.2)
    rw [← (hhonest.readBlock hopened (htotal ▸ (Nat.lt_succ_self number).trans hlt)).1]
    exact InStream.length_read_of_fail hfail
  · -- A read that fails leaves an empty block.
    intro hpos
    by_contra hfaulty
    rw [Bool.not_eq_false] at hfaulty
    rw [← htotal] at hpos
    let input : ServerInput := { writableServerInput with readError := true }
    have hposted := @BlockServer.start_posts_block order
      (source.server order md5 [97] 0 9000 9) 40000 input rfl hpos
    rw [show input.readError = true from rfl, BlockServer.readBlock_faulty] at hposted
    obtain ⟨_, bytes', _, hblocks⟩ := hhonest.servesBytes (fun _ => hfaulty) hnone hposted
    obtain ⟨hblock, htext⟩ := ServerRun.postedBlock_of_mem (by decide) (by simp) hposted
    obtain ⟨hmeant, hne⟩ := hblocks 0 _ hblock
    exact hne (Except.ok.inj (hmeant.symm.trans htext))

end Necessary

/-- A source is treated honestly in every run when the socket cannot be opened, or when it
is sound, and only then. -/
theorem honest_iff (order : ByteOrder) (md5 : Bytes → Md5Digest)
    (openError : Option String) (source : SourceOutcome) :
    source.Honest order md5 openError ↔
      openError.isSome = true ∨ ∃ file bytes, source.Sound file bytes := by
  constructor
  · intro hhonest
    cases openError with
    | some error => exact Or.inl rfl
    | none => exact Or.inr hhonest.sound
  · rintro (herror | ⟨file, bytes, hsound⟩)
    · obtain ⟨error, rfl⟩ := Option.isSome_iff_exists.mp herror
      intro path group port id ephemeral input inputs _ _
      rw [ServerRun.steps_of_error rfl inputs]
      refine ⟨Or.inl ⟨⟨_, rfl⟩, rfl⟩, ServerRun.neverEmpties_of_fills fun receiver info =>
        ⟨False, fun delivery hposted => ⟨fun htype hinfo => ?_, fun htype hinfo => ?_⟩, nofun⟩⟩
      · exact List.not_mem_nil (hposted hinfo (by rw [htype]; decide))
      · exact absurd (hposted hinfo (by rw [htype]; decide)) List.not_mem_nil
    · intro path group port id ephemeral input inputs hinput hinputs
      refine hsound.honestSource (ServerRun.readable_of_permits ephemeral openError ?_ hinput
        hinputs)
      rw [hsound.total]
      exact hsound.served

end SourceOutcome

/-- A source that is not there. -/
def missingSource : SourceOutcome := ⟨none, none, false⟩

/-- Its server. -/
def missingServer : ServerRun :=
  ServerRun.start .little 40000 none writableServerInput
    (BlockServer.create .little sampleSite.md5 none none [97] 1 9000 9)

/-- A client whose destination has three bytes. -/
def fullClient : ClientRun :=
  ClientRun.start .little 0 none (BlockClient.create .little 0 9000 7 5
    ((FileStore.empty.create [97]).2.write (FileStore.empty.create [97]).1 0 [1, 2, 3]))

/-- The client reads all that the server has posted, and then a goodbye. -/
def emptiedClient : ClientRun :=
  fullClient.steps .little ((missingServer.server.posted ++
    [(Message.withText .little 9 MessageType.sgoodbye.code
      missingServer.server.fileInfo []).buffer]).map fun bytes =>
        { ready := .ok ⟨true, false⟩
          arrival := .ok (⟨0, 0⟩, bytes)
          env := Environment.plain [116] false
          sendError := none })

/-- The missing source is announced and served, and an empty file takes the place of the
client's. -/
theorem missingServer_not_honest :
    ¬ missingServer.HonestSource .little sampleSite.md5 missingSource ∧
      fullClient.client.files.file? [97] = some [1, 2, 3] ∧
      emptiedClient.client.files.file? [97] = some [] := by
  refine ⟨?_, by decide +kernel, by decide +kernel⟩
  rintro ⟨⟨_, hnothing⟩ | ⟨⟨file, hmeasured, _⟩, _⟩, _⟩
  · have hposts := @BlockServer.start_posts .little 40000 writableServerInput
      (BlockServer.create .little sampleSite.md5 none none [97] 1 9000 9)
    rw [missingServer] at hnothing
    rw [hnothing] at hposts
    exact List.not_mem_nil hposts
  · contradiction

end Multisync
