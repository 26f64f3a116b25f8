import Multisync.BlockAccounting
import Multisync.ServerTraffic
import Mathlib.Tactic

/-!
# Nobody stops another

What servers and clients send makes none of them throw, however it is lost, repeated or
reordered: a party of a closed network that has stopped was stopped by a call of the
system, or by a file that could not be written.
-/

namespace Multisync

open ByteLayout Effects BlockAssembly

namespace Endpoint

variable {σ : Type} {endpoint : Endpoint σ} {order : ByteOrder} {P : σ → Prop}
  {F : Fault → Prop} {sendError : Option String}

/-- Everything in the queue can be sent. -/
def Sendable (endpoint : Endpoint σ) (order : ByteOrder) (state : σ) : Prop :=
  ∀ message ∈ endpoint.messageQueue state, message.Framed order ∧ message.buffer ≠ []

theorem sendFront_faults (hsystem : ∀ error, F (.system error))
    (hsendable : ∀ state, P state → endpoint.Sendable order state) :
    Triple (fun state => P state ∧ endpoint.messageQueue state ≠ [])
      (endpoint.sendFront order sendError) (fun _ _ => True) fun fault _ => F fault := by
  rintro state ⟨hstate, hne⟩
  obtain ⟨message, rest, hqueue⟩ := List.exists_cons_of_ne_nil hne
  have hfront : message ∈ endpoint.messageQueue state := by
    rw [hqueue]
    exact List.mem_cons_self
  obtain ⟨hframed, hnonempty⟩ := hsendable state hstate message hfront
  rw [sendFront_of_cons hqueue, BlockSocket.send_framed order hframed hnonempty]
  cases sendError with
  | some error => exact hsystem error
  | none => trivial

/-- What processing a message may throw, and errors of the system, are all that a call of
`select` may throw, if everything in the queue can be sent. -/
theorem select_faults {ready : Except String Ready} {processMessage : EStateM Fault σ Unit}
    (hsystem : ∀ error, F (.system error))
    (hsendable : ∀ state, P state → endpoint.Sendable order state)
    (hqueue : Keeps (fun state => endpoint.messageQueue state ≠ []) (fun _ => True)
      processMessage)
    (hprocess : Triple P processMessage (fun _ => P) fun fault _ => F fault) :
    Triple P (endpoint.select order ready processMessage sendError)
      (fun _ _ => True) fun fault _ => F fault := by
  cases ready with
  | error error => exact fun _ _ => hsystem error
  | ok ready =>
      apply select_triple
      · exact fun _ => hprocess
      · exact fun _ _ hstate => hstate
      · exact hqueue
      · exact sendFront_faults hsystem hsendable
      · exact fun _ _ => trivial

end Endpoint

/-- A datagram of this kind disturbs no server and no client, whatever their state. -/
structure Harmless (bytes : Bytes) : Prop where
  typed : Typed spoken bytes
  nonempty : bytes ≠ []
  server : ∀ (order : ByteOrder) (server : BlockServer),
    server.Tolerates order (Message.received receiveReserve bytes)
  client : ∀ (order : ByteOrder) (client : BlockClient),
    client.Tolerates order (Message.received receiveReserve bytes)

/-! ## The server -/

namespace BlockServer

variable {order : ByteOrder} {initial server final : BlockServer} {source : Bytes}
  {posts : List Post} {input : ServerInput} {phase : ServerPhase} {fault : Fault}

theorem processMessage_faults {stream : InStream}
    (hbrought : Network.Brought Harmless input.arrival) :
    Triple (fun server => Serves order initial posts server ∧ server.input = stream)
      (processMessage order input)
      (fun _ server => Serves order initial posts server ∧ server.input = stream)
      fun fault _ => ∃ error, fault = .system error := by
  intro server hserver
  cases hrun : processMessage order input server with
  | ok value final =>
      have hkeeps := @processMessage_serves order initial posts input (fun _ => True) stream
        (fun _ _ => trivial) fun datagram harrival => (hbrought datagram harrival).typed
      exact hkeeps.ok hserver hrun
  | error fault final =>
      cases harrival : input.arrival with
      | error error =>
          have hreceive := BlockSocket.receive_failed order receiveReserve error server.socket
          rw [← harrival] at hreceive
          rw [processMessage_of_failed hreceive] at hrun
          cases hrun
          exact ⟨error, rfl⟩
      | ok datagram =>
          have hharmless := hbrought datagram harrival
          obtain ⟨⟨final', hok⟩, _⟩ :=
            (undisturbed_iff harrival hharmless.nonempty).mpr (hharmless.server order server)
          rw [hok] at hrun
          contradiction

theorem processMessage_queued :
    Keeps (fun server => endpoint.messageQueue server ≠ []) (fun _ => True)
      (processMessage order input) := by
  have hweak : ∀ server : BlockServer, server.messageQueue ≠ [] → True :=
    fun _ _ => trivial
  apply processMessage_keeps hweak
  · exact fun _ hserver _ => hserver
  · exact fun _ hserver _ _ => hserver
  · intro message
    apply handle_keeps hweak
    · exact fun _ hserver _ => hserver
    · exact fun _ _ => by simp
    · exact fun _ => enqueueBlock_keeps hweak fun _ _ _ _ _ => by simp

theorem select_faults {stream : InStream} (hpath : initial.path.length < 2 ^ 32)
    (hbrought : Network.Brought Harmless input.arrival) :
    Triple (fun server => Serves order initial posts server ∧ server.input = stream)
      (select order input) (fun _ _ => True)
      fun fault _ => ∃ error, fault = .system error := by
  apply Endpoint.select_faults (F := fun fault => ∃ error, fault = .system error)
  · exact fun error => ⟨error, rfl⟩
  · exact fun _ hserver => hserver.1.sendable hpath
  · exact processMessage_queued
  · exact processMessage_faults hbrought

/-- While the source can be read, a wait throws what its call of `select` throws. -/
theorem resume_fault (hread : input.readError = false)
    (hbrought : Network.Brought (Typed spoken) input.arrival)
    (hserver : SlicesAt order initial source phase server)
    (herror : resume order input phase server = .error fault final) :
    ∃ posts, Serves order initial posts server ∧
      select order input server = .error fault final := by
  cases phase with
  | serving i =>
      obtain ⟨posts, _, hslicing, _⟩ := hserver
      refine ⟨posts, hslicing.serves, ?_⟩
      cases hrun : select order input server with
      | error fault' mid =>
          rw [resume, bind_of_error hrun] at herror
          cases herror
          rfl
      | ok value mid =>
          have hmid := (@select_serves order initial posts input server.input hbrought).ok
            ⟨hslicing.serves, rfl⟩ hrun
          obtain ⟨phase', final', hok⟩ := @serveHead_returns order mid input hread
            (hmid.2 ▸ hslicing.bad) (i.succ order)
          rw [resume, bind_of_ok hrun, hok] at herror
          contradiction
  | draining =>
      obtain ⟨posts, hslicing⟩ := hserver
      refine ⟨posts, hslicing.serves, ?_⟩
      cases hrun : select order input server with
      | error fault' mid =>
          rw [resume, bind_of_error hrun] at herror
          cases herror
          rfl
      | ok value mid =>
          rw [resume, bind_of_ok hrun] at herror
          rcases drainHead_apply mid with hmore | ⟨hnone, _⟩
          · rw [hmore] at herror
            contradiction
          · rw [hnone] at herror
            contradiction
  | returned => contradiction

end BlockServer

theorem ServerRun.stopped_ofResult {result : EStateM.Result Fault BlockServer ServerPhase}
    {fault : Fault} (hphase : (ServerRun.ofResult result).phase = .error fault) :
    ∃ final, result = .error fault final := by
  cases result with
  | ok phase final => contradiction
  | error found final =>
      cases hphase
      exact ⟨final, rfl⟩

/-- A step that stops a run does so by what follows the wait. -/
theorem ServerRun.stopped_step {order : ByteOrder} {input : ServerInput} {run : ServerRun}
    {fault : Fault} (hphase : (run.step order input).phase = .error fault) :
    run.phase = .error fault ∨ ∃ phase final, run.phase = .ok phase ∧
      BlockServer.resume order input phase run.server = .error fault final := by
  unfold ServerRun.step at hphase
  split at hphase
  next phase hok =>
    split_ifs at hphase
    · obtain ⟨final, hfinal⟩ := ServerRun.stopped_ofResult hphase
      exact Or.inr ⟨phase, final, hok, hfinal⟩
    · exact Or.inl hphase
  next => exact Or.inl hphase

/-! ## A client -/

namespace BlockClient

variable {order : ByteOrder} {env : Environment} {message : Message} {address : Address}
  {client final : BlockClient} {input : ClientInput} {fault : Fault}

/-- A block that is marked, or whose bytes the message holds, is stored unless it cannot be
written. -/
theorem writeBlock_outcome {info : FileInfo} {status : SyncStatus} {block : ℕ} {mark : Bool}
    (hfind : client.syncSet.find? info = some status)
    (hmark : status.blockArray[block]? = some mark)
    (hwhole : mark = true ∨ message.getOffset order ≤ message.buffer.length) :
    (∃ written status',
      onStatus info (SyncStatus.writeBlock order env block message) client = .ok () written ∧
        written.syncSet.find? info = some status') ∨
      ∃ written error, onStatus info (SyncStatus.writeBlock order env block message) client =
        .error (.writeFailed error) written := by
  cases mark with
  | true => exact Or.inl ⟨client, status, writeBlock_of_marked hfind hmark, hfind⟩
  | false =>
      have htext := Message.getText_eq order (hwhole.resolve_left (by simp))
      rw [onStatus_of_find? hfind, SyncStatus.writeBlock_apply, hmark, htext]
      simp only
      split_ifs
      · exact Or.inr ⟨_, env.error, rfl⟩
      · exact Or.inl ⟨_, _, rfl, find?_putStatus_self hfind _⟩

/-- A tolerated message makes a client throw only if a block of it cannot be written. -/
theorem handle_faults (htolerates : client.Tolerates order message)
    (hquiet : message.getType order ≠ MessageType.sgoodbye.code)
    (hcounted : client.Counted order)
    (herror : handle order env message address client = .error fault final) :
    ∃ error, fault = .writeFailed error := by
  have hcases := htolerates.2
  by_cases hinfo : message.getType order = MessageType.info.code
  · rw [if_pos hinfo] at hcases
    obtain ⟨final', hok⟩ := (@handleInfo_returns_iff order env message address client).mpr hcases
    rw [handle, if_pos hinfo, hok] at herror
    contradiction
  rw [if_neg hinfo] at hcases
  by_cases hblock : message.getType order = MessageType.block.code
  · rw [if_pos hblock] at hcases
    obtain ⟨block, hmetadata, hcases⟩ := hcases
    obtain ⟨mid, status, mark, hget, hfind, hmark, hwhole⟩ : ∃ mid status mark,
        getSyncStatus order env block.fileInfo address client = .ok () mid ∧
          mid.syncSet.find? block.fileInfo = some status ∧
          status.blockArray[(block.getBlock order).toNat]? = some mark ∧
          (mark = true ∨ message.getOffset order ≤ message.buffer.length) := by
      split_ifs at hcases with hle
      · obtain ⟨hhold, hlt⟩ := hcases
        obtain ⟨mid, hget⟩ := @getSyncStatus_returns order env address _ client hhold
        obtain ⟨status, hfind, hlength, _⟩ := hcounted.getSyncStatus hget
        have hinside : (block.getBlock order).toNat < status.blockArray.length := by
          rw [hlength]
          exact UInt32.lt_iff_toNat_lt.mp hlt
        exact ⟨mid, status, _, hget, hfind, List.getElem?_eq_getElem hinside, Or.inr hle⟩
      · obtain ⟨status, hfind, hmark⟩ := hcases
        exact ⟨client, status, true, getSyncStatus_of_find? order hfind env address, hfind,
          hmark, Or.inl rfl⟩
    rw [handle_of_block hblock hmetadata, bind_of_ok hget] at herror
    rcases @writeBlock_outcome order env message mid _ _ _ _ hfind hmark hwhole with
      ⟨written, status', hwrite, hfind'⟩ | ⟨written, error, hwrite⟩
    · obtain ⟨final', hok⟩ := @finish_returns _ written _ env.first hfind'
      rw [bind_of_ok hwrite, hok] at herror
      contradiction
    · rw [bind_of_error hwrite] at herror
      cases herror
      exact ⟨error, rfl⟩
  · rw [handle, if_neg hinfo, if_neg hblock, if_neg hquiet] at herror
    contradiction

theorem handle_sendable (hquiet : message.getType order ≠ MessageType.sgoodbye.code) :
    Keeps (endpoint.Sendable order) (endpoint.Sendable order)
      (handle order env message address) := by
  apply handle_triple_of_quiet hquiet fun _ hclient => hclient
  · exact fun _ _ _ _ _ hclient _ _ => hclient
  · exact fun _ _ _ _ _ hclient _ _ => hclient
  · exact fun _ _ _ _ hclient _ _ => hclient

/-- What may stop a client: the system, or a file. -/
def Stops (fault : Fault) : Prop :=
  (∃ error, fault = .system error) ∨ ∃ error, fault = .writeFailed error

theorem processMessage_faults (hbrought : Network.Brought Harmless input.arrival) :
    Triple (fun client => client.Counted order ∧ endpoint.Sendable order client)
      (processMessage order input)
      (fun _ client => client.Counted order ∧ endpoint.Sendable order client)
      fun fault _ => Stops fault := by
  intro client hclient
  cases harrival : input.arrival with
  | error error =>
      have hreceive := BlockSocket.receive_failed order receiveReserve error client.socket
      rw [← harrival] at hreceive
      rw [processMessage_of_failed hreceive]
      exact Or.inl ⟨error, rfl⟩
  | ok datagram =>
      have hharmless := hbrought datagram harrival
      have hreceive := BlockSocket.receive_framed hharmless.nonempty
        (hharmless.client order client).1 datagram.1 client.socket
      rw [← harrival] at hreceive
      have hquiet := hharmless.typed.ne (show MessageType.sgoodbye ∉ spoken by decide) order
      rw [processMessage_of_received hreceive]
      have hheard : (client.heardFrom datagram.1).Counted order ∧
          endpoint.Sendable order (client.heardFrom datagram.1) := hclient
      cases hrun : handle order input.env (Message.received receiveReserve datagram.2)
          datagram.1 (client.heardFrom datagram.1) with
      | ok value final =>
          simp only [heardFrom] at hrun
          rw [hrun]
          exact ⟨handle_counted.ok hheard.1 hrun, (handle_sendable hquiet).ok hheard.2 hrun⟩
      | error fault final =>
          simp only [heardFrom] at hrun
          rw [hrun]
          exact Or.inr (handle_faults (hharmless.client order _) hquiet hheard.1 hrun)

theorem processMessage_queued :
    Keeps (fun client => endpoint.messageQueue client ≠ []) (fun _ => True)
      (processMessage order input) := by
  have hweak : ∀ client : BlockClient, client.messageQueue ≠ [] → True :=
    fun _ _ => trivial
  apply processMessage_keeps hweak
  · exact fun _ hclient _ => hclient
  · intro message address
    have hkeeps : Keeps (fun client : BlockClient => client.messageQueue ≠ [])
        (fun client => client.messageQueue ≠ []) (handle order input.env message address) := by
      apply handle_keeps_of_records
      · exact fun _ hclient _ _ _ => hclient
      · exact fun _ _ => by simp
    exact hkeeps.weaken (fun _ h => h) (fun _ _ h => h) fun _ _ _ => trivial

theorem select_faults (hbrought : Network.Brought Harmless input.arrival) :
    Triple (fun client => client.Counted order ∧ endpoint.Sendable order client)
      (select order input) (fun _ _ => True) fun fault _ => Stops fault := by
  apply Endpoint.select_faults (F := Stops)
  · exact fun error => Or.inl ⟨error, rfl⟩
  · exact fun _ hclient => hclient.2
  · exact processMessage_queued
  · exact processMessage_faults hbrought

end BlockClient

theorem ClientRun.stopped_ofResult {result : EStateM.Result Fault BlockClient Unit}
    {fault : Fault} (hfault : (ClientRun.ofResult result).fault = some fault) :
    ∃ final, result = .error fault final := by
  cases result with
  | ok value final => contradiction
  | error found final =>
      cases hfault
      exact ⟨final, rfl⟩

theorem ClientRun.stopped_step {order : ByteOrder} {input : ClientInput} {run : ClientRun}
    {fault : Fault} (hfault : (run.step order input).fault = some fault) :
    run.fault = some fault ∨
      ∃ final, BlockClient.select order input run.client = .error fault final := by
  unfold ClientRun.step at hfault
  split at hfault
  next hnone =>
    split_ifs at hfault
    · exact Or.inr (ClientRun.stopped_ofResult hfault)
    · exact Or.inl hfault
  next => exact Or.inl hfault

/-! ## What travels is harmless -/

section Datagrams

variable {sender : ByteOrder} {id : UInt32} {type : MessageType} {metadata payload : Bytes}
  {message : Message}

/-- A server takes no notice of an announcement or a block. -/
theorem WireForm.tolerated
    (hform : WireForm sender id type.code metadata payload message)
    (hsize : headerSize + metadata.length + payload.length ≤ 4112) (hmem : type ∈ announced)
    (order : ByteOrder) (server : BlockServer) :
    server.Tolerates order (Message.received receiveReserve message.buffer) := by
  have htyped := hform.typed hmem
  refine ⟨(hform.received hsize).framed (by omega) order, ?_⟩
  have hne : ∀ other ∉ announced,
      (Message.received receiveReserve message.buffer).getType order ≠ other.code :=
    fun other hother => htyped.ne hother order
  rw [if_neg (hne .chello (by decide)), if_neg (hne .getinfo (by decide)),
    if_neg (hne .getblock (by decide)), if_neg (hne .cgoodbye (by decide))]
  trivial

theorem WireForm.offset_le (hform : WireForm sender id type.code metadata payload message)
    (order : ByteOrder) : message.getOffset order ≤ message.buffer.length := by
  rw [hform.getOffset, hform.length_buffer]
  omega

end Datagrams

theorem BlockClient.hello_harmless (order : ByteOrder) (client : BlockClient) :
    Harmless (client.helloMessage order).buffer := by
  have himage := Message.length_metadataImage order client.info
  have hsize : headerSize + (Message.metadataImage order client.info).length +
      ([] : Bytes).length ≤ 4112 := by
    rw [himage]
    decide
  have hform := @BlockClient.helloMessage_wireForm order client
  have hreceived := hform.received hsize
  refine ⟨hform.typed (by decide), hform.buffer_ne_nil, ?_, ?_⟩
  · intro receiver server
    refine ⟨hreceived.framed (by decide) receiver, ?_⟩
    rw [if_pos (hreceived.getType receiver)]
    exact ⟨_, hreceived.getMetadata (M := HostInfo) receiver, Or.inl (hreceived.offset_le _)⟩
  · intro receiver other
    refine ⟨hreceived.framed (by decide) receiver, ?_⟩
    rw [hreceived.getType receiver]
    simp

namespace BlockServer

variable {order : ByteOrder} {initial : BlockServer} {source : Bytes} {posts : List Post}

theorem ServesFile.digest_nul (hserves : initial.ServesFile order source)
    (receiver : ByteOrder) :
    0 ∈ (Metadata.load receiver (Metadata.store order initial.fileInfo) : FileInfo).digest := by
  obtain ⟨md5, path, group, port, id, rfl⟩ := hserves
  rw [FileInfo.digest_load]
  exact List.mem_append_right _ List.mem_cons_self

theorem ServesFile.info_harmless (hserves : initial.ServesFile order source)
    (hpath : initial.path.length ≤ 4056) : Harmless (initial.infoMessage order).buffer := by
  have himage : (Message.metadataImage order initial.fileInfo).length = 40 :=
    Message.length_metadataImage order initial.fileInfo
  have hsize : headerSize + (Message.metadataImage order initial.fileInfo).length +
      initial.path.length ≤ 4112 := by
    rw [himage, headerSize]
    omega
  have hform := infoMessage_wireForm order initial
  have hreceived := hform.received hsize
  refine ⟨hform.typed (by decide), hform.buffer_ne_nil, hform.tolerated hsize (by decide), ?_⟩
  intro receiver client
  refine ⟨hreceived.framed (by omega) receiver, ?_⟩
  rw [if_pos (hreceived.getType receiver)]
  exact ⟨_, hreceived.getMetadata (M := FileInfo) receiver, hreceived.offset_le _,
    Or.inr (hserves.digest_nul receiver)⟩

theorem ServesFile.block_harmless (hserves : initial.ServesFile order source) {number : ℕ}
    (hlt : number < initial.total order) {payload : Bytes}
    (hpayload : payload.length ≤ blockSize) :
    Harmless (initial.render order (.block number payload)) := by
  let i := initial.fileInfo.blockAt order number
  have hbound := (initial.fileInfo.getBlockCount order).toNat_lt
  have himage : (Message.metadataImage order i).length = 44 :=
    Message.length_metadataImage order i
  have hsize : headerSize + (Message.metadataImage order i).length + payload.length ≤ 4112 := by
    have hblock : blockSize = 1024 := rfl
    rw [himage, headerSize]
    omega
  have hform := @blockMessage_wireForm order initial.id i payload hpayload
  have hreceived := hform.received hsize
  show Harmless (blockMessage order initial.id i payload).buffer
  refine ⟨hform.typed (by decide), hform.buffer_ne_nil, hform.tolerated hsize (by decide), ?_⟩
  intro receiver client
  refine ⟨hreceived.framed (by omega) receiver, ?_⟩
  have htype := hreceived.getType receiver
  rw [if_neg (by simp [htype]), if_pos htype]
  refine ⟨_, hreceived.getMetadata (M := BlockInfo) receiver, ?_⟩
  rw [if_pos (hreceived.offset_le receiver), BlockInfo.fileInfo_load]
  refine ⟨Or.inr (hserves.digest_nul receiver), ?_⟩
  rw [UInt32.lt_iff_toNat_lt, BlockInfo.getBlock_load, FileInfo.getBlockCount_load,
    FileInfo.getBlock_blockAt _ _ (hlt.trans hbound),
    show i.fileInfo = initial.fileInfo from rfl]
  exact hlt

theorem ServesFile.harmless (hserves : initial.ServesFile order source)
    (hpath : initial.path.length ≤ 4056) {server : BlockServer}
    (hwithin : SlicedWithin order initial source server) :
    ∀ bytes ∈ server.posted, Harmless bytes := by
  intro bytes hbytes
  obtain ⟨posts, hsliced, hwithin⟩ := hwithin
  obtain ⟨post, hpost, rfl⟩ := hwithin bytes hbytes
  cases post with
  | info => exact hserves.info_harmless hpath
  | block number payload =>
      obtain ⟨hlt, rfl⟩ := hsliced number payload (hpost.resolve_left (by simp))
      apply hserves.block_harmless hlt
      rw [length_slice]
      omega

end BlockServer

/-! ## The network -/

namespace Network

variable {ι : Type} [DecidableEq ι] {site : Site ι} {conditions : Conditions}
  {net : Network ι} {source : Bytes}

/-- The run of a server that only the system stops. -/
def ServerEndures (site : Site ι) (source : Bytes) (run : ServerRun) : Prop :=
  Slicing site source run ∧
    ∀ fault, run.phase = .error fault → ∃ error, fault = .system error

/-- The run of a client that only the system or a file stops. -/
def ClientEndures (site : Site ι) (i : ι) (run : ClientRun) : Prop :=
  Listening site i run ∧ run.client.Counted (site.clientOrder i) ∧
    ∀ fault, run.fault = some fault → BlockClient.Stops fault

omit [DecidableEq ι] in
theorem Listening.greets {i : ι} {run : ClientRun} (hrun : Listening site i run) {bytes : Bytes}
    (hbytes : bytes ∈ run.client.socket.sent.map Prod.snd ++
      run.client.messageQueue.map Message.buffer) :
    bytes = ((site.client i).helloMessage (site.clientOrder i)).buffer := by
  obtain ⟨hello, _, hgreeting, hposted⟩ := hrun.posted
  rw [hposted] at hbytes
  exact hgreeting bytes hbytes

omit [DecidableEq ι] in
theorem Listening.sendable {i : ι} {run : ClientRun} (hrun : Listening site i run) :
    BlockClient.endpoint.Sendable (site.clientOrder i) run.client := by
  intro message hmessage
  have hform := (@BlockClient.helloMessage_wireForm (site.clientOrder i)
    (site.client i)).of_buffer
      (hrun.greets (List.mem_append_right _ (List.mem_map_of_mem hmessage)))
  exact ⟨hform.framed (by decide) _, hform.buffer_ne_nil⟩

omit [DecidableEq ι] in
theorem contract_endures (hserves : site.server.ServesFile site.serverOrder source)
    (hcount : blockCount blockSize source < 2 ^ 32) (hpath : site.server.path.length ≤ 4056)
    (hread : ∀ input, conditions.serverInput input → input.readError = false) :
    Contract site conditions (ServerEndures site source) (ClientEndures site) Harmless where
  serverStart ephemeral openError input hinput := by
    refine ⟨slicing_start hserves hcount (hread input hinput), fun fault hphase => ?_⟩
    obtain ⟨final, herror⟩ := ServerRun.stopped_ofResult hphase
    exact (BlockServer.start_fault (hread input hinput) hserves.slicing.1.bad herror).1
  serverStep run input hrun hinput hbrought := by
    refine ⟨hrun.1.step hserves hcount (hread input hinput), fun fault hphase => ?_⟩
    rcases ServerRun.stopped_step hphase with hold | ⟨phase, final, hok, herror⟩
    · exact hrun.2 fault hold
    · have hslices := hrun.1.2
      rw [ServerRun.Holds, hok] at hslices
      obtain ⟨posts, hposts, hselect⟩ := BlockServer.resume_fault (hread input hinput)
        (fun datagram harrival => (hbrought datagram harrival).typed) hslices herror
      exact (BlockServer.select_faults (by omega) hbrought).error ⟨hposts, rfl⟩ hselect
  serverSent run hrun datagram hmem :=
    hserves.harmless hpath hrun.1.within _
      (List.mem_append_left _ (List.mem_map_of_mem hmem))
  clientStart i ephemeral openError := by
    refine ⟨(@contract_closed ι site conditions).clientStart i ephemeral openError, ?_,
      fun fault hfault => ?_⟩
    · rw [ClientRun.start, ClientRun.client_ofResult]
      exact (@BlockClient.start_keeps (site.clientOrder i)
        (BlockClient.Counted (site.clientOrder i)) ephemeral openError
        fun _ _ _ hclient => hclient).endState (BlockClient.Counted.of_empty rfl)
    · obtain ⟨final, herror⟩ := ClientRun.stopped_ofResult hfault
      cases openError with
      | none => contradiction
      | some error =>
          cases herror
          exact Or.inl ⟨error, rfl⟩
  clientStep i run input hrun hinput hbrought := by
    obtain ⟨hlistening, hcounted, hstops⟩ := hrun
    refine ⟨(@contract_closed ι site conditions).clientStep i run input hlistening hinput
      fun datagram harrival => (hbrought datagram harrival).typed, ?_, fun fault hfault => ?_⟩
    · refine ClientRun.step_keeps ?_ hcounted
      apply BlockClient.select_keeps
      · exact fun _ _ _ hclient => hclient
      · exact fun _ _ => BlockClient.handle_counted
    · rcases ClientRun.stopped_step hfault with hold | ⟨final, herror⟩
      · exact hstops fault hold
      · exact (BlockClient.select_faults hbrought).error ⟨hcounted, hlistening.sendable⟩ herror
  clientSent i run hrun datagram hmem := by
    rw [hrun.1.greets (List.mem_append_left _ (List.mem_map_of_mem hmem))]
    exact BlockClient.hello_harmless _ _

/-- No party of a closed network is stopped by what another sent: a server stops with an
error of the system, and a client with one, or with a block that it cannot write. -/
theorem Lossy.endures (hserves : site.server.ServesFile site.serverOrder source)
    (hcount : blockCount blockSize source < 2 ^ 32) (hpath : site.server.path.length ≤ 4056)
    (hread : ∀ input, conditions.serverInput input → input.readError = false)
    (hnet : Lossy site conditions empty net) :
    (∀ run fault, net.server = some run → run.phase = .error fault →
      ∃ error, fault = .system error) ∧
    ∀ i run fault, net.clients i = some run → run.fault = some fault →
      (∃ error, fault = .system error) ∨ ∃ error, fault = .writeFailed error := by
  have hkeeping := (contract_endures hserves hcount hpath hread).lossy hnet
  exact ⟨fun run fault hrun => (hkeeping.server run hrun).2 fault,
    fun i run fault hrun => (hkeeping.clients i run hrun).2.2 fault⟩

/-- The disk of the client is full. -/
def fullInput (datagram : Address × Bytes) : ClientInput :=
  { readingInput true datagram with
    env := { (readingInput true datagram).env with writeLimit := some 0 } }

/-- The client cannot store the block. -/
def fullNetwork : Network Unit := twiceNetwork.clientTakes fullInput

theorem lossy_fullNetwork : Lossy fileSite (fresh fileSite) empty fullNetwork :=
  lossy_clientTakes (fun _ => ⟨rfl, rfl⟩) lossy_twiceNetwork (by decide +kernel)
    fun _ _ hrun => fresh_twiceNetwork hrun

theorem fullNetwork_endures : ∃ run fault, fullNetwork.clients () = some run ∧
    run.fault = some fault ∧
      ((∃ error, fault = .system error) ∨ ∃ error, fault = .writeFailed error) := by
  have hstopped : ((fullNetwork.clients ()).bind ClientRun.fault).isSome := by
    decide +kernel
  obtain ⟨fault, hbind⟩ := Option.isSome_iff_exists.mp hstopped
  obtain ⟨run, hrun, hfault⟩ := Option.bind_eq_some_iff.mp hbind
  exact ⟨run, fault, hrun, hfault, (lossy_fullNetwork.endures fileSite_offers.servesFile
    (by decide) fileSite_offers.path_le (fun _ hread => hread)).2 () run fault hrun hfault⟩

end Network

end Multisync
