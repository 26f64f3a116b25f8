import Multisync.ClientRuns
import Multisync.ServerRuns
import Mathlib.Tactic

/-!
# Do the two ends agree on the formats?

The client only ever queues hellos and goodbyes, the server only announcements
and blocks.  Each of these but the client's goodbye carries the metadata its
handler asks for: the goodbye is built without any, while its handler asks for
the host.
-/

namespace Multisync

open ByteLayout Effects

/-- `Message header size mismatch`. -/
def Fault.IsMismatch (fault : Fault) : Prop :=
  ∃ expected received, fault = .headerSizeMismatch expected received

/-- The receiver's check accepts the bytes, and processing them throws no
mismatch. -/
def BlockServer.Understands (order : ByteOrder) (server : BlockServer)
    (message : Message) : Prop :=
  (Message.received receiveReserve message.buffer).Framed order ∧
    ∀ (input : ServerInput) (sender : Address) (fault : Fault)
      (server' : BlockServer),
      input.arrival = .ok (sender, message.buffer) →
      BlockServer.processMessage order input server = .error fault server' →
        ¬ fault.IsMismatch

def BlockClient.Understands (order : ByteOrder) (client : BlockClient)
    (message : Message) : Prop :=
  (Message.received receiveReserve message.buffer).Framed order ∧
    ∀ (input : ClientInput) (sender : Address) (fault : Fault)
      (client' : BlockClient),
      input.arrival = .ok (sender, message.buffer) →
      BlockClient.processMessage order input client = .error fault client' →
        ¬ fault.IsMismatch

/-! ## What is queued -/

/-- A hello with the client's host, or a goodbye with nothing. -/
inductive ClientMessage (order : ByteOrder) (message : Message) : Prop
  | chello {id : UInt32} (info : HostInfo)
      (hform : WireForm order id MessageType.chello.code
        (Message.metadataImage order info) [] message)
  | cgoodbye {id : UInt32}
      (hform : WireForm order id MessageType.cgoodbye.code [] [] message)

/-- The announcement of a path, or a block of at most `blockSize` bytes. -/
inductive ServerMessage (order : ByteOrder) (path : Bytes) (message : Message) :
    Prop
  | info {id : UInt32} (info : FileInfo)
      (hform : WireForm order id MessageType.info.code
        (Message.metadataImage order info) path message)
  | block {id : UInt32} {data : Bytes} (i : BlockInfo)
      (hdata : data.length ≤ blockSize)
      (hform : WireForm order id MessageType.block.code
        (Message.metadataImage order i) data message)

theorem chello_wireForm (order : ByteOrder) (id : UInt32) (info : HostInfo) :
    WireForm order id MessageType.chello.code (Message.metadataImage order info) []
      (Message.withMetadata order id MessageType.chello.code info) :=
  WireForm.output_nil (Message.storedOffset_eq order info rfl)

theorem cgoodbye_wireForm (order : ByteOrder) (id : UInt32) :
    WireForm order id MessageType.cgoodbye.code [] []
      (Message.bare order id MessageType.cgoodbye.code) := by
  apply WireForm.output_nil
  rw [order.ntohs_eq_htons (UInt16.ofNat headerSize), order.ntohs_htons]
  rfl

theorem infoMessage_wireForm (order : ByteOrder) (server : BlockServer) :
    WireForm order server.id MessageType.info.code
      (Message.metadataImage order server.fileInfo) server.path
      (server.infoMessage order) :=
  WireForm.output (Message.storedOffset_eq order server.fileInfo rfl)

theorem ClientRun.Reachable.queue {order : ByteOrder} {group : UInt32}
    {port : UInt16} {pid id : UInt32} {files : FileStore Bytes} {run : ClientRun}
    (hrun : ClientRun.Reachable order
      (BlockClient.create order group port pid id files) run) :
    ∀ message ∈ run.client.messageQueue, ClientMessage order message := by
  let P : BlockClient → Prop := fun client =>
    ∀ message ∈ client.messageQueue, ClientMessage order message
  have hpush : ∀ (client : BlockClient) message, P client →
      ClientMessage order message →
        P { client with messageQueue := client.messageQueue ++ [message] } := by
    intro client message hclient hmessage other hother
    rcases List.mem_append.mp hother with hold | hnew
    · exact hclient other hold
    · rw [List.mem_singleton.mp hnew]
      exact hmessage
  have hweak : ∀ client, P client → P client := fun _ hclient => hclient
  refine @ClientRun.Reachable.keeps order P _ _ hrun ?_ ?_ ?_
  · simp [P, BlockClient.create]
  · intro ephemeral openError
    refine Keeps.bind (Triple.zoom ?_ ?_) fun _ _ => Keeps.modify ?_
    · exact fun _ _ _ hclient _ => hclient
    · exact fun _ _ _ hclient _ => hclient
    · exact fun client hclient =>
        hpush client _ hclient (.chello _ (chello_wireForm order _ _))
  · intro input
    apply Endpoint.select_keeps hweak
    · apply BlockClient.processMessage_keeps hweak
      · exact fun client hclient _ => hclient
      · intro message address
        apply BlockClient.handle_keeps_of_records
        · exact fun client hclient _ _ _ => hclient
        · exact fun client hclient =>
            hpush client _ hclient (.cgoodbye (cgoodbye_wireForm order _))
    · apply Endpoint.sendFront_keeps hweak
      · intro client message rest socket hqueue hclient _ other hother
        apply hclient other
        rw [show client.messageQueue = message :: rest from hqueue]
        exact List.mem_cons_of_mem message hother
      · exact fun client _ _ _ _ _ hclient _ => hclient

theorem ServerRun.Reachable.queue {order : ByteOrder} {server : BlockServer}
    {run : ServerRun} (hrun : ServerRun.Reachable order server run)
    (hqueue : server.messageQueue = []) :
    run.server.path = server.path ∧
      ∀ message ∈ run.server.messageQueue,
        ServerMessage order server.path message := by
  let P : BlockServer → Prop := fun current =>
    current.path = server.path ∧
      ∀ message ∈ current.messageQueue, ServerMessage order server.path message
  have hpush : ∀ (current : BlockServer) message input, P current →
      ServerMessage order server.path message →
        P { current with
          messageQueue := current.messageQueue ++ [message]
          input := input } := by
    intro current message input hcurrent hmessage
    refine ⟨hcurrent.1, fun other hother => ?_⟩
    rcases List.mem_append.mp hother with hold | hnew
    · exact hcurrent.2 other hold
    · rw [List.mem_singleton.mp hnew]
      exact hmessage
  have hweak : ∀ current, P current → P current := fun _ hcurrent => hcurrent
  have hinfo : ∀ current : BlockServer, P current →
      P { current with
        messageQueue := current.messageQueue ++ [current.infoMessage order] } := by
    intro current hcurrent
    have hform := infoMessage_wireForm order current
    rw [hcurrent.1] at hform
    exact hpush current _ current.input hcurrent (.info _ hform)
  have henqueue : ∀ readError error i,
      Keeps P P (BlockServer.enqueueBlock order readError error i) := by
    intro readError error i
    apply BlockServer.enqueueBlock_keeps hweak
    intro current hcurrent data input hdata
    exact hpush current _ input hcurrent
      (.block i hdata (BlockServer.blockMessage_wireForm current.id i hdata))
  refine @ServerRun.Reachable.keeps order P _ _ hrun ?_ ?_ ?_
  · simp [P, hqueue]
  · intro ephemeral openError input
    apply BlockServer.start_keeps hweak
    · exact fun current hcurrent _ => hcurrent
    · exact hinfo
    · exact fun i => henqueue _ _ i
  · intro input phase
    apply BlockServer.resume_keeps hweak
    · apply BlockServer.processMessage_keeps hweak
      · exact fun current hcurrent _ => hcurrent
      · exact fun current hcurrent _ _ => hcurrent
      · intro message
        apply BlockServer.handle_keeps hweak
        · exact fun current hcurrent _ => hcurrent
        · exact hinfo
        · exact fun i => henqueue _ _ i
    · apply Endpoint.sendFront_keeps hweak
      · intro current message rest socket hqueue hcurrent _
        refine ⟨hcurrent.1, fun other hother => hcurrent.2 other ?_⟩
        rw [show current.messageQueue = message :: rest from hqueue]
        exact List.mem_cons_of_mem message hother
      · exact fun current _ _ _ _ _ hcurrent _ => hcurrent
    · exact fun i => henqueue _ _ i

/-! ## What is understood -/

/-- A message that fits arrives with its form. -/
theorem WireForm.received {sender : ByteOrder} {id type : UInt32}
    {metadata payload : Bytes} {message : Message}
    (hform : WireForm sender id type metadata payload message)
    (hsize : headerSize + metadata.length + payload.length ≤ 4112) :
    WireForm sender id type metadata payload
      (Message.received receiveReserve message.buffer) := by
  apply hform.of_buffer
  apply Message.received_buffer
  rw [hform.length_buffer]
  exact hsize

/-- The first bytes of a message arrive in any case. -/
theorem WireForm.header_received {sender : ByteOrder} {id type : UInt32}
    {metadata payload : Bytes} {message : Message}
    (hform : WireForm sender id type metadata payload message) (receiver : ByteOrder) :
    (Message.received receiveReserve message.buffer).header receiver =
      message.header receiver := by
  have hlength : headerSize ≤ message.buffer.length := by
    rw [hform.length_buffer]
    omega
  have hwindow : window (message.buffer.take (receiveReserve + headerSize)) 0 headerSize =
      window message.buffer 0 headerSize := by
    rw [window_eq_of_le (by rw [List.length_take]; omega), window_eq_of_le (by omega),
      List.drop_zero, List.drop_zero, List.take_take]
    rfl
  simp only [Message.header, Message.received, hwindow]

theorem WireForm.getType_received {sender : ByteOrder} {id type : UInt32}
    {metadata payload : Bytes} {message : Message}
    (hform : WireForm sender id type metadata payload message) (receiver : ByteOrder) :
    (Message.received receiveReserve message.buffer).getType receiver = type := by
  rw [← hform.getType receiver, Message.getType, Message.getType, hform.header_received]

/-- And so does the metadata, whatever follows it. -/
theorem WireForm.getMetadata_received {sender : ByteOrder} {id type : UInt32} {M : Type}
    [Metadata M] {info : M} {payload : Bytes} {message : Message}
    (hform : WireForm sender id type (Message.metadataImage sender info) payload message)
    (hsize : (Metadata.layout M).metadataHeaderSize ≤ 4112) (receiver : ByteOrder) :
    (Message.received receiveReserve message.buffer).getMetadata receiver M =
      .ok (Metadata.load receiver (Metadata.store sender info)) := by
  have hlayout := (Metadata.layout M).headerSize_le_metadataOffset
  have hbound := (Metadata.layout M).metadata_le
  have himage := Message.length_metadataImage sender info
  have hoffset : (Message.received receiveReserve message.buffer).getOffset receiver =
      headerSize + (Message.metadataImage sender info).length := by
    rw [← hform.getOffset receiver, Message.getOffset, Message.getOffset,
      hform.header_received]
  obtain ⟨offset, _, hmessage⟩ := hform
  rw [Message.output_buffer] at hmessage
  have hbuffer : (Message.received receiveReserve message.buffer).buffer =
      Header.store sender ⟨sender.htonl type, sender.htonl (UInt32.ofNat payload.length),
          sender.htonl id, offset⟩ ++
        (Message.metadataImage sender info ++
          payload.take (4112 - headerSize - (Message.metadataImage sender info).length)) := by
    change message.buffer.take 4112 = _
    rw [hmessage, List.take_append, List.take_append, Header.length_store,
      List.take_of_length_le (by rw [Header.length_store]; omega),
      List.take_of_length_le (by omega)]
  exact Message.getMetadata_eq receiver sender hbuffer (by omega)

/-- The program throws no mismatch. -/
def NoMismatch {σ α : Type} (program : EStateM Fault σ α) : Prop :=
  Triple (fun _ => True) program (fun _ _ => True) fun fault _ => ¬ fault.IsMismatch

section NoMismatch

variable {σ α β : Type}

theorem NoMismatch.bind {program : EStateM Fault σ α} {next : α → EStateM Fault σ β}
    (hprogram : NoMismatch program) (hnext : ∀ value, NoMismatch (next value)) :
    NoMismatch (program >>= next) :=
  Triple.bind hprogram hnext

theorem NoMismatch.pure (value : α) :
    NoMismatch (pure value : EStateM Fault σ α) := fun _ _ => trivial

theorem NoMismatch.get : NoMismatch (get : EStateM Fault σ σ) :=
  fun _ _ => trivial

theorem NoMismatch.modify (f : σ → σ) :
    NoMismatch (modify f : EStateM Fault σ PUnit) := fun _ _ => trivial

theorem NoMismatch.throw {fault : Fault} (hfault : ¬ fault.IsMismatch) :
    NoMismatch (throw fault : EStateM Fault σ α) := fun _ _ => hfault

theorem NoMismatch.ofResult {result : Except Fault α}
    (herror : ∀ fault, result = .error fault → ¬ fault.IsMismatch) :
    NoMismatch (ofResult result : EStateM Fault σ α) :=
  Triple.ofResult (fun _ _ _ _ => trivial) fun fault hresult _ _ =>
    herror fault hresult

theorem NoMismatch.ite {condition : Prop} [Decidable condition]
    {yes no : EStateM Fault σ α} (hyes : NoMismatch yes) (hno : NoMismatch no) :
    NoMismatch (if condition then yes else no) :=
  Triple.ite (fun _ => hyes) fun _ => hno

theorem not_isMismatch_undefined : ¬ Fault.undefined.IsMismatch := by
  rintro ⟨_, _, heq⟩
  contradiction

theorem not_isMismatch_writeFailed (error : String) :
    ¬ (Fault.writeFailed error).IsMismatch := by
  rintro ⟨_, _, heq⟩
  contradiction

end NoMismatch

theorem getText_noMismatch {σ : Type} (order : ByteOrder) (message : Message) :
    NoMismatch (ofResult (message.getText order) : EStateM Fault σ Bytes) := by
  apply NoMismatch.ofResult
  intro fault herror
  have hundefined : fault = .undefined := by
    unfold Message.getText Message.textExtent Message.fetch at herror
    split_ifs at herror with hoffset
    · simp only [bind, Except.bind] at herror
      split_ifs at herror
      exact (Except.error.inj herror).symm
    · exact (Except.error.inj herror).symm
  rw [hundefined]
  exact not_isMismatch_undefined

theorem insert_noMismatch (order : ByteOrder) (message : Message)
    (limit : Option ℕ) (error : String) :
    NoMismatch (message.insert order limit error) := by
  refine (getText_noMismatch order message).bind fun payload => ?_
  refine (NoMismatch.modify _).bind fun _ => NoMismatch.get.bind fun state => ?_
  exact NoMismatch.ite (NoMismatch.throw (not_isMismatch_writeFailed error))
    (NoMismatch.pure _)

theorem writeBlock_noMismatch (order : ByteOrder) (env : Environment) (block : ℕ)
    (message : Message) :
    NoMismatch (SyncStatus.writeBlock order env block message) := by
  refine NoMismatch.get.bind fun state => ?_
  split
  · exact NoMismatch.throw not_isMismatch_undefined
  · exact NoMismatch.pure _
  · refine (NoMismatch.modify _).bind fun _ => ?_
    refine NoMismatch.bind ?_ fun _ => NoMismatch.modify _
    have hinsert := insert_noMismatch order message env.writeLimit env.error
    apply Triple.zoom
    · exact fun _ _ _ _ _ => trivial
    · exact fun state fault inner _ herror => hinsert.error trivial herror

theorem syncComplete_noMismatch (outcome : PublishOutcome) :
    NoMismatch (SyncStatus.syncComplete outcome) := by
  refine NoMismatch.get.bind fun state => ?_
  refine NoMismatch.ite ?_ (NoMismatch.pure _)
  refine NoMismatch.get.bind fun state => ?_
  refine NoMismatch.ite ?_ (NoMismatch.pure _)
  refine (NoMismatch.modify _).bind fun _ => (NoMismatch.modify _).bind fun _ => ?_
  exact NoMismatch.pure _

namespace BlockClient

variable {order : ByteOrder} {env : Environment} {address : Address}

theorem onStatus_noMismatch {α : Type} {info : FileInfo}
    {program : EStateM Fault StatusState α} (hprogram : NoMismatch program) :
    NoMismatch (onStatus info program) := by
  apply onStatus_triple
  · exact fun _ _ _ => not_isMismatch_undefined
  · exact fun _ _ _ _ _ _ _ => trivial
  · exact fun _ _ _ _ _ _ herror => hprogram.error trivial herror

theorem getSyncStatus_noMismatch (info : FileInfo) :
    NoMismatch (getSyncStatus order env info address) := by
  refine NoMismatch.get.bind fun client => ?_
  split
  · exact NoMismatch.pure _
  · refine NoMismatch.bind ?_ fun _ => NoMismatch.modify _
    apply NoMismatch.ofResult
    intro fault herror
    unfold SyncStatus.create at herror
    split_ifs at herror
    rw [← Except.error.inj herror]
    exact not_isMismatch_undefined

/-- The last lines of the handlers of announcements and blocks. -/
theorem finish_noMismatch (info : FileInfo) :
    NoMismatch (onStatus info (SyncStatus.syncComplete env.first) >>= fun complete =>
      if complete then eraseStatus info else pure ()) := by
  refine (onStatus_noMismatch (syncComplete_noMismatch env.first)).bind
    fun complete => ?_
  exact NoMismatch.ite (NoMismatch.modify _) (NoMismatch.pure _)

theorem handleInfo_noMismatch {message : Message} {info : FileInfo}
    (hinfo : message.getMetadata order FileInfo = .ok info) :
    NoMismatch (handleInfo order env message address) := by
  unfold handleInfo
  rw [hinfo]
  refine NoMismatch.bind (NoMismatch.pure info) fun info => ?_
  refine (getSyncStatus_noMismatch info).bind fun _ => ?_
  refine (getText_noMismatch order message).bind fun text => ?_
  refine (onStatus_noMismatch (NoMismatch.modify _)).bind fun _ => ?_
  exact finish_noMismatch info

theorem handleBlock_noMismatch {message : Message} {block : BlockInfo}
    (hblock : message.getMetadata order BlockInfo = .ok block) :
    NoMismatch (handleBlock order env message address) := by
  unfold handleBlock
  rw [hblock]
  refine NoMismatch.bind (NoMismatch.pure block) fun block => ?_
  refine (getSyncStatus_noMismatch _).bind fun _ => ?_
  refine (onStatus_noMismatch (writeBlock_noMismatch order env _ message)).bind
    fun _ => ?_
  exact finish_noMismatch _

theorem understands_of_handle {client : BlockClient} {message : Message}
    (hnil : message.buffer ≠ [])
    (hframed : (Message.received receiveReserve message.buffer).Framed order)
    (hhandle : ∀ env address, NoMismatch (handle order env
      (Message.received receiveReserve message.buffer) address)) :
    client.Understands order message := by
  refine ⟨hframed, ?_⟩
  intro input sender fault client' harrival herror
  have hreceive := BlockSocket.receive_framed hnil hframed sender client.socket
  rw [← harrival] at hreceive
  rw [processMessage_of_received hreceive] at herror
  exact (hhandle _ _).error trivial herror

end BlockClient

/-- A client that gets a server's message reads the metadata its handler wants. -/
theorem ServerMessage.understood {order receiver : ByteOrder} {path : Bytes}
    {message : Message} (hmessage : ServerMessage order path message)
    (hpath : path.length ≤ 4056) (client : BlockClient) :
    client.Understands receiver message := by
  cases hmessage with
  | info info hform =>
      have hlength : (Message.metadataImage order info).length = 40 := by
        rw [Message.length_metadataImage]
        rfl
      have hreceived := hform.received (by rw [hlength, headerSize]; omega)
      apply BlockClient.understands_of_handle
      · exact hform.buffer_ne_nil
      · exact hreceived.framed (by omega) receiver
      · intro env address
        unfold BlockClient.handle
        rw [if_pos (hreceived.getType receiver)]
        exact BlockClient.handleInfo_noMismatch (hreceived.getMetadata receiver)
  | block i hdata hform =>
      have hlength : (Message.metadataImage order i).length = 44 := by
        rw [Message.length_metadataImage]
        rfl
      rw [blockSize] at hdata
      have hreceived := hform.received (by rw [hlength, headerSize]; omega)
      have htype := hreceived.getType receiver
      apply BlockClient.understands_of_handle
      · exact hform.buffer_ne_nil
      · exact hreceived.framed (by omega) receiver
      · intro env address
        unfold BlockClient.handle
        rw [htype, if_neg (by decide), if_pos rfl]
        exact BlockClient.handleBlock_noMismatch (hreceived.getMetadata receiver)

/-- The server finds the host in a hello, and nothing to find in a goodbye. -/
theorem ClientMessage.understood_iff {order receiver : ByteOrder}
    {message : Message} (hmessage : ClientMessage order message)
    (server : BlockServer) :
    server.Understands receiver message ↔
      message.getType order ≠ MessageType.cgoodbye.code := by
  cases hmessage with
  | chello info hform =>
      have hlength : (Message.metadataImage order info).length = 4 := by
        rw [Message.length_metadataImage]
        rfl
      have hreceived := hform.received (by rw [hlength, headerSize]; simp)
      have hframed := hreceived.framed (by simp) receiver
      apply iff_of_true
      · refine ⟨hframed, ?_⟩
        intro input sender fault server' harrival herror
        have hreceive := BlockSocket.receive_framed hform.buffer_ne_nil hframed
          sender server.socket
        rw [← harrival] at hreceive
        rw [BlockServer.processMessage_of_received hreceive] at herror
        simp [BlockServer.handle, hreceived.getType receiver,
          BlockServer.handleChello, BlockServer.insertHost, bind_apply,
          hreceived.getMetadata receiver] at herror
      · rw [hform.getType order]
        decide
  | cgoodbye hform =>
      have hreceived := hform.received (by simp [headerSize])
      have hframed := hreceived.framed (by simp) receiver
      apply iff_of_false
      · rintro ⟨_, hunderstood⟩
        have hreceive := BlockSocket.receive_framed hform.buffer_ne_nil hframed
          ⟨0, 0⟩ server.socket
        let input : ServerInput :=
          ⟨.ok ⟨true, false⟩, .ok (⟨0, 0⟩, message.buffer), none, false, false, ""⟩
        have hoffset := hreceived.getOffset receiver
        have hmismatch := @Message.getMetadata_mismatch receiver HostInfo _
          (Message.received receiveReserve message.buffer) (by rw [hoffset]; decide)
        have herror := @BlockServer.processMessage_of_received receiver input
          _ _ _ hreceive
        simp [BlockServer.handle, hreceived.getType receiver,
          MessageType.code, BlockServer.handleCgoodbye, bind_apply,
          hmismatch] at herror
        exact hunderstood input _ _ _ rfl herror ⟨_, _, rfl⟩
      · rw [hform.getType order]
        simp

/-- Whatever either end has queued at some point of its run, the other end
understands at every point of its own, unless it is a client's goodbye. -/
theorem understands_iff {clientOrder serverOrder : ByteOrder}
    {md5 : Bytes → Md5Digest} {opened : Option Bytes} {measured : Option FileSource}
    {path : Bytes} {group : UInt32} {port : UInt16} {pid clientId serverId : UInt32}
    {files : FileStore Bytes} {clientRun : ClientRun} {serverRun : ServerRun}
    (hclient : ClientRun.Reachable clientOrder
      (BlockClient.create clientOrder group port pid clientId files) clientRun)
    (hserver : ServerRun.Reachable serverOrder
      (BlockServer.create serverOrder md5 opened measured path group port serverId)
      serverRun)
    (hpath : path.length ≤ 4056) :
    (∀ message ∈ clientRun.client.messageQueue,
      serverRun.server.Understands serverOrder message ↔
        message.getType clientOrder ≠ MessageType.cgoodbye.code) ∧
    (∀ message ∈ serverRun.server.messageQueue,
      clientRun.client.Understands clientOrder message ↔
        message.getType serverOrder ≠ MessageType.cgoodbye.code) := by
  constructor
  · intro message hmessage
    exact (hclient.queue message hmessage).understood_iff serverRun.server
  · intro message hmessage
    have hkind := (hserver.queue rfl).2 message hmessage
    refine iff_of_true (hkind.understood hpath clientRun.client) ?_
    cases hkind with
    | info info hform =>
        rw [hform.getType serverOrder]
        decide
    | block i hdata hform =>
        rw [hform.getType serverOrder]
        decide

def emptyFile : FileInfo :=
  { sampleFile with numBlocks := 0 }

/-- A wait that ends with one datagram to read. -/
def readInput (message : Message) : ClientInput where
  ready := .ok ⟨true, false⟩
  arrival := .ok (⟨0, 0⟩, message.buffer)
  env := Environment.plain [116] false
  sendError := none

/-- A client that hears of an empty file, and of its end. -/
def goodbyeRun : ClientRun :=
  ((ClientRun.start .little 0 none
      (BlockClient.create .little 0 0 7 5 FileStore.empty)).step .little
    (readInput (Message.withText .little 9 MessageType.info.code emptyFile [97]))).step
      .little
    (readInput (Message.withText .little 9 MessageType.sgoodbye.code emptyFile
      (ByteOrder.little.store32 5)))

def zeroDigest : Md5Digest :=
  ⟨List.replicate 16 0, by decide⟩

def startedServer : ServerRun :=
  ServerRun.start .big 40000 none ⟨.ok ⟨false, true⟩, .error "", none, false, false, ""⟩
    (BlockServer.create .big (fun _ => ⟨List.replicate 16 0, by decide⟩) (some [])
      (some (.regular [])) [97] 0 0 9)

theorem goodbyeRun_reachable : ClientRun.Reachable .little
    (BlockClient.create .little 0 0 7 5 FileStore.empty) goodbyeRun :=
  .step (.step (.start 0 none) _) _

theorem startedServer_reachable : ServerRun.Reachable .big
    (BlockServer.create .big (fun _ => ⟨List.replicate 16 0, by decide⟩) (some [])
      (some (.regular [])) [97] 0 0 9) startedServer :=
  .start 40000 none _

theorem goodbyeRun_understands :
    (∀ message ∈ goodbyeRun.client.messageQueue,
      startedServer.server.Understands .big message ↔
        message.getType .little ≠ MessageType.cgoodbye.code) ∧
    (∀ message ∈ startedServer.server.messageQueue,
      goodbyeRun.client.Understands .little message ↔
        message.getType .big ≠ MessageType.cgoodbye.code) :=
  understands_iff goodbyeRun_reachable startedServer_reachable (by decide)

/-- The goodbye that the empty file leads to is not understood. -/
theorem goodbye_not_understood :
    ¬ ∀ (clientRun : ClientRun) (serverRun : ServerRun),
      ClientRun.Reachable .little
        (BlockClient.create .little 0 0 7 5 FileStore.empty) clientRun →
      ServerRun.Reachable .big
        (BlockServer.create .big (fun _ => ⟨List.replicate 16 0, by decide⟩)
          (some []) (some (.regular [])) [97] 0 0 9) serverRun →
      ∀ message ∈ clientRun.client.messageQueue,
        serverRun.server.Understands .big message := by
  intro hall
  have htypes : goodbyeRun.client.messageQueue.map (Message.getType .little) =
      [MessageType.chello.code, MessageType.cgoodbye.code] := by
    decide +kernel
  have hmem : MessageType.cgoodbye.code ∈
      goodbyeRun.client.messageQueue.map (Message.getType .little) := by
    simp [htypes]
  obtain ⟨message, hmessage, htype⟩ := List.mem_map.mp hmem
  have hkind := goodbyeRun_reachable.queue message hmessage
  exact hkind.understood_iff startedServer.server |>.mp
    (hall _ _ goodbyeRun_reachable startedServer_reachable message hmessage) htype

end Multisync
