import Multisync.ClientInvariants
import Multisync.MessageFormats
import Multisync.ServerExit
import Mathlib.Tactic

/-!
# What a datagram can do to either end

An exception from a handler leaves the service loop, so a datagram ends the
program unless its handler returns.  For every datagram and every state between
two messages this says exactly when processing it returns and, if the datagram is
malformed, leaves the tables and the queue as they were.
-/

namespace Multisync

open ByteLayout Effects

/-- The header is inside the buffer, and its offset and its length are those of
the payload. -/
structure Message.Consistent (order : ByteOrder) (message : Message) : Prop where
  header : headerSize ≤ message.buffer.length
  offset : headerSize ≤ message.getOffset order
  offset_le : message.getOffset order ≤ message.buffer.length
  length : (message.getLength order).toNat =
    message.buffer.length - message.getOffset order

/-- The message is consistent and has metadata of every size that the handler of
its type asks for. -/
structure Message.WellFormed (order : ByteOrder) (needs : UInt32 → List Layout)
    (message : Message) : Prop where
  consistent : message.Consistent order
  metadata : ∀ layout ∈ needs (message.getType order),
    message.getOffset order = layout.metadataHeaderSize

/-- The metadata the handlers of the server ask for. -/
def BlockServer.needs (type : UInt32) : List Layout :=
  if type = MessageType.chello.code ∨ type = MessageType.getinfo.code ∨
      type = MessageType.cgoodbye.code then
    [Metadata.layout HostInfo]
  else if type = MessageType.getblock.code then
    [Metadata.layout HostInfo, Metadata.layout BlockInfo]
  else []

/-- The metadata the handlers of the client ask for. -/
def BlockClient.needs (type : UInt32) : List Layout :=
  if type = MessageType.info.code ∨ type = MessageType.sgoodbye.code then
    [Metadata.layout FileInfo]
  else if type = MessageType.block.code then [Metadata.layout BlockInfo]
  else []

/-- Processing the datagram returns, and changes nothing unless it is well
formed. -/
structure BlockServer.Undisturbed (order : ByteOrder) (input : ServerInput)
    (message : Message) (server : BlockServer) : Prop where
  returns : ∃ server', processMessage order input server = .ok () server'
  unchanged : ¬ message.WellFormed order needs →
    (endState (processMessage order input server)).hostInfo = server.hostInfo ∧
    (endState (processMessage order input server)).messageQueue = server.messageQueue

structure BlockClient.Undisturbed (order : ByteOrder) (input : ClientInput)
    (message : Message) (client : BlockClient) : Prop where
  returns : ∃ client', processMessage order input client = .ok () client'
  unchanged : ¬ message.WellFormed order needs →
    (endState (processMessage order input client)).syncSet = client.syncSet ∧
    (endState (processMessage order input client)).messageQueue = client.messageQueue

/-- The messages that do not disturb the server. -/
def BlockServer.Tolerates (order : ByteOrder) (message : Message)
    (server : BlockServer) : Prop :=
  message.Framed order ∧
  if message.getType order = MessageType.chello.code then
    ∃ info, message.getMetadata order HostInfo = .ok info ∧
      (message.getOffset order ≤ message.buffer.length ∨
        server.hostInfo.find? info = some ())
  else if message.getType order = MessageType.getinfo.code then
    ∃ info, message.getMetadata order HostInfo = .ok info ∧
      message.getOffset order ≤ message.buffer.length
  else if message.getType order = MessageType.getblock.code then False
  else if message.getType order = MessageType.cgoodbye.code then
    ∃ info, message.getMetadata order HostInfo = .ok info ∧
      (message.getOffset order ≤ message.buffer.length ∨
        server.hostInfo.find? info = none)
  else True

theorem Message.Framed.consistent {order : ByteOrder} {message : Message}
    (hframed : message.Framed order) (hlt : message.buffer.length < 2 ^ 32)
    (hoffset : headerSize ≤ message.getOffset order)
    (hle : message.getOffset order ≤ message.buffer.length) :
    message.Consistent order where
  header := hoffset.trans hle
  offset := hoffset
  offset_le := hle
  length := hframed.getLength_eq_sub hlt hle

theorem Message.length_received_lt (datagram : Bytes) :
    (Message.received receiveReserve datagram).buffer.length < 2 ^ 32 := by
  have hle : (Message.received receiveReserve datagram).buffer.length ≤
      receiveReserve + headerSize := List.length_take_le _ _
  have hsum : receiveReserve + headerSize = 4112 := rfl
  omega

/-- A message whose metadata is given out is well formed when its offset is not past
the end. -/
theorem Message.wellFormed_iff_of_getMetadata {order : ByteOrder}
    {needs : UInt32 → List Layout} {message : Message} {M : Type} [Metadata M]
    {metadata : M} (hframed : message.Framed order)
    (hlt : message.buffer.length < 2 ^ 32)
    (hok : message.getMetadata order M = .ok metadata)
    (hneeds : needs (message.getType order) = [Metadata.layout M]) :
    message.WellFormed order needs ↔
      message.getOffset order ≤ message.buffer.length := by
  have hoffset := Message.getOffset_of_getMetadata order hok
  have hheader := (Metadata.layout M).headerSize_le_metadataOffset
  have hmetadata := (Metadata.layout M).metadata_le
  constructor
  · exact fun h => h.consistent.offset_le
  · intro hle
    refine ⟨hframed.consistent hlt (by omega) hle, fun layout hlayout => ?_⟩
    rw [hneeds, List.mem_singleton] at hlayout
    rw [hlayout]
    exact hoffset

namespace BlockServer

variable {order : ByteOrder} {input : ServerInput} {message : Message}
  {server : BlockServer}

theorem handleChello_apply :
    handleChello order message server =
      match message.getMetadata order HostInfo with
      | .ok info => .ok ()
          { server with hostInfo := server.hostInfo.insert info () }
      | .error fault => .error fault server := by
  unfold handleChello
  cases message.getMetadata order HostInfo with
  | ok info => rfl
  | error fault => rfl

theorem handleGetinfo_apply :
    handleGetinfo order message server =
      match message.getMetadata order HostInfo with
      | .ok info => .ok () { server with
          hostInfo := server.hostInfo.insert info ()
          messageQueue := server.messageQueue ++ [server.infoMessage order] }
      | .error fault => .error fault server := by
  unfold handleGetinfo
  cases message.getMetadata order HostInfo with
  | ok info => rfl
  | error fault => rfl

theorem handleCgoodbye_apply :
    handleCgoodbye order message server =
      match message.getMetadata order HostInfo with
      | .ok info => .ok ()
          { server with hostInfo := server.hostInfo.erase info }
      | .error fault => .error fault server := by
  unfold handleCgoodbye
  cases message.getMetadata order HostInfo with
  | ok info => rfl
  | error fault => rfl

/-- What the end of processing a received message leaves of the table and of the
queue is what its handler leaves of them. -/
theorem undisturbed_iff_handle {sender : Address} {datagram : Bytes}
    (harrival : input.arrival = .ok (sender, datagram)) (hnil : datagram ≠ [])
    (hmessage : message = Message.received receiveReserve datagram) :
    server.Undisturbed order input message ↔
      message.Framed order ∧ ∃ final,
        handle order input message
          { server with
            socket := { server.socket with sender := sender }
            dispatched := server.dispatched ++ [message] } = .ok () final ∧
          (¬ message.WellFormed order needs →
            final.hostInfo = server.hostInfo ∧
            final.messageQueue = server.messageQueue) := by
  subst hmessage
  have hreceive := BlockSocket.receive_datagram order receiveReserve sender datagram
    server.socket
  rw [if_neg hnil, ← harrival] at hreceive
  by_cases hframed : (Message.received receiveReserve datagram).Framed order
  · rw [if_pos hframed] at hreceive
    have hprocess := processMessage_of_received hreceive
    constructor
    · rintro ⟨⟨server', hok⟩, hunchanged⟩
      refine ⟨hframed, ?_⟩
      rw [hok, endState_ok] at hunchanged
      rw [hok] at hprocess
      cases hhandle : handle order input (Message.received receiveReserve datagram)
          { server with
            socket := { server.socket with sender := sender }
            dispatched := server.dispatched ++
              [Message.received receiveReserve datagram] } with
      | ok value final =>
          rw [hhandle] at hprocess
          cases hprocess
          exact ⟨final, rfl, hunchanged⟩
      | error fault final =>
          rw [hhandle] at hprocess
          contradiction
    · rintro ⟨_, final, hhandle, hunchanged⟩
      rw [hhandle] at hprocess
      constructor
      · exact ⟨_, hprocess⟩
      · rw [hprocess]
        exact hunchanged
  · rw [if_neg hframed] at hreceive
    have hprocess := processMessage_of_failed hreceive
    constructor
    · rintro ⟨⟨server', hok⟩, _⟩
      rw [hprocess] at hok
      contradiction
    · exact fun h => absurd h.1 hframed

/-- A handler that needs the host only leaves the server undisturbed exactly when it
reads the host and the message is whole, or the step it takes spares the server. -/
theorem undisturbed_iff_spares {handler : EStateM Fault BlockServer Unit}
    {current : BlockServer} {after : HostInfo → BlockServer} (spares : HostInfo → Prop)
    (hframed : message.Framed order) (hlt : message.buffer.length < 2 ^ 32)
    (hneeds : needs (message.getType order) = [Metadata.layout HostInfo])
    (happly : handler current = match message.getMetadata order HostInfo with
      | .ok info => .ok () (after info)
      | .error fault => .error fault current)
    (hspares : ∀ info, ((after info).hostInfo = server.hostInfo ∧
      (after info).messageQueue = server.messageQueue) ↔ spares info) :
    (∃ final, handler current = .ok () final ∧
        (¬ message.WellFormed order needs →
          final.hostInfo = server.hostInfo ∧ final.messageQueue = server.messageQueue)) ↔
      ∃ info, message.getMetadata order HostInfo = .ok info ∧
        (message.getOffset order ≤ message.buffer.length ∨ spares info) := by
  rw [happly]
  cases hmetadata : message.getMetadata order HostInfo with
  | error fault => simp
  | ok info =>
      have hiff := Message.wellFormed_iff_of_getMetadata hframed hlt hmetadata hneeds
      constructor
      · rintro ⟨final, hok, hunchanged⟩
        cases hok
        refine ⟨info, rfl, ?_⟩
        by_cases hle : message.getOffset order ≤ message.buffer.length
        · exact Or.inl hle
        · exact Or.inr ((hspares info).mp (hunchanged (hiff.not.mpr hle)))
      · rintro ⟨_, hinfo, hcondition⟩
        cases hinfo
        refine ⟨_, rfl, fun hmalformed => (hspares info).mpr ?_⟩
        exact hcondition.resolve_left (hiff.not.mp hmalformed)

/-- A datagram leaves the server undisturbed exactly when it is tolerated. -/
theorem undisturbed_iff {sender : Address} {datagram : Bytes}
    (harrival : input.arrival = .ok (sender, datagram)) (hnil : datagram ≠ []) :
    server.Undisturbed order input (Message.received receiveReserve datagram) ↔
      server.Tolerates order (Message.received receiveReserve datagram) := by
  rw [undisturbed_iff_handle harrival hnil rfl]
  have hlt := Message.length_received_lt datagram
  generalize Message.received receiveReserve datagram = message at hlt
  unfold Tolerates
  refine and_congr_right fun hframed => ?_
  unfold handle
  split_ifs with hchello hgetinfo hgetblock hcgoodbye
  · apply undisturbed_iff_spares (fun info => server.hostInfo.find? info = some ()) hframed
      hlt (by simp [needs, hchello]) handleChello_apply
    intro info
    simp [OrderedMap.insert_eq_self_iff, Unique.exists_iff]
  · rw [undisturbed_iff_spares (fun _ => False) hframed hlt
      (by simp [needs, hgetinfo]) handleGetinfo_apply (by simp)]
    simp
  · constructor
    · rintro ⟨final, hok, _⟩
      exact absurd hok handleGetblock_ne_ok
    · exact False.elim
  · apply undisturbed_iff_spares (fun info => server.hostInfo.find? info = none) hframed
      hlt (by simp [needs, hcgoodbye]) handleCgoodbye_apply
    intro info
    simp [OrderedMap.erase_eq_self_iff]
  · constructor
    · exact fun _ => trivial
    · exact fun _ => ⟨_, rfl, fun _ => ⟨rfl, rfl⟩⟩

end BlockServer

namespace BlockClient

variable {order : ByteOrder} {env : Environment} {message : Message}
  {address : Address} {info : FileInfo} {client mid final : BlockClient}
  {status : SyncStatus}

/-- There is a record for the file, or one can be made. -/
def CanHold (client : BlockClient) (info : FileInfo) : Prop :=
  (∃ status, client.syncSet.find? info = some status) ∨ 0 ∈ info.digest

/-- The messages that do not disturb the client. -/
def Tolerates (order : ByteOrder) (message : Message) (client : BlockClient) : Prop :=
  message.Framed order ∧
  if message.getType order = MessageType.info.code then
    ∃ info, message.getMetadata order FileInfo = .ok info ∧
      message.getOffset order ≤ message.buffer.length ∧ client.CanHold info
  else if message.getType order = MessageType.block.code then
    ∃ block, message.getMetadata order BlockInfo = .ok block ∧
      if message.getOffset order ≤ message.buffer.length then
        client.CanHold block.fileInfo ∧
          block.getBlock order < block.fileInfo.getBlockCount order
      else ∃ status, client.syncSet.find? block.fileInfo = some status ∧
        status.blockArray[(block.getBlock order).toNat]? = some true
  else if message.getType order = MessageType.sgoodbye.code then
    ∃ info, message.getMetadata order FileInfo = .ok info ∧
      if message.getOffset order ≤ message.buffer.length then
        client.CanHold info ∧
          ∀ status, client.syncSet.find? info = some status → status.Complete →
            (message.getLength order).toNat % 4 = 0
      else ∃ status, client.syncSet.find? info = some status ∧ ¬ status.Complete
  else True

/-- A record as `getSyncStatus` leaves it: an old one, or one without a path and
without blocks. -/
inductive Obtained (order : ByteOrder) (info : FileInfo) (client : BlockClient) :
    BlockClient → Prop
  | found {status : SyncStatus} (hfind : client.syncSet.find? info = some status) :
      Obtained order info client client
  | made {status : SyncStatus} {files : FileStore Bytes}
      (hnone : client.syncSet.find? info = none) (hnul : 0 ∈ info.digest)
      (hpath : status.path = [])
      (hblocks : status.blockArray =
        List.replicate (info.getBlockCount order).toNat false) :
      Obtained order info client (client.created info status files)

theorem getSyncStatus_obtained
    (hok : getSyncStatus order env info address client = .ok () mid) :
    Obtained order info client mid := by
  rcases getSyncStatus_eq_ok hok with ⟨status, hfind, rfl⟩ | ⟨status, files, hnone, hcreate, rfl⟩
  · exact .found hfind
  · obtain ⟨hnul, hstatus, _⟩ := SyncStatus.create_eq_ok hcreate
    apply Obtained.made hnone hnul
    · rw [hstatus]
    · rw [hstatus]

theorem getSyncStatus_returns (hhold : client.CanHold info) :
    ∃ mid, getSyncStatus order env info address client = .ok () mid := by
  rw [getSyncStatus_apply]
  cases hfind : client.syncSet.find? info with
  | some status => exact ⟨client, rfl⟩
  | none =>
      rcases hhold with ⟨status, hsome⟩ | hnul
      · rw [hfind] at hsome
        contradiction
      · obtain ⟨made, hcreate⟩ := SyncStatus.create_of_nul order env address hnul client.files
        simp only [hcreate]
        exact ⟨_, rfl⟩

theorem Obtained.canHold (hobtained : Obtained order info client mid) :
    client.CanHold info := by
  cases hobtained with
  | found hfind => exact Or.inl ⟨_, hfind⟩
  | made _ hnul _ _ => exact Or.inr hnul

theorem Obtained.find? (hobtained : Obtained order info client mid) :
    ∃ status, mid.syncSet.find? info = some status ∧
      (client.syncSet.find? info = some status ∧ mid = client ∨
        client.syncSet.find? info = none ∧ status.path = [] ∧
          status.blockArray = List.replicate (info.getBlockCount order).toNat false) := by
  cases hobtained with
  | found hfind => exact ⟨_, hfind, Or.inl ⟨hfind, rfl⟩⟩
  | made hnone _ hpath hblocks =>
      exact ⟨_, OrderedMap.find?_insert_self _ hnone, Or.inr ⟨hnone, hpath, hblocks⟩⟩

theorem onStatus_of_find? {α : Type} {program : EStateM Fault StatusState α}
    (hfind : client.syncSet.find? info = some status) :
    onStatus info program client =
      match program ⟨status, client.files, []⟩ with
      | .ok value state => .ok value (client.putStatus info state)
      | .error fault state => .error fault (client.putStatus info state) := by
  unfold onStatus
  split
  next hnone =>
    rw [hfind] at hnone
    contradiction
  next found hfound =>
    rw [hfind] at hfound
    cases hfound
    rfl

theorem onStatus_ok {α : Type} {program : EStateM Fault StatusState α} {value : α}
    {state : StatusState} (hfind : client.syncSet.find? info = some status)
    (hok : program ⟨status, client.files, []⟩ = .ok value state) :
    onStatus info program client = .ok value (client.putStatus info state) := by
  rw [onStatus_of_find? hfind, hok]

theorem find?_putStatus_self (hfind : client.syncSet.find? info = some status)
    (state : StatusState) :
    (client.putStatus info state).syncSet.find? info = some state.status :=
  OrderedMap.find?_replace_self state.status hfind

/-- Storing back what was there changes nothing. -/
theorem putStatus_self (hfind : client.syncSet.find? info = some status) :
    client.putStatus info ⟨status, client.files, []⟩ = client := by
  simp [putStatus, OrderedMap.replace_of_find? hfind]

theorem transferComplete_of_not {outcome : PublishOutcome}
    (hfind : client.syncSet.find? info = some status) (hnot : ¬ status.Complete) :
    onStatus info (SyncStatus.transferComplete outcome) client = .ok false client := by
  rw [onStatus_of_find? hfind, SyncStatus.transferComplete_apply, if_neg hnot]
  simp only [putStatus_self hfind]

theorem transferComplete_of_complete {outcome : PublishOutcome}
    (hfind : client.syncSet.find? info = some status) (hcomplete : status.Complete) :
    onStatus info (SyncStatus.transferComplete outcome) client =
      .ok true (client.putStatus info
        (SyncStatus.published outcome ⟨status, client.files, []⟩)) :=
  onStatus_ok hfind (by rw [SyncStatus.transferComplete_apply, if_pos hcomplete])

theorem finish_of_not {outcome : PublishOutcome}
    (hfind : client.syncSet.find? info = some status) (hnot : ¬ status.Finished) :
    finish info outcome client = .ok () client := by
  have hcomplete : onStatus info (SyncStatus.syncComplete outcome) client =
      .ok false client := by
    unfold SyncStatus.Finished at hnot
    rw [onStatus_of_find? hfind, SyncStatus.syncComplete_apply]
    simp only [if_neg hnot, putStatus_self hfind]
  rw [finish, bind_of_ok hcomplete]
  rfl

theorem writeBlock_of_marked {block : ℕ}
    (hfind : client.syncSet.find? info = some status)
    (hmarked : status.blockArray[block]? = some true) :
    onStatus info (SyncStatus.writeBlock order env block message) client =
      .ok () client := by
  rw [onStatus_of_find? hfind, SyncStatus.writeBlock_apply]
  simp only [hmarked, putStatus_self hfind]

theorem finish_returns {outcome : PublishOutcome}
    (hfind : client.syncSet.find? info = some status) :
    ∃ final, finish info outcome client = .ok () final := by
  have hcomplete : ∃ complete mid,
      onStatus info (SyncStatus.syncComplete outcome) client = .ok complete mid := by
    rw [onStatus_of_find? hfind, SyncStatus.syncComplete_apply]
    split_ifs
    · exact ⟨_, _, rfl⟩
    · exact ⟨_, _, rfl⟩
  obtain ⟨complete, mid, hmid⟩ := hcomplete
  rw [finish, bind_of_ok hmid]
  cases complete with
  | true => exact ⟨_, rfl⟩
  | false => exact ⟨_, rfl⟩

theorem handleInfo_eq :
    handleInfo order env message address =
      ofResult (message.getMetadata order FileInfo) >>= fun info =>
        getSyncStatus order env info address >>= fun _ =>
          ofResult (message.getText order) >>= fun text =>
            onStatus info (SyncStatus.setPath text) >>= fun _ =>
              finish info env.first := rfl

theorem handleBlock_eq :
    handleBlock order env message address =
      ofResult (message.getMetadata order BlockInfo) >>= fun block =>
        getSyncStatus order env block.fileInfo address >>= fun _ =>
          onStatus block.fileInfo
            (SyncStatus.writeBlock order env (block.getBlock order).toNat message) >>=
              fun _ => finish block.fileInfo env.first := rfl

theorem handleSgoodbye_eq :
    handleSgoodbye order env message address =
      ofResult (message.getMetadata order FileInfo) >>= fun info =>
        getSyncStatus order env info address >>= fun _ =>
          onStatus info (SyncStatus.transferComplete env.first) >>= fun complete =>
            if complete then
              ofResult (message.arrayExtent order 4) >>= fun clients =>
                (List.range (clients.length / 4)).forM
                  (answerClient order info message clients) >>= fun _ =>
                    finish info env.second
            else finish info env.second := rfl

/-! The handler that the type of a message selects -/

theorem handle_of_info {info : FileInfo}
    (htype : message.getType order = MessageType.info.code)
    (hmetadata : message.getMetadata order FileInfo = .ok info) :
    handle order env message address =
      getSyncStatus order env info address >>= fun _ =>
        ofResult (message.getText order) >>= fun text =>
          onStatus info (SyncStatus.setPath text) >>= fun _ =>
            finish info env.first := by
  rw [handle, if_pos htype, handleInfo_eq, hmetadata]
  rfl

theorem handle_of_block {block : BlockInfo}
    (htype : message.getType order = MessageType.block.code)
    (hmetadata : message.getMetadata order BlockInfo = .ok block) :
    handle order env message address =
      getSyncStatus order env block.fileInfo address >>= fun _ =>
        onStatus block.fileInfo
          (SyncStatus.writeBlock order env (block.getBlock order).toNat message) >>=
            fun _ => finish block.fileInfo env.first := by
  rw [handle, if_neg (by simp [htype]), if_pos htype, handleBlock_eq, hmetadata]
  rfl

theorem handle_of_sgoodbye {info : FileInfo}
    (htype : message.getType order = MessageType.sgoodbye.code)
    (hmetadata : message.getMetadata order FileInfo = .ok info) :
    handle order env message address =
      getSyncStatus order env info address >>= fun _ =>
        onStatus info (SyncStatus.transferComplete env.first) >>= fun complete =>
          if complete then
            ofResult (message.arrayExtent order 4) >>= fun clients =>
              (List.range (clients.length / 4)).forM
                (answerClient order info message clients) >>= fun _ =>
                  finish info env.second
          else finish info env.second := by
  rw [handle, if_neg (by simp [htype]), if_neg (by simp [htype]), if_pos htype,
    handleSgoodbye_eq, hmetadata]
  rfl

theorem handleInfo_returns_iff :
    (∃ final, handleInfo order env message address client = .ok () final) ↔
      ∃ info, message.getMetadata order FileInfo = .ok info ∧
        message.getOffset order ≤ message.buffer.length ∧ client.CanHold info := by
  rw [handleInfo_eq]
  constructor
  · rintro ⟨final, hok⟩
    obtain ⟨info, hinfo, hok⟩ := ofResult_bind_eq_ok hok
    obtain ⟨_, mid, hget, hok⟩ := bind_eq_ok hok
    obtain ⟨text, htext, _⟩ := ofResult_bind_eq_ok hok
    exact ⟨info, hinfo, Message.getText_eq_ok order htext,
      (getSyncStatus_obtained hget).canHold⟩
  · rintro ⟨info, hinfo, hle, hhold⟩
    obtain ⟨mid, hget⟩ := @getSyncStatus_returns order env address info client hhold
    obtain ⟨status, hfind, _⟩ := (getSyncStatus_obtained hget).find?
    have hset := @onStatus_ok info mid status _ _ _ _ hfind
      (rfl : SyncStatus.setPath (message.buffer.drop (message.getOffset order))
        ⟨status, mid.files, []⟩ = .ok () _)
    obtain ⟨final, hfinal⟩ := @finish_returns _ _ _ env.first
      (find?_putStatus_self hfind _)
    refine ⟨final, ?_⟩
    rw [ofResult_bind_of_ok hinfo, bind_of_ok hget,
      ofResult_bind_of_ok (Message.getText_eq order hle), bind_of_ok hset]
    exact hfinal

/-- A block inside the bitmap is written, or was before. -/
theorem writeBlock_returns {block : ℕ} (hsucceeds : env.Succeeds)
    (hfind : client.syncSet.find? info = some status)
    (hintact : status.Intact (info.getBlockCount order).toNat)
    (hlt : block < (info.getBlockCount order).toNat)
    (hle : message.getOffset order ≤ message.buffer.length) :
    ∃ written status',
      onStatus info (SyncStatus.writeBlock order env block message) client =
        .ok () written ∧ written.syncSet.find? info = some status' := by
  have hcount := (info.getBlockCount order).toNat_lt
  have hblock : block < status.blockArray.length := by
    rw [hintact.length]
    exact hlt
  cases hmark : status.blockArray[block] with
  | true =>
      have hmarked : status.blockArray[block]? = some true :=
        List.getElem?_eq_some_iff.mpr ⟨hblock, hmark⟩
      exact ⟨client, status, writeBlock_of_marked hfind hmarked, hfind⟩
  | false =>
      have hmissing : status.blockArray[block]? = some false :=
        List.getElem?_eq_some_iff.mpr ⟨hblock, hmark⟩
      obtain ⟨hwritten, _⟩ := @SyncStatus.Intact.writeBlock order env message _
        ⟨status, client.files, []⟩ _ _ hintact (by omega) hsucceeds.writes hmissing
        (Message.getText_eq order hle)
      exact ⟨_, _, onStatus_ok hfind hwritten, find?_putStatus_self hfind _⟩

theorem handleBlock_undisturbed_iff (hsucceeds : env.Succeeds)
    (hintact : client.Intact order) (hunfinished : client.Unfinished) :
    (∃ final, handleBlock order env message address client = .ok () final ∧
      (¬ message.getOffset order ≤ message.buffer.length →
        final.syncSet = client.syncSet ∧ final.messageQueue = client.messageQueue)) ↔
      ∃ block, message.getMetadata order BlockInfo = .ok block ∧
        if message.getOffset order ≤ message.buffer.length then
          client.CanHold block.fileInfo ∧
            block.getBlock order < block.fileInfo.getBlockCount order
        else ∃ status, client.syncSet.find? block.fileInfo = some status ∧
          status.blockArray[(block.getBlock order).toNat]? = some true := by
  have hmidIntact : ∀ info mid,
      getSyncStatus order env info address client = .ok () mid → mid.Intact order :=
    fun info mid hget => (getSyncStatus_intact hsucceeds.opened info).ok hintact hget
  rw [handleBlock_eq]
  constructor
  · rintro ⟨final, hok, _⟩
    obtain ⟨block, hblock, hok⟩ := ofResult_bind_eq_ok hok
    obtain ⟨_, mid, hget, hok⟩ := bind_eq_ok hok
    obtain ⟨_, written, hwrite, _⟩ := bind_eq_ok hok
    have hobtained := getSyncStatus_obtained hget
    obtain ⟨status, hfind, horigin⟩ := hobtained.find?
    have hlength := (hmidIntact _ _ hget _ _ hfind).length
    rw [onStatus_of_find? hfind, SyncStatus.writeBlock_apply] at hwrite
    refine ⟨block, hblock, ?_⟩
    cases hmark : status.blockArray[(block.getBlock order).toNat]? with
    | none => simp [hmark] at hwrite
    | some mark =>
        have hlt := (List.getElem?_eq_some_iff.mp hmark).1
        split_ifs with hle
        · refine ⟨hobtained.canHold, ?_⟩
          rw [UInt32.lt_iff_toNat_lt]
          omega
        · cases mark with
          | false =>
              cases htext : message.getText order with
              | ok text => exact absurd (Message.getText_eq_ok order htext) hle
              | error fault => simp [hmark, htext] at hwrite
          | true =>
              rcases horigin with ⟨hold, _⟩ | ⟨_, _, hblocks⟩
              · exact ⟨status, hold, hmark⟩
              · rw [hblocks, List.getElem?_replicate] at hmark
                split_ifs at hmark
                simp at hmark
  · rintro ⟨block, hblock, hcondition⟩
    split_ifs at hcondition with hle
    · obtain ⟨hhold, hlt⟩ := hcondition
      obtain ⟨mid, hget⟩ := @getSyncStatus_returns order env address _ client hhold
      obtain ⟨status, hfind, _⟩ := (getSyncStatus_obtained hget).find?
      obtain ⟨written, status', hwritten, hfind'⟩ :=
        @writeBlock_returns order env message _ mid status _ hsucceeds hfind
          (hmidIntact _ _ hget _ _ hfind) (UInt32.lt_iff_toNat_lt.mp hlt) hle
      obtain ⟨final, hfinal⟩ := @finish_returns _ written _ env.first hfind'
      refine ⟨final, ?_, fun hnot => absurd hle hnot⟩
      rw [ofResult_bind_of_ok hblock, bind_of_ok hget, bind_of_ok hwritten]
      exact hfinal
    · obtain ⟨status, hfind, hmark⟩ := hcondition
      have hget := getSyncStatus_of_find? order hfind env address
      refine ⟨client, ?_, fun _ => ⟨rfl, rfl⟩⟩
      rw [ofResult_bind_of_ok hblock, bind_of_ok hget,
        bind_of_ok (writeBlock_of_marked hfind hmark)]
      exact finish_of_not hfind (hunfinished _ _ hfind)

/-- Every element of the array is read, whatever the array is of. -/
theorem answerClients_past_end {clients : Extent}
    (hclients : message.capacity < clients.length / 4)
    (hok : (List.range (clients.length / 4)).forM
      (answerClient order info message clients) client = .ok () final) : False := by
  obtain ⟨before, after, hanswer⟩ :=
    forM_eq_ok_mem hok (List.mem_range.mpr hclients)
  obtain ⟨word, hword, _⟩ := ofResult_bind_eq_ok hanswer
  rw [Message.arrayElement, Message.fetch, if_neg (by simp only; omega)] at hword
  contradiction

/-- The loop over the list returns when the list lies in the buffer. -/
theorem answerClients_return {clients : Extent}
    (hinside : clients.start + clients.length ≤ message.capacity)
    (hfind : client.syncSet.find? info = some status) :
    ∃ answered status',
      (List.range (clients.length / 4)).forM
        (answerClient order info message clients) client = .ok () answered ∧
      answered.syncSet.find? info = some status' := by
  have hkeeps : Keeps (fun client => ∃ status, client.syncSet.find? info = some status)
      (fun _ => False)
      ((List.range (clients.length / 4)).forM
        (answerClient order info message clients)) := by
    apply Keeps.forM
    intro i hi
    have hlt := List.mem_range.mp hi
    have hmul := Nat.div_mul_le_self clients.length 4
    refine Triple.ofResult_bind (fun _ _ => ?_) fun fault herror => ?_
    · refine Keeps.bind Keeps.get fun current _ => ?_
      refine Triple.ite (fun _ => ?_) fun _ => Keeps.pure _
      refine Keeps.bind (onStatus_triple ?_ ?_ ?_) fun _ _ => Keeps.modify ?_
      · rintro client ⟨status, hfind⟩ hnone
        rw [hfind] at hnone
        contradiction
      · exact fun client status _ state _ hfind _ => ⟨_, find?_putStatus_self hfind state⟩
      · intro client status fault state _ _ herror
        contradiction
      · exact fun _ hrecord => hrecord
    · rw [Message.arrayElement, Message.fetch, if_pos (by simp only; omega)] at herror
      contradiction
  have hloop := hkeeps client ⟨status, hfind⟩
  cases hanswered : (List.range (clients.length / 4)).forM
      (answerClient order info message clients) client with
  | error fault answered =>
      rw [hanswered] at hloop
      exact hloop.elim
  | ok value answered =>
      rw [hanswered] at hloop
      obtain ⟨status', hfind'⟩ := hloop
      exact ⟨answered, status', rfl, hfind'⟩

/-- A goodbye that finds the transfer complete has its whole list read. -/
theorem handleSgoodbye_eq_ok
    (hok : handleSgoodbye order env message address client = .ok () final) :
    ∃ info mid, message.getMetadata order FileInfo = .ok info ∧
      getSyncStatus order env info address client = .ok () mid ∧
      ∀ status, mid.syncSet.find? info = some status →
        (status.Complete → ∃ clients, message.arrayExtent order 4 = .ok clients ∧
          clients.length / 4 ≤ message.capacity) ∧
        (¬ status.Complete → final = mid) := by
  rw [handleSgoodbye_eq] at hok
  obtain ⟨info, hinfo, hok⟩ := ofResult_bind_eq_ok hok
  obtain ⟨_, mid, hget, hok⟩ := bind_eq_ok hok
  refine ⟨info, mid, hinfo, hget, fun status hfind => ⟨fun hcomplete => ?_, fun hnot => ?_⟩⟩
  · rw [bind_of_ok (transferComplete_of_complete hfind hcomplete), if_pos rfl] at hok
    obtain ⟨clients, hclients, hok⟩ := ofResult_bind_eq_ok hok
    obtain ⟨_, answered, hanswered, _⟩ := bind_eq_ok hok
    exact ⟨clients, hclients, not_lt.mp fun hlt => answerClients_past_end hlt hanswered⟩
  · rw [bind_of_ok (transferComplete_of_not hfind hnot), if_neg Bool.false_ne_true,
      finish_of_not hfind fun hfinished => hnot hfinished.2] at hok
    cases hok
    rfl

/-- The handler of a goodbye returns when the list, if it is read, lies in the buffer. -/
theorem handleSgoodbye_returns
    (hinfo : message.getMetadata order FileInfo = .ok info)
    (hget : getSyncStatus order env info address client = .ok () mid)
    (hfind : mid.syncSet.find? info = some status)
    (hlist : status.Complete → (message.getLength order).toNat % 4 = 0 ∧
      message.getOffset order + (message.getLength order).toNat ≤ message.capacity) :
    ∃ final, handleSgoodbye order env message address client = .ok () final ∧
      (¬ status.Complete → final = mid) := by
  rw [handleSgoodbye_eq, ofResult_bind_of_ok hinfo, bind_of_ok hget]
  by_cases hcomplete : status.Complete
  · obtain ⟨hmod, hinside⟩ := hlist hcomplete
    have hclients : message.arrayExtent order 4 = .ok ⟨message.getOffset order,
        (message.getLength order).toNat / 4 * 4⟩ := by
      rw [Message.arrayExtent, if_neg (by omega)]
    obtain ⟨answered, status', hanswered, hfind'⟩ := @answerClients_return order
      message info _ _ ⟨message.getOffset order,
        (message.getLength order).toNat / 4 * 4⟩ (by simp only; omega)
      (find?_putStatus_self hfind (SyncStatus.published env.first ⟨status, mid.files, []⟩))
    obtain ⟨final, hfinal⟩ := @finish_returns info answered status' env.second hfind'
    rw [bind_of_ok (transferComplete_of_complete hfind hcomplete), if_pos rfl,
      ofResult_bind_of_ok hclients, bind_of_ok hanswered]
    exact ⟨final, hfinal, fun hnot => absurd hcomplete hnot⟩
  · rw [bind_of_ok (transferComplete_of_not hfind hcomplete), if_neg Bool.false_ne_true]
    exact ⟨mid, finish_of_not hfind fun hfinished => hcomplete hfinished.2, fun _ => rfl⟩

theorem handleSgoodbye_undisturbed_iff
    (hframed : message.Framed order) (hlt : message.buffer.length < 2 ^ 31)
    (hcapacity : message.capacity < 2 ^ 29) :
    (∃ final, handleSgoodbye order env message address client = .ok () final ∧
      (¬ message.getOffset order ≤ message.buffer.length →
        final.syncSet = client.syncSet ∧ final.messageQueue = client.messageQueue)) ↔
      ∃ info, message.getMetadata order FileInfo = .ok info ∧
        if message.getOffset order ≤ message.buffer.length then
          client.CanHold info ∧
            ∀ status, client.syncSet.find? info = some status → status.Complete →
              (message.getLength order).toNat % 4 = 0
        else ∃ status, client.syncSet.find? info = some status ∧ ¬ status.Complete := by
  constructor
  · rintro ⟨final, hok, hunchanged⟩
    obtain ⟨info, mid, hinfo, hget, hheeds⟩ := handleSgoodbye_eq_ok hok
    have hobtained := getSyncStatus_obtained hget
    obtain ⟨status, hfind, horigin⟩ := hobtained.find?
    obtain ⟨hlist, hsame⟩ := hheeds status hfind
    refine ⟨info, hinfo, ?_⟩
    split_ifs with hle
    · refine ⟨hobtained.canHold, fun old hold hcomplete => ?_⟩
      rcases horigin with ⟨hfound, _⟩ | ⟨hnone, _⟩
      · rw [hold] at hfound
        cases hfound
        obtain ⟨clients, hclients, _⟩ := hlist hcomplete
        by_contra hmod
        rw [Message.arrayExtent, if_pos hmod] at hclients
        contradiction
      · rw [hold] at hnone
        contradiction
    · have hincomplete : ¬ status.Complete := by
        intro hcomplete
        obtain ⟨clients, hclients, hinside⟩ := hlist hcomplete
        rw [Message.framed_iff] at hframed
        have hoffset := (order.ntohs (message.header order).offset).toNat_lt
        unfold Message.getOffset at hframed hle
        rw [Message.arrayExtent] at hclients
        split_ifs at hclients
        cases hclients
        simp only at hinside
        omega
      rcases horigin with ⟨hold, _⟩ | ⟨hnone, _⟩
      · exact ⟨status, hold, hincomplete⟩
      · rw [← hsame hincomplete, (hunchanged hle).1, hnone] at hfind
        contradiction
  · rintro ⟨info, hinfo, hcondition⟩
    split_ifs at hcondition with hle
    · obtain ⟨hhold, hlist⟩ := hcondition
      obtain ⟨mid, hget⟩ := @getSyncStatus_returns order env address _ client hhold
      obtain ⟨status, hfind, horigin⟩ := (getSyncStatus_obtained hget).find?
      have hlength := hframed.getLength_eq_sub (by omega) hle
      have hsize := message.length_le
      obtain ⟨final, hok, _⟩ := handleSgoodbye_returns hinfo hget hfind fun hcomplete => by
        rcases horigin with ⟨hold, _⟩ | ⟨_, hpath, _⟩
        · exact ⟨hlist status hold hcomplete, by omega⟩
        · exact absurd hpath hcomplete.2
      exact ⟨final, hok, fun hnot => absurd hle hnot⟩
    · obtain ⟨status, hfind, hincomplete⟩ := hcondition
      obtain ⟨final, hok, hsame⟩ := handleSgoodbye_returns hinfo
        (getSyncStatus_of_find? order hfind env address) hfind
          fun hcomplete => absurd hcomplete hincomplete
      rw [hsame hincomplete] at hok
      exact ⟨client, hok, fun _ => ⟨rfl, rfl⟩⟩

theorem undisturbed_iff_handle {input : ClientInput} {sender : Address}
    {datagram : Bytes} (harrival : input.arrival = .ok (sender, datagram))
    (hnil : datagram ≠ []) :
    client.Undisturbed order input (Message.received receiveReserve datagram) ↔
      (Message.received receiveReserve datagram).Framed order ∧ ∃ final,
        handle order input.env (Message.received receiveReserve datagram) sender
          (client.heardFrom sender) = .ok () final ∧
          (¬ (Message.received receiveReserve datagram).WellFormed order needs →
            final.syncSet = client.syncSet ∧
            final.messageQueue = client.messageQueue) := by
  have hreceive := BlockSocket.receive_datagram order receiveReserve sender datagram
    client.socket
  rw [if_neg hnil, ← harrival] at hreceive
  by_cases hframed : (Message.received receiveReserve datagram).Framed order
  · rw [if_pos hframed] at hreceive
    have hprocess := processMessage_of_received hreceive
    constructor
    · rintro ⟨⟨final, hok⟩, hunchanged⟩
      rw [hok, endState_ok] at hunchanged
      rw [hok] at hprocess
      exact ⟨hframed, final, hprocess.symm, hunchanged⟩
    · rintro ⟨_, final, hhandle, hunchanged⟩
      rw [BlockClient.heardFrom] at hhandle
      rw [hhandle] at hprocess
      constructor
      · exact ⟨final, hprocess⟩
      · rw [hprocess]
        exact hunchanged
  · rw [if_neg hframed] at hreceive
    have hprocess := processMessage_of_failed hreceive
    constructor
    · rintro ⟨⟨final, hok⟩, _⟩
      rw [hprocess] at hok
      contradiction
    · exact fun h => absurd h.1 hframed

/-- Between two messages a datagram leaves the client undisturbed exactly when it
is tolerated. -/
theorem undisturbed_iff {input : ClientInput} {sender : Address} {datagram : Bytes}
    (hsettled : client.Settled order) (hsucceeds : input.env.Succeeds)
    (harrival : input.arrival = .ok (sender, datagram)) (hnil : datagram ≠ []) :
    client.Undisturbed order input (Message.received receiveReserve datagram) ↔
      client.Tolerates order (Message.received receiveReserve datagram) := by
  rw [undisturbed_iff_handle harrival hnil]
  have hlt := Message.length_received_lt datagram
  have hle : (Message.received receiveReserve datagram).buffer.length ≤
      receiveReserve + headerSize := List.length_take_le _ _
  have hsum : receiveReserve + headerSize = 4112 := rfl
  have hcapacity : (Message.received receiveReserve datagram).capacity = 4112 := rfl
  generalize Message.received receiveReserve datagram = message at hlt hle hcapacity
  have hheard : (client.heardFrom sender).Settled order :=
    ⟨hsettled.intact, hsettled.unfinished⟩
  unfold Tolerates
  refine and_congr_right fun hframed => ?_
  unfold handle
  by_cases hinfo : message.getType order = MessageType.info.code
  · have hneeds : needs (message.getType order) = [Metadata.layout FileInfo] := by
      simp [needs, hinfo]
    rw [if_pos hinfo, if_pos hinfo]
    constructor
    · rintro ⟨final, hok, _⟩
      have hreturns := handleInfo_returns_iff.mp ⟨final, hok⟩
      exact hreturns
    · rintro ⟨info, hmetadata, hoffset, hhold⟩
      obtain ⟨final, hok⟩ := (@handleInfo_returns_iff order input.env message sender
        (client.heardFrom sender)).mpr ⟨info, hmetadata, hoffset, hhold⟩
      have hiff := Message.wellFormed_iff_of_getMetadata hframed hlt hmetadata hneeds
      exact ⟨final, hok, fun hmalformed => absurd (hiff.mpr hoffset) hmalformed⟩
  rw [if_neg hinfo, if_neg hinfo]
  by_cases hblock : message.getType order = MessageType.block.code
  · have hneeds : needs (message.getType order) = [Metadata.layout BlockInfo] := by
      rw [hblock, needs, if_neg (by decide), if_pos rfl]
    rw [if_pos hblock, if_pos hblock]
    refine Iff.trans ?_ (@handleBlock_undisturbed_iff order input.env message sender
      (client.heardFrom sender) hsucceeds hheard.intact hheard.unfinished)
    refine exists_congr fun final => and_congr_right fun hok => ?_
    obtain ⟨block, hmetadata, _⟩ := ofResult_bind_eq_ok hok
    rw [Message.wellFormed_iff_of_getMetadata hframed hlt hmetadata hneeds]
    rfl
  rw [if_neg hblock, if_neg hblock]
  by_cases hsgoodbye : message.getType order = MessageType.sgoodbye.code
  · have hneeds : needs (message.getType order) = [Metadata.layout FileInfo] := by
      simp [needs, hsgoodbye]
    rw [if_pos hsgoodbye, if_pos hsgoodbye]
    refine Iff.trans ?_ (@handleSgoodbye_undisturbed_iff order input.env message sender
      (client.heardFrom sender) hframed (by omega) (by omega))
    refine exists_congr fun final => and_congr_right fun hok => ?_
    obtain ⟨info, hmetadata, _⟩ := ofResult_bind_eq_ok hok
    rw [Message.wellFormed_iff_of_getMetadata hframed hlt hmetadata hneeds]
    rfl
  · rw [if_neg hsgoodbye, if_neg hsgoodbye]
    constructor
    · exact fun _ => trivial
    · exact fun _ => ⟨_, rfl, fun _ => ⟨rfl, rfl⟩⟩

end BlockClient

/-- In every state of the server, and in every state a client reaches while it runs
and its file operations succeed, a datagram does no harm exactly when it is
tolerated. -/
theorem undisturbed_iff_tolerates (order : ByteOrder) {sender : Address}
    {datagram : Bytes} (hnil : datagram ≠ []) :
    (∀ (server : BlockServer) (input : ServerInput),
      input.arrival = .ok (sender, datagram) →
        (server.Undisturbed order input (Message.received receiveReserve datagram) ↔
          server.Tolerates order (Message.received receiveReserve datagram))) ∧
    (∀ (client : BlockClient) (ephemeral : UInt16) (openError : Option String)
      (inputs : List ClientInput) (input : ClientInput),
      client.syncSet = OrderedMap.empty →
      (∀ other ∈ inputs, other.env.Succeeds) →
      ((ClientRun.start order ephemeral openError client).steps order
        inputs).fault = none →
      input.env.Succeeds → input.arrival = .ok (sender, datagram) →
        (((ClientRun.start order ephemeral openError client).steps order
            inputs).client.Undisturbed order input
              (Message.received receiveReserve datagram) ↔
          ((ClientRun.start order ephemeral openError client).steps order
            inputs).client.Tolerates order
              (Message.received receiveReserve datagram))) := by
  constructor
  · exact fun server input harrival => BlockServer.undisturbed_iff harrival hnil
  · intro client ephemeral openError inputs input hempty hsucceed hrunning hsucceeds
      harrival
    exact BlockClient.undisturbed_iff
      (ClientRun.steps_settled hempty hsucceed hrunning) hsucceeds harrival hnil

/-- A hello is tolerated by both ends. -/
theorem undisturbed_by_hello :
    startedServer.server.Undisturbed .big
        ⟨.ok ⟨true, false⟩, .ok (⟨0, 0⟩, helloDatagram), none, false, false, ""⟩
        (Message.received receiveReserve helloDatagram) ∧
      goodbyeRun.client.Undisturbed .little
        ⟨.ok ⟨true, false⟩, .ok (⟨0, 0⟩, helloDatagram), Environment.plain [116] false,
          none⟩
        (Message.received receiveReserve helloDatagram) := by
  constructor
  · apply ((undisturbed_iff_tolerates .big (by decide)).1 _ _ rfl).mpr
    refine ⟨by decide, ?_⟩
    rw [if_pos (by decide)]
    exact ⟨⟨ByteOrder.big.load32 [0, 0, 0, 7]⟩, by decide, Or.inl (by decide)⟩
  · apply ((undisturbed_iff_tolerates .little (by decide)).2
      (BlockClient.create .little 0 0 7 5 FileStore.empty) 0 none
      [readInput (Message.withText .little 9 MessageType.info.code emptyFile [97]),
        readInput (Message.withText .little 9 MessageType.sgoodbye.code emptyFile
          (ByteOrder.little.store32 5))] _ rfl ?_ (by decide +kernel) ⟨rfl, rfl, rfl, rfl⟩
      rfl).mpr
    · refine ⟨by decide, ?_⟩
      rw [if_neg (by decide), if_neg (by decide), if_neg (by decide)]
      exact trivial
    · intro other hmem
      simp only [List.mem_cons, List.not_mem_nil, or_false] at hmem
      rcases hmem with rfl | rfl
      · exact ⟨rfl, rfl, rfl, rfl⟩
      · exact ⟨rfl, rfl, rfl, rfl⟩

/-- One byte ends a server that has just started. -/
theorem disturbed_by_one_byte :
    ¬ ∀ (run : ServerRun) (phase : ServerPhase),
      ServerRun.Reachable .big
        (BlockServer.create .big (fun _ => ⟨List.replicate 16 0, by decide⟩) (some [])
          (some (.regular [])) [97] 0 0 9) run →
      run.phase = .ok phase → ∀ (input : ServerInput) sender datagram,
        datagram ≠ [] → input.arrival = .ok (sender, datagram) →
          run.server.Undisturbed .big input (Message.received receiveReserve datagram) := by
  intro hall
  have hundisturbed := hall startedServer .draining startedServer_reachable rfl
    ⟨.ok ⟨true, false⟩, .ok (⟨0, 0⟩, [0]), none, false, false, ""⟩ ⟨0, 0⟩ [0]
    (by decide) rfl
  have hframed := ((BlockServer.undisturbed_iff rfl (by decide)).mp hundisturbed).1
  exact absurd hframed (by decide)

end Multisync
