import Multisync.BlockClient
import Mathlib.Tactic

/-!
# Invariants of the client's handlers

A handler looks a record up or makes it, runs a few programs on it, and may
answer the server and erase the record.  What each of these keeps, the handlers
and a whole run of the client keep.
-/

namespace Multisync

open ByteLayout Effects

/-- The file a message is about, as the handler of its type reads it. -/
def Message.fileInfo? (order : ByteOrder) (message : Message) : Option FileInfo :=
  if message.getType order = MessageType.info.code ∨
      message.getType order = MessageType.sgoodbye.code then
    (message.getMetadata order FileInfo).toOption
  else if message.getType order = MessageType.block.code then
    (message.getMetadata order BlockInfo).toOption.map BlockInfo.fileInfo
  else none

theorem Message.fileInfo?_of_block {order : ByteOrder} {message : Message}
    {block : BlockInfo} (htype : message.getType order = MessageType.block.code)
    (hblock : message.getMetadata order BlockInfo = .ok block) :
    message.fileInfo? order = some block.fileInfo := by
  simp [fileInfo?, htype, hblock, Except.toOption]

theorem Message.fileInfo?_of_block_error {order : ByteOrder} {message : Message}
    {fault : Fault} (htype : message.getType order = MessageType.block.code)
    (herror : message.getMetadata order BlockInfo = .error fault) :
    message.fileInfo? order = none := by
  simp [fileInfo?, htype, herror, Except.toOption]

/-- An announcement and a goodbye bring the file itself. -/
theorem Message.fileInfo?_of_named {order : ByteOrder} {message : Message}
    {info : FileInfo} (htype : message.getType order = MessageType.info.code ∨
      message.getType order = MessageType.sgoodbye.code)
    (hmetadata : message.getMetadata order FileInfo = .ok info) :
    message.fileInfo? order = some info := by
  simp [fileInfo?, htype, hmetadata, Except.toOption]

/-- A message about a file announces it, brings a block of it, or says goodbye. -/
theorem Message.fileInfo?_cases {order : ByteOrder} {message : Message} {info : FileInfo}
    (hinfo : message.fileInfo? order = some info) :
    (message.getType order = MessageType.info.code ∧
        message.getMetadata order FileInfo = .ok info) ∨
      (message.getType order = MessageType.block.code ∧
        ∃ block, message.getMetadata order BlockInfo = .ok block ∧ block.fileInfo = info) ∨
      (message.getType order = MessageType.sgoodbye.code ∧
        message.getMetadata order FileInfo = .ok info) := by
  unfold fileInfo? at hinfo
  split_ifs at hinfo with hnamed hblock
  · have hmetadata := eq_ok_of_toOption hinfo
    exact hnamed.imp (fun htype => ⟨htype, hmetadata⟩)
      fun htype => Or.inr ⟨htype, hmetadata⟩
  · obtain ⟨block, hsome, hfile⟩ := Option.map_eq_some_iff.mp hinfo
    exact Or.inr (Or.inl ⟨hblock, block, eq_ok_of_toOption hsome, hfile⟩)

theorem Message.exists_block {order : ByteOrder} {message : Message} {info : FileInfo}
    (hinfo : message.fileInfo? order = some info)
    (htype : message.getType order = MessageType.block.code) :
    ∃ block, message.getMetadata order BlockInfo = .ok block ∧ block.fileInfo = info := by
  rcases Message.fileInfo?_cases hinfo with ⟨hother, _⟩ | ⟨_, hblock⟩ | ⟨hother, _⟩
  · simp [htype] at hother
  · exact hblock
  · simp [htype] at hother

/-- The programs the handlers run on the record of a message. -/
inductive RecordProgram (order : ByteOrder) (env : Environment)
    (message : Message) : {α : Type} → EStateM Fault StatusState α → Prop
  | setPath {text : Bytes}
      (htype : message.getType order = MessageType.info.code)
      (htext : message.getText order = .ok text) :
      RecordProgram order env message (SyncStatus.setPath text)
  | writeBlock {block : BlockInfo}
      (htype : message.getType order = MessageType.block.code)
      (hblock : message.getMetadata order BlockInfo = .ok block) :
      RecordProgram order env message
        (SyncStatus.writeBlock order env (block.getBlock order).toNat message)
  | setGoodbyeReceived :
      RecordProgram order env message SyncStatus.setGoodbyeReceived
  | transferComplete :
      RecordProgram order env message (SyncStatus.transferComplete env.first)
  | syncComplete {outcome : PublishOutcome}
      (houtcome : outcome = env.first ∨ outcome = env.second) :
      RecordProgram order env message (SyncStatus.syncComplete outcome)

/-- The message that is read in a call of `select`, if one is. -/
def ClientInput.message? (input : ClientInput) : Option Message :=
  match input.ready, input.arrival with
  | .ok ready, .ok (_, datagram) =>
      if ready.readable then some (Message.received receiveReserve datagram) else none
  | .error _, _ => none
  | _, .error _ => none

/-- A message that is read has arrived. -/
theorem ClientInput.arrival_of_message {input : ClientInput} {message : Message}
    (hmessage : input.message? = some message) :
    ∃ datagram, input.arrival = .ok datagram ∧
      message = Message.received receiveReserve datagram.2 := by
  unfold ClientInput.message? at hmessage
  split at hmessage
  next ready sender datagram hready harrival =>
    split_ifs at hmessage
    cases hmessage
    exact ⟨_, harrival, rfl⟩
  next => contradiction
  next => contradiction

namespace BlockClient

variable {order : ByteOrder} {P Q E : BlockClient → Prop}

/-- The client after a reception, before the handler runs. -/
def heardFrom (sender : Address) (client : BlockClient) : BlockClient :=
  { client with socket := { client.socket with sender := sender } }

/-- The client after a record was made. -/
def created (info : FileInfo) (status : SyncStatus)
    (files : FileStore Bytes) (client : BlockClient) : BlockClient :=
  { client with
    syncSet := client.syncSet.insert info status
    files := files
    trace := client.trace ++ [.created info status.temp] }

/-- The client after it has queued a goodbye for the file. -/
def answered (order : ByteOrder) (info : FileInfo) (client : BlockClient) :
    BlockClient :=
  { client with
    messageQueue := client.messageQueue ++
      [Message.bare order client.id MessageType.cgoodbye.code]
    trace := client.trace ++ ((client.syncSet.find? info).map fun status =>
      ClientEvent.answered info status.serverAddress).toList }

/-- The client after it has erased the record of the file. -/
def erased (info : FileInfo) (client : BlockClient) : BlockClient :=
  { client with
    syncSet := client.syncSet.erase info
    trace := client.trace ++ [.erased info] }

theorem getSyncStatus_apply (env : Environment) (info : FileInfo)
    (address : Address) (client : BlockClient) :
    getSyncStatus order env info address client =
      match client.syncSet.find? info with
      | some _ => .ok () client
      | none =>
          match SyncStatus.create order env info address client.files with
          | .error fault => .error fault client
          | .ok (status, files) => .ok () (client.created info status files) := by
  simp only [getSyncStatus, bind_apply, get_apply]
  cases client.syncSet.find? info with
  | some status => rfl
  | none =>
      simp only [bind_apply]
      cases SyncStatus.create order env info address client.files with
      | error fault => rfl
      | ok made => rfl

theorem getSyncStatus_of_find? (order : ByteOrder) {client : BlockClient} {info : FileInfo}
    {status : SyncStatus} (hfind : client.syncSet.find? info = some status)
    (env : Environment) (address : Address) :
    getSyncStatus order env info address client = .ok () client := by
  rw [getSyncStatus_apply, hfind]

theorem getSyncStatus_eq_ok {env : Environment} {info : FileInfo} {address : Address}
    {client mid : BlockClient}
    (hok : getSyncStatus order env info address client = .ok () mid) :
    (∃ status, client.syncSet.find? info = some status ∧ mid = client) ∨
      ∃ status files, client.syncSet.find? info = none ∧
        SyncStatus.create order env info address client.files = .ok (status, files) ∧
        mid = client.created info status files := by
  rw [getSyncStatus_apply] at hok
  cases hfind : client.syncSet.find? info with
  | some status =>
      rw [hfind] at hok
      cases hok
      exact Or.inl ⟨status, rfl, rfl⟩
  | none =>
      rw [hfind] at hok
      cases hcreate : SyncStatus.create order env info address client.files with
      | error fault =>
          rw [hcreate] at hok
          contradiction
      | ok made =>
          rw [hcreate] at hok
          cases hok
          exact Or.inr ⟨made.1, made.2, rfl, rfl, rfl⟩

theorem getSyncStatus_eq_error {env : Environment} {info : FileInfo} {address : Address}
    {client mid : BlockClient} {fault : Fault}
    (herror : getSyncStatus order env info address client = .error fault mid) :
    mid = client ∧ client.syncSet.find? info = none ∧ 0 ∉ info.digest := by
  rw [getSyncStatus_apply] at herror
  cases hfind : client.syncSet.find? info with
  | some status =>
      rw [hfind] at herror
      contradiction
  | none =>
      rw [hfind] at herror
      refine ⟨?_, rfl, fun hnul => ?_⟩
      · cases hcreate : SyncStatus.create order env info address client.files with
        | error fault =>
            rw [hcreate] at herror
            cases herror
            rfl
        | ok made =>
            rw [hcreate] at herror
            contradiction
      · obtain ⟨made, hcreate⟩ := SyncStatus.create_of_nul order env address hnul client.files
        rw [hcreate] at herror
        contradiction

/-- The last two lines of every handler. -/
def finish (info : FileInfo) (outcome : PublishOutcome) :
    EStateM Fault BlockClient Unit := do
  if ← onStatus info (SyncStatus.syncComplete outcome) then
    eraseStatus info

/-- What the handler of a message does: it makes the record, runs programs on it and
answers, which keeps a property of the file's record, and finishes. -/
theorem handle_finish_triple {env : Environment} {message : Message}
    {address : Address} {P R E : BlockClient → Prop}
    {Q : FileInfo → BlockClient → Prop}
    (hskip : message.fileInfo? order = none → ∀ client, P client → R client)
    (hthrow : message.fileInfo? order = none → ∀ client, P client → E client)
    (hweak : ∀ info client, Q info client → E client)
    (hget : ∀ info, message.fileInfo? order = some info →
      Triple P (getSyncStatus order env info address) (fun _ => Q info) fun _ => E)
    (hrecord : ∀ info, message.fileInfo? order = some info →
      ∀ {α : Type} {program : EStateM Fault StatusState α},
        RecordProgram order env message program →
          Keeps (Q info) E (onStatus info program))
    (hanswer : ∀ info, message.fileInfo? order = some info →
      ∀ client, Q info client → Q info (client.answered order info))
    (hfinish : ∀ info, message.fileInfo? order = some info →
      ∀ outcome, outcome = env.first ∨ outcome = env.second →
        Triple (Q info) (finish info outcome) (fun _ => R) fun _ => E) :
    Triple P (handle order env message address) (fun _ => R) fun _ => E := by
  unfold handle
  refine Triple.ite (fun htype => ?_) fun hinfo => Triple.ite (fun htype => ?_)
    fun hblock => Triple.ite (fun htype => ?_) fun hgoodbye => ?_
  · refine Triple.ofResult_bind (fun info hmetadata => ?_) fun _ hmetadata =>
      hthrow (by simp [Message.fileInfo?, htype, hmetadata, Except.toOption])
    have hinfo := Message.fileInfo?_of_named (Or.inl htype) hmetadata
    refine Triple.bind (hget info hinfo) fun _ => ?_
    refine Triple.ofResult_bind (fun text htext => ?_) fun _ _ => hweak info
    refine Triple.bind (hrecord info hinfo (.setPath htype htext)) fun _ => ?_
    exact hfinish info hinfo _ (Or.inl rfl)
  · refine Triple.ofResult_bind (fun block hmetadata => ?_) fun _ hmetadata =>
      hthrow (Message.fileInfo?_of_block_error htype hmetadata)
    have hinfo := Message.fileInfo?_of_block htype hmetadata
    refine Triple.bind (hget _ hinfo) fun _ => ?_
    refine Triple.bind (hrecord _ hinfo (.writeBlock htype hmetadata)) fun _ => ?_
    exact hfinish _ hinfo _ (Or.inl rfl)
  · refine Triple.ofResult_bind (fun info hmetadata => ?_) fun _ hmetadata =>
      hthrow (by simp [Message.fileInfo?, htype, hmetadata, Except.toOption])
    have hinfo := Message.fileInfo?_of_named (Or.inr htype) hmetadata
    refine Triple.bind (hget info hinfo) fun _ => ?_
    refine Triple.bind (hrecord info hinfo .transferComplete) fun complete => ?_
    have hlast := hfinish info hinfo _ (Or.inr rfl)
    refine Triple.ite (fun _ => ?_) fun _ => hlast
    refine Triple.ofResult_bind (fun clients _ => ?_) fun _ _ => hweak info
    refine Triple.bind (Keeps.forM fun i _ => ?_) fun _ => hlast
    refine Triple.ofResult_bind (fun word _ => ?_) fun _ _ => hweak info
    refine Keeps.bind Keeps.get fun client _ => ?_
    refine Triple.ite (fun _ => ?_) fun _ => Keeps.pure _
    refine Keeps.bind (hrecord info hinfo .setGoodbyeReceived) fun _ _ => ?_
    exact Keeps.modify (hanswer info hinfo)
  · exact Triple.pure (hskip (by simp [Message.fileInfo?, hinfo, hblock, hgoodbye]))

/-- What making the record, the programs on it, the answer and the erasure do,
the handler of a message does. -/
theorem handle_triple {env : Environment} {message : Message} {address : Address}
    (hskip : ∀ client, P client → Q client)
    (hweak : ∀ client, Q client → E client)
    (hget : ∀ info, message.fileInfo? order = some info →
      Triple P (getSyncStatus order env info address) (fun _ => Q) fun _ => E)
    (hrecord : ∀ info, message.fileInfo? order = some info →
      ∀ {α : Type} {program : EStateM Fault StatusState α},
        RecordProgram order env message program → Keeps Q E (onStatus info program))
    (hanswer : ∀ info, message.fileInfo? order = some info →
      ∀ client, Q client → Q (client.answered order info))
    (herase : ∀ info, message.fileInfo? order = some info →
      ∀ client, Q client → Q (client.erased info)) :
    Triple P (handle order env message address) (fun _ => Q) fun _ => E := by
  apply handle_finish_triple (fun _ => hskip)
    (fun _ client hclient => hweak client (hskip client hclient)) (fun _ => hweak) hget
    hrecord hanswer
  intro info hinfo outcome houtcome
  refine Triple.bind (hrecord info hinfo (.syncComplete houtcome)) fun complete => ?_
  exact Triple.ite (fun _ => herase info hinfo) fun _ => Keeps.pure _

theorem onStatus_triple {α : Type} {info : FileInfo}
    {program : EStateM Fault StatusState α} {Q : α → BlockClient → Prop}
    {E : Fault → BlockClient → Prop}
    (hnone : ∀ client, P client → client.syncSet.find? info = none →
      E .undefined client)
    (hok : ∀ client status value state, P client →
      client.syncSet.find? info = some status →
      program ⟨status, client.files, []⟩ = .ok value state →
        Q value (client.putStatus info state))
    (herror : ∀ client status fault state, P client →
      client.syncSet.find? info = some status →
      program ⟨status, client.files, []⟩ = .error fault state →
        E fault (client.putStatus info state)) :
    Triple P (onStatus info program) Q E := by
  intro client hclient
  unfold onStatus
  cases hfind : client.syncSet.find? info with
  | none => exact hnone client hclient hfind
  | some status =>
      cases hrun : program ⟨status, client.files, []⟩ with
      | ok value state => simpa only [hrun] using hok client status value state hclient hfind hrun
      | error fault state => simpa only [hrun] using herror client status fault state hclient hfind hrun

/-- What making a record, a step on one, an answer and an erasure keep, a handler
keeps. -/
theorem handle_steps {env : Environment} {message : Message} {address : Address}
    (hused : ∀ client, P client → Q client)
    (hcreated : ∀ client info status files, P client →
      message.fileInfo? order = some info → client.syncSet.find? info = none →
      SyncStatus.create order env info address client.files = .ok (status, files) →
        Q (client.created info status files))
    (hrecord : ∀ client info status (α : Type) (program : EStateM Fault StatusState α),
      Q client → message.fileInfo? order = some info →
      client.syncSet.find? info = some status →
      RecordProgram order env message program →
        Q (client.putStatus info (endState (program ⟨status, client.files, []⟩))))
    (hanswered : ∀ client info, Q client → message.fileInfo? order = some info →
      Q (client.answered order info))
    (herased : ∀ client info, Q client → message.fileInfo? order = some info →
      Q (client.erased info)) :
    Triple P (handle order env message address) (fun _ => Q) fun _ => Q := by
  apply handle_triple
  · exact hused
  · exact fun _ hclient => hclient
  · intro info hinfo client hclient
    rw [getSyncStatus_apply]
    cases hfind : client.syncSet.find? info with
    | some status => exact hused client hclient
    | none =>
        cases hcreate : SyncStatus.create order env info address client.files with
        | error fault => exact hused client hclient
        | ok made => exact hcreated client info _ _ hclient hinfo hfind hcreate
  · intro info hinfo α program hprogram
    apply onStatus_triple
    · exact fun _ hclient _ => hclient
    · intro client status value state hclient hfind hok
      have hstep := hrecord client info status α program hclient hinfo hfind hprogram
      rwa [hok, endState_ok] at hstep
    · intro client status fault state hclient hfind herror
      have hstep := hrecord client info status α program hclient hinfo hfind hprogram
      rwa [herror, endState_error] at hstep
  · exact fun info hinfo client hclient => hanswered client info hclient hinfo
  · exact fun info hinfo client hclient => herased client info hclient hinfo

/-- A property that does not look at the records is kept when the queued
goodbyes keep it. -/
theorem handle_keeps_of_records {env : Environment} {message : Message}
    {address : Address}
    (hrecords : ∀ client, P client → ∀ syncSet files trace,
      P { client with syncSet := syncSet, files := files, trace := trace })
    (hqueue : ∀ client, P client →
      P { client with messageQueue := client.messageQueue ++
        [Message.bare order client.id MessageType.cgoodbye.code] }) :
    Keeps P P (handle order env message address) := by
  apply handle_triple
  · exact fun _ hclient => hclient
  · exact fun _ hclient => hclient
  · intro info _
    refine Keeps.bind Keeps.get fun client _ => ?_
    split
    · exact Keeps.pure _
    · refine Keeps.bind (Keeps.ofResult (fun _ hclient => hclient) _) fun _ _ => ?_
      exact Keeps.modify fun client hclient => hrecords client hclient _ _ _
  · intro info _ α program _
    apply onStatus_triple
    · exact fun _ hclient _ => hclient
    · exact fun client _ _ _ hclient _ _ => hrecords client hclient _ _ _
    · exact fun client _ _ _ hclient _ _ => hrecords client hclient _ _ _
  · exact fun info _ client hclient =>
      hrecords _ (hqueue client hclient) client.syncSet client.files _
  · exact fun info _ client hclient =>
      hrecords client hclient (client.syncSet.erase info) client.files _

theorem processMessage_of_received {input : ClientInput} {client : BlockClient}
    {message : Message} {socket : BlockSocket}
    (hreceive : BlockSocket.receive order receiveReserve input.arrival
      client.socket = .ok message socket) :
    processMessage order input client =
      handle order input.env message socket.sender
        { client with socket := socket } := by
  simp only [processMessage, bind_apply, Endpoint.receiveMessage, zoom, endpoint,
    hreceive, get_apply]

theorem processMessage_of_failed {input : ClientInput} {client : BlockClient}
    {fault : Fault} {socket : BlockSocket}
    (hreceive : BlockSocket.receive order receiveReserve input.arrival
      client.socket = .error fault socket) :
    processMessage order input client =
      .error fault { client with socket := socket } := by
  simp only [processMessage, bind_apply, Endpoint.receiveMessage, zoom, endpoint,
    hreceive]

theorem processMessage_keeps {input : ClientInput}
    (hweak : ∀ client, P client → E client)
    (hsender : ∀ client, P client → ∀ sender,
      P { client with socket := { client.socket with sender := sender } })
    (hhandle : ∀ message address, Keeps P E (handle order input.env message address)) :
    Keeps P E (processMessage order input) := by
  intro client hclient
  cases hreceive : BlockSocket.receive order receiveReserve input.arrival
      client.socket with
  | error fault socket =>
      rw [processMessage_of_failed hreceive]
      obtain ⟨sender, rfl⟩ := BlockSocket.receive_eq_error hreceive
      exact hweak _ (hsender client hclient sender)
  | ok message socket =>
      rw [processMessage_of_received hreceive]
      obtain ⟨sender, _, _, _, _, _, rfl⟩ := BlockSocket.receive_eq_ok hreceive
      exact hhandle message _ _ (hsender client hclient sender)

/-- When the reception throws, no message with a correct length has arrived. -/
theorem not_framed_of_receive_error {input : ClientInput} {ready : Ready} {fault : Fault}
    {before after : BlockSocket} (hready : input.ready = .ok ready)
    (hreadable : ready.readable = true)
    (hreceive : BlockSocket.receive order receiveReserve input.arrival before =
      .error fault after) (message : Message) (hmessage : input.message? = some message) :
    ¬ (message.buffer ≠ [] ∧ message.Framed order) := by
  rintro ⟨hnonempty, hframed⟩
  cases harrival : input.arrival with
  | error error =>
      rw [ClientInput.message?, hready, harrival] at hmessage
      contradiction
  | ok arrival =>
      rw [ClientInput.message?, hready, harrival] at hmessage
      simp only [hreadable, if_true] at hmessage
      cases hmessage
      have hnil : arrival.2 ≠ [] := by
        intro hnil
        apply hnonempty
        simp [Message.received, hnil]
      rw [harrival, BlockSocket.receive_framed hnil hframed] at hreceive
      contradiction

/-- One call of `select`: the message is handled if one is read, and then the front
of the queue may be sent. -/
theorem select_message {input : ClientInput} {F : Fault → BlockClient → Prop}
    (hheard : ∀ client sender, P client → P (client.heardFrom sender))
    (hhandle : ∀ message sender, input.message? = some message →
      Triple P (handle order input.env message sender) (fun _ => Q) F)
    (hreject : (∀ ready, input.ready = .ok ready → ready.readable = true) →
      (∀ message, input.message? = some message →
        ¬ (message.buffer ≠ [] ∧ message.Framed order)) →
          ∀ fault client, P client → F fault client)
    (hskip : input.message? = none → ∀ client, P client → Q client)
    (hsend : Triple (fun client => Q client ∧ endpoint.messageQueue client ≠ [])
      (endpoint.sendFront order input.sendError) (fun _ => Q) F) :
    Triple P (select order input) (fun _ => Q) F := by
  cases hready : input.ready with
  | error error =>
      intro client hclient
      have hselect : select order input client = .error (.system error) client := by
        rw [select, hready]
        rfl
      rw [hselect]
      refine hreject (fun ready hok => ?_) (fun message hmessage => ?_) _ _ hclient
      · rw [hready] at hok
        contradiction
      · rw [ClientInput.message?, hready] at hmessage
        contradiction
  | ok ready =>
      rw [select, hready]
      apply Endpoint.select_triple
      · intro hreadable client hclient
        cases hreceive : BlockSocket.receive order receiveReserve input.arrival
            client.socket with
        | error fault socket =>
            rw [processMessage_of_failed hreceive]
            obtain ⟨sender, rfl⟩ := BlockSocket.receive_eq_error hreceive
            have hall : ∀ other, input.ready = .ok other → other.readable = true := by
              intro other hother
              cases hready.symm.trans hother
              exact hreadable
            exact hreject hall (not_framed_of_receive_error hready hreadable hreceive) _ _
              (hheard client sender hclient)
        | ok message socket =>
            rw [processMessage_of_received hreceive]
            obtain ⟨sender, datagram, harrival, _, hreceived, _, rfl⟩ :=
              BlockSocket.receive_eq_ok hreceive
            refine hhandle message sender ?_ _ (hheard client sender hclient)
            rw [ClientInput.message?, hready, harrival, hreceived]
            exact if_pos hreadable
      · intro hidle client hclient
        refine hskip ?_ client hclient
        rw [ClientInput.message?, hready]
        cases input.arrival with
        | error error => rfl
        | ok arrival => exact if_neg (by simp [hidle])
      · have hweak : ∀ client : BlockClient, endpoint.messageQueue client ≠ [] → True :=
          fun _ _ => trivial
        apply processMessage_keeps hweak
        · exact fun _ hclient _ => hclient
        · intro message address
          have hkeeps : Keeps (fun client : BlockClient => client.messageQueue ≠ [])
              (fun client => client.messageQueue ≠ [])
              (handle order input.env message address) := by
            apply handle_keeps_of_records
            · exact fun _ hclient _ _ _ => hclient
            · exact fun _ _ => by simp
          exact hkeeps.weaken (fun _ h => h) (fun _ _ h => h) fun _ _ _ => trivial
      · exact hsend
      · exact fun _ hclient => hclient

/-- What does not look at the socket and the queue is kept by a call of `select`, if
the handlers keep it. -/
theorem select_keeps {input : ClientInput}
    (hother : ∀ client socket queue, P client →
      P { client with socket := socket, messageQueue := queue })
    (hhandle : ∀ message sender, Keeps P P (handle order input.env message sender)) :
    Keeps P P (select order input) := by
  have hweak : ∀ client, P client → P client := fun _ hclient => hclient
  apply Endpoint.select_keeps hweak
  · apply processMessage_keeps hweak
    · exact fun client hclient sender => hother client _ client.messageQueue hclient
    · exact hhandle
  · apply Endpoint.sendFront_keeps hweak
    · exact fun client _ rest socket _ hclient _ => hother client socket rest hclient
    · exact fun client _ _ _ socket _ hclient _ =>
        hother client socket client.messageQueue hclient

theorem start_keeps {ephemeral : UInt16} {openError : Option String}
    (hother : ∀ client socket queue, P client →
      P { client with socket := socket, messageQueue := queue }) :
    Keeps P P (start order ephemeral openError) := by
  refine Keeps.bind (Triple.zoom ?_ ?_) fun _ _ => Keeps.modify ?_
  · exact fun client _ socket hclient _ => hother client socket client.messageQueue hclient
  · exact fun client _ socket hclient _ => hother client socket client.messageQueue hclient
  · exact fun client hclient => hother client client.socket _ hclient

end BlockClient

namespace ClientRun

variable {order : ByteOrder}

theorem client_ofResult (result : EStateM.Result Fault BlockClient Unit) :
    (ofResult result).client = endState result := by
  cases result <;> rfl

/-- An invariant of the calls of `select` that return, in runs with these inputs. -/
theorem steps_keeps {P : BlockClient → Prop} {run : ClientRun}
    {inputs : List ClientInput} (hrun : run.fault = none → P run.client)
    (hselect : ∀ input ∈ inputs,
      Triple P (BlockClient.select order input) (fun _ => P) fun _ _ => True) :
    (run.steps order inputs).fault = none → P (run.steps order inputs).client := by
  induction inputs generalizing run with
  | nil => exact hrun
  | cons input inputs ih =>
      refine ih ?_ fun other hother => hselect other (List.mem_cons_of_mem _ hother)
      have hkept := hselect input List.mem_cons_self
      unfold ClientRun.step
      cases hfault : run.fault with
      | some fault => exact fun hnone => absurd hnone (by simp [hfault])
      | none =>
          split_ifs
          · cases hresult : BlockClient.select order input run.client with
            | ok value client => exact fun _ => hkept.ok (hrun hfault) hresult
            | error fault client => exact fun hnone => absurd hnone (by simp [ofResult])
          · exact fun _ => hrun hfault

theorem step_keeps {P : BlockClient → Prop} {run : ClientRun} {input : ClientInput}
    (hselect : Keeps P P (BlockClient.select order input)) (hrun : P run.client) :
    P (run.step order input).client := by
  unfold ClientRun.step
  split
  · split
    · rw [client_ofResult]
      exact hselect.endState hrun
    · exact hrun
  · exact hrun

theorem steps_keep {P : BlockClient → Prop} {run : ClientRun}
    (hselect : ∀ input, Keeps P P (BlockClient.select order input)) (hrun : P run.client)
    (inputs : List ClientInput) : P (run.steps order inputs).client := by
  induction inputs generalizing run with
  | nil => exact hrun
  | cons input inputs ih => exact ih (step_keeps (hselect input) hrun)

theorem Reachable.steps {client : BlockClient} {run : ClientRun}
    (hrun : Reachable order client run) (inputs : List ClientInput) :
    Reachable order client (run.steps order inputs) := by
  induction inputs generalizing run with
  | nil => exact hrun
  | cons input inputs ih => exact ih (hrun.step input)

/-- An invariant of `start` and of each call of `select`. -/
theorem Reachable.keeps {P : BlockClient → Prop} {client : BlockClient}
    {run : ClientRun} (hrun : Reachable order client run) (hclient : P client)
    (hstart : ∀ ephemeral openError,
      Keeps P P (BlockClient.start order ephemeral openError))
    (hselect : ∀ input, Keeps P P (BlockClient.select order input)) :
    P run.client := by
  induction hrun with
  | start ephemeral openError =>
      unfold ClientRun.start
      rw [client_ofResult]
      exact (hstart ephemeral openError).endState hclient
  | step _ input ih => exact step_keeps (hselect input) ih

/-- An invariant of the handlers that does not look at the socket and the queue. -/
theorem Reachable.keeps_of_handle {P : BlockClient → Prop} {client : BlockClient}
    {run : ClientRun} (hrun : Reachable order client run) (hclient : P client)
    (hother : ∀ client socket queue, P client →
      P { client with socket := socket, messageQueue := queue })
    (hhandle : ∀ env message sender,
      Keeps P P (BlockClient.handle order env message sender)) : P run.client :=
  hrun.keeps hclient (fun _ _ => BlockClient.start_keeps hother)
    fun input => BlockClient.select_keeps hother (hhandle input.env)

end ClientRun

end Multisync
