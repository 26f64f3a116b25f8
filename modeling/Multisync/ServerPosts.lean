import Multisync.MessageFormats
import Multisync.ServerExit
import Mathlib.Tactic

/-!
# What the server posts

Announcements and blocks are queued at the back and sent from the front, so what was
sent and what is queued, one after the other, are all posts in the order in which
they were made.  Only the loops of `start` post blocks: a request for one always
throws.
-/

namespace Multisync

open ByteLayout Effects

/-- A message that was queued: the announcement, or a numbered block. -/
inductive Post where
  | info
  | block (number : ℕ) (payload : Bytes)
  deriving DecidableEq, Repr

/-- The block with this number, as the loops of the server count them. -/
def FileInfo.blockAt (order : ByteOrder) (info : FileInfo) (number : ℕ) : BlockInfo :=
  BlockInfo.ofBlock order info (UInt32.ofNat number)

theorem FileInfo.getBlock_blockAt (order : ByteOrder) (info : FileInfo) {number : ℕ}
    (hlt : number < 2 ^ 32) : ((info.blockAt order number).getBlock order).toNat = number := by
  rw [blockAt, BlockInfo.ofBlock, BlockInfo.getBlock, order.ntohl_htonl,
    UInt32.toNat_ofNat', Nat.mod_eq_of_lt hlt]

theorem FileInfo.succ_blockAt (order : ByteOrder) (info : FileInfo) (number : ℕ) :
    (info.blockAt order number).succ order = info.blockAt order (number + 1) := by
  rw [blockAt, BlockInfo.succ, BlockInfo.ofBlock, order.ntohl_htonl, blockAt,
    BlockInfo.ofBlock, UInt32.ofNat_add]
  rfl

/-- No message carries both the metadata of a host and that of a block. -/
theorem Message.not_host_and_block {order : ByteOrder} {message : Message}
    {host : HostInfo} {block : BlockInfo}
    (hhost : message.getMetadata order HostInfo = .ok host)
    (hblock : message.getMetadata order BlockInfo = .ok block) : False := by
  have hoffset := Message.getOffset_of_getMetadata order hhost
  rw [Message.getOffset_of_getMetadata order hblock] at hoffset
  exact absurd hoffset (by decide)

namespace BlockServer

variable {order : ByteOrder} {initial server : BlockServer} {posts : List Post}

/-- The bytes of a post. -/
def render (order : ByteOrder) (server : BlockServer) : Post → Bytes
  | .info => (server.infoMessage order).buffer
  | .block number payload =>
      (blockMessage order server.id (server.fileInfo.blockAt order number)
        payload).buffer

/-- What was sent, and what is queued. -/
def posted (server : BlockServer) : List Bytes :=
  server.socket.sent.map Prod.snd ++ server.messageQueue.map Message.buffer

/-- The server has made these posts. -/
structure Serves (order : ByteOrder) (initial : BlockServer) (posts : List Post)
    (server : BlockServer) : Prop where
  id : server.id = initial.id
  path : server.path = initial.path
  fileInfo : server.fileInfo = initial.fileInfo
  destination : server.socket.destination = initial.socket.destination
  sent : ∀ datagram ∈ server.socket.sent, datagram.1 = initial.socket.destination
  posted : server.posted = posts.map (initial.render order)
  payloads : ∀ number payload, .block number payload ∈ posts →
    payload.length ≤ blockSize

theorem Serves.of_same (hserves : Serves order initial posts server)
    {server' : BlockServer} (hid : server'.id = server.id)
    (hpath : server'.path = server.path) (hfile : server'.fileInfo = server.fileInfo)
    (hdestination : server'.socket.destination = server.socket.destination)
    (hsent : server'.socket.sent = server.socket.sent)
    (hqueue : server'.messageQueue = server.messageQueue) :
    Serves order initial posts server' := by
  refine ⟨hid.trans hserves.id, hpath.trans hserves.path, hfile.trans hserves.fileInfo,
    hdestination.trans hserves.destination, ?_, ?_, hserves.payloads⟩
  · rw [hsent]
    exact hserves.sent
  · rw [BlockServer.posted, hsent, hqueue]
    exact hserves.posted

theorem Serves.pushInfo (hserves : Serves order initial posts server) :
    Serves order initial (posts ++ [.info])
      { server with messageQueue :=
        server.messageQueue ++ [server.infoMessage order] } := by
  refine ⟨hserves.id, hserves.path, hserves.fileInfo, hserves.destination, hserves.sent,
    ?_, ?_⟩
  · have hmessage : server.infoMessage order = initial.infoMessage order := by
      rw [infoMessage, hserves.id, hserves.fileInfo, hserves.path]
      rfl
    have hposted := hserves.posted
    simp only [BlockServer.posted, List.map_append, List.map_cons, List.map_nil] at hposted ⊢
    rw [← List.append_assoc, hposted, hmessage]
    rfl
  · intro number payload hmem
    exact hserves.payloads number payload (by simpa using hmem)

theorem Serves.pushBlock (hserves : Serves order initial posts server) (number : ℕ)
    {payload : Bytes} (hpayload : payload.length ≤ blockSize) (input : InStream) :
    Serves order initial (posts ++ [.block number payload])
      { server with
        messageQueue := server.messageQueue ++
          [blockMessage order server.id (server.fileInfo.blockAt order number) payload]
        input := input } := by
  refine ⟨hserves.id, hserves.path, hserves.fileInfo, hserves.destination, hserves.sent,
    ?_, ?_⟩
  · have hposted := hserves.posted
    simp only [BlockServer.posted, List.map_append, List.map_cons, List.map_nil] at hposted ⊢
    rw [← List.append_assoc, hposted, hserves.id, hserves.fileInfo]
    rfl
  · intro other data hmem
    rcases List.mem_append.mp hmem with hold | hnew
    · exact hserves.payloads other data hold
    · cases List.mem_singleton.mp hnew
      exact hpayload

/-- The front of the queue is the next post that was not sent. -/
theorem Serves.pop (hserves : Serves order initial posts server) {message : Message}
    {rest : List Message} (hqueue : server.messageQueue = message :: rest) :
    Serves order initial posts
      { server with
        socket := { server.socket with
          sent := server.socket.sent ++ [(server.socket.destination, message.buffer)] }
        messageQueue := rest } := by
  refine ⟨hserves.id, hserves.path, hserves.fileInfo, hserves.destination, ?_, ?_,
    hserves.payloads⟩
  · intro datagram hmem
    rcases List.mem_append.mp hmem with hold | hnew
    · exact hserves.sent datagram hold
    · rw [List.mem_singleton.mp hnew]
      exact hserves.destination
  · have hposted := hserves.posted
    rw [BlockServer.posted, hqueue] at hposted
    simpa [BlockServer.posted] using hposted

/-- Every post can be sent. -/
theorem render_sendable (hpath : initial.path.length < 2 ^ 32) {post : Post}
    (hpayload : ∀ number payload, post = .block number payload →
      payload.length ≤ blockSize) {message : Message}
    (hbuffer : message.buffer = initial.render order post) :
    message.Framed order ∧ message.buffer ≠ [] := by
  have hsmall : blockSize < 2 ^ 32 := by decide
  cases post with
  | info =>
      have hform := (infoMessage_wireForm order initial).of_buffer hbuffer
      exact ⟨hform.framed hpath order, hform.buffer_ne_nil⟩
  | block number payload =>
      have hle := hpayload number payload rfl
      have hform := (blockMessage_wireForm initial.id
        (initial.fileInfo.blockAt order number) hle).of_buffer hbuffer
      exact ⟨hform.framed (by omega) order, hform.buffer_ne_nil⟩

theorem Serves.sendable (hserves : Serves order initial posts server)
    (hpath : initial.path.length < 2 ^ 32) :
    ∀ message ∈ server.messageQueue, message.Framed order ∧ message.buffer ≠ [] := by
  intro message hmessage
  have hmem : message.buffer ∈ server.posted :=
    List.mem_append_right _ (List.mem_map_of_mem hmessage)
  rw [hserves.posted] at hmem
  obtain ⟨post, hpost, hrender⟩ := List.mem_map.mp hmem
  exact render_sendable hpath
    (fun number payload heq => hserves.payloads number payload (heq ▸ hpost))
    hrender.symm

/-! ## One call of `select` -/

/-- A request for a block throws, whatever it asks for. -/
theorem handle_keeps_of_requests {P E : BlockServer → Prop} {input : ServerInput}
    {message : Message} (hweak : ∀ server, P server → E server)
    (hhosts : ∀ server, P server → ∀ hosts, P { server with hostInfo := hosts })
    (hinfo : ∀ host, message.getType order = MessageType.getinfo.code →
      message.getMetadata order HostInfo = .ok host → ∀ server, P server →
        P { server with messageQueue :=
          server.messageQueue ++ [server.infoMessage order] }) :
    Keeps P E (handle order input message) := by
  have hinsert : ∀ info, Keeps P E (insertHost info) := fun info =>
    Keeps.modify fun server hserver => hhosts server hserver _
  unfold handle
  refine Triple.ite (fun _ => ?_) fun _ => Triple.ite (fun htype => ?_) fun _ =>
    Triple.ite (fun _ => ?_) fun _ => Triple.ite (fun _ => ?_) fun _ => Keeps.pure _
  · exact Keeps.bind (Keeps.ofResult hweak _) fun info _ => hinsert info
  · refine Triple.ofResult_bind (fun host hhost => ?_) fun _ _ => hweak
    exact Keeps.bind (hinsert host) fun _ _ => Keeps.modify (hinfo host htype hhost)
  · refine Triple.ofResult_bind (fun host hhost => ?_) fun _ _ => hweak
    refine Keeps.bind (hinsert host) fun _ _ => ?_
    refine Triple.ofResult_bind (fun block hblock => ?_) fun _ _ => hweak
    exact (Message.not_host_and_block hhost hblock).elim
  · refine Keeps.bind (Keeps.ofResult hweak _) fun info _ => ?_
    exact Keeps.modify fun server hserver => hhosts server hserver _

/-- The posts so far, and any number of announcements; the source was not read. -/
def Waits (order : ByteOrder) (initial : BlockServer) (posts : List Post)
    (input : InStream) (server : BlockServer) : Prop :=
  ∃ infos, (∀ post ∈ infos, post = .info) ∧
    Serves order initial (posts ++ infos) server ∧ server.input = input

theorem Serves.waits (hserves : Serves order initial posts server) :
    Waits order initial posts server.input server :=
  ⟨[], by simp, by simpa using hserves, rfl⟩

/-- Whatever was sent or is queued is the announcement or one of these posts. -/
def Within (order : ByteOrder) (initial : BlockServer) (posts : List Post)
    (server : BlockServer) : Prop :=
  ∀ bytes ∈ server.posted, ∃ post, (post = .info ∨ post ∈ posts) ∧
    bytes = initial.render order post

theorem Serves.within (hserves : Serves order initial posts server) :
    Within order initial posts server := by
  intro bytes hbytes
  rw [hserves.posted] at hbytes
  obtain ⟨post, hpost, hrender⟩ := List.mem_map.mp hbytes
  exact ⟨post, Or.inr hpost, hrender.symm⟩

theorem Waits.within {stream : InStream} (hwaits : Waits order initial posts stream server) :
    Within order initial posts server := by
  obtain ⟨infos, hinfos, hserves, _⟩ := hwaits
  intro bytes hbytes
  obtain ⟨post, hnone | hpost, hrender⟩ := hserves.within bytes hbytes
  · exact ⟨post, Or.inl hnone, hrender⟩
  · rcases List.mem_append.mp hpost with hold | hnew
    · exact ⟨post, Or.inr hold, hrender⟩
    · exact ⟨post, Or.inl (hinfos post hnew), hrender⟩

/-- A send that throws has sent nothing, or the front of the queue. -/
theorem Within.send (hwithin : Within order initial posts server) {message : Message}
    {rest : List Message} {sendError : Option String} {fault : Fault}
    {socket : BlockSocket} (hqueue : server.messageQueue = message :: rest)
    (herror : BlockSocket.send order message sendError server.socket =
      .error fault socket) :
    Within order initial posts { server with socket := socket } := by
  cases sendError with
  | some error =>
      cases herror
      exact hwithin
  | none =>
      have hsent : socket.sent =
          server.socket.sent ++ [(server.socket.destination, message.buffer)] := by
        rw [BlockSocket.send_eq] at herror
        split_ifs at herror <;> cases herror <;> rfl
      have hfront : message.buffer ∈ server.posted := by
        rw [posted, hqueue]
        simp
      intro bytes hbytes
      simp only [posted, hsent, List.map_append, List.map_cons, List.map_nil] at hbytes
      rcases List.mem_append.mp hbytes with hbytes | hbytes
      · rcases List.mem_append.mp hbytes with hold | hnew
        · exact hwithin bytes (List.mem_append_left _ hold)
        · rw [List.mem_singleton.mp hnew]
          exact hwithin _ hfront
      · exact hwithin bytes (List.mem_append_right _ hbytes)

/-- What is sent was posted before. -/
theorem sendFront_serves {sendError : Option String} {message : Message}
    {rest : List Message} {final : BlockServer} (hserves : Serves order initial posts server)
    (hqueue : server.messageQueue = message :: rest)
    (hok : endpoint.sendFront order sendError server = .ok () final) :
    Serves order initial posts final ∧ final.messageQueue = rest ∧
      final.input = server.input := by
  obtain ⟨front, others, hfront, rfl⟩ := Endpoint.sendFront_eq_ok hok
  cases hqueue.symm.trans hfront
  exact ⟨hserves.pop hqueue, rfl, rfl⟩

/-- A call of `select` posts nothing but announcements. -/
theorem select_waits {stream : InStream} (input : ServerInput) :
    Keeps (Waits order initial posts stream) (Within order initial posts)
      (select order input) := by
  have hweak : ∀ server, Waits order initial posts stream server →
      Within order initial posts server := fun _ hwaits => hwaits.within
  have hsame : ∀ server server' : BlockServer, Waits order initial posts stream server →
      server'.id = server.id → server'.path = server.path →
      server'.fileInfo = server.fileInfo →
      server'.socket.destination = server.socket.destination →
      server'.socket.sent = server.socket.sent →
      server'.messageQueue = server.messageQueue → server'.input = server.input →
        Waits order initial posts stream server' := by
    rintro server server' ⟨infos, hinfos, hserves, hstream⟩ hid hpath hfile hdestination
      hsent hqueue hinput
    exact ⟨infos, hinfos, hserves.of_same hid hpath hfile hdestination hsent hqueue,
      hinput.trans hstream⟩
  apply Endpoint.select_keeps hweak
  · apply processMessage_keeps hweak
    · exact fun server hserver sender => hsame server _ hserver rfl rfl rfl rfl rfl rfl rfl
    · exact fun server hserver _ _ => hsame server _ hserver rfl rfl rfl rfl rfl rfl rfl
    · intro message
      apply handle_keeps_of_requests hweak
      · exact fun server hserver _ => hsame server _ hserver rfl rfl rfl rfl rfl rfl rfl
      · rintro _ _ _ server ⟨infos, hinfos, hserves, hstream⟩
        refine ⟨infos ++ [.info], ?_, ?_, hstream⟩
        · intro post hpost
          rcases List.mem_append.mp hpost with hold | hnew
          · exact hinfos post hold
          · exact List.mem_singleton.mp hnew
        · rw [← List.append_assoc]
          exact hserves.pushInfo
  · apply Endpoint.sendFront_keeps hweak
    · rintro server message rest socket hqueue ⟨infos, hinfos, hserves, hstream⟩ hok
      refine ⟨infos, hinfos, ?_, hstream⟩
      rw [BlockSocket.send_eq_ok order hok]
      exact hserves.pop hqueue
    · exact fun server message rest fault socket hqueue hwaits herror =>
        hwaits.within.send hqueue herror

/-! ## The first loop -/

/-- A block is posted when the queue is short. -/
theorem serveHead_of_room {input : ServerInput} {number : ℕ}
    (hlt : number < 2 ^ 32)
    (hcount : number < (server.fileInfo.getBlockCount order).toNat)
    (hroom : server.messageQueue.length < 5) :
    serveHead order input (server.fileInfo.blockAt order number) server =
      let read := readBlock order input.readError
        (server.fileInfo.blockAt order number) server.input
      let final := { server with
        messageQueue := server.messageQueue ++
          [blockMessage order server.id (server.fileInfo.blockAt order number) read.1]
        input := read.2 }
      if read.2.bad = true then .error (.readFailed input.error) final
      else .ok (.serving (server.fileInfo.blockAt order number)) final := by
  have hless : (server.fileInfo.blockAt order number).getBlock order <
      server.fileInfo.getBlockCount order := by
    rw [UInt32.lt_iff_toNat_lt, FileInfo.getBlock_blockAt _ _ hlt]
    exact hcount
  simp only [serveHead, bind_apply, get_apply]
  rw [if_pos hless, if_pos hroom]
  simp only [bind_apply, enqueueBlock_apply]
  split_ifs <;> rfl

/-- The number goes on when the queue is long, but no block is posted. -/
theorem serveHead_of_full {input : ServerInput} {number : ℕ}
    (hlt : number < 2 ^ 32)
    (hcount : number < (server.fileInfo.getBlockCount order).toNat)
    (hfull : ¬ server.messageQueue.length < 5) :
    serveHead order input (server.fileInfo.blockAt order number) server =
      .ok (.serving (server.fileInfo.blockAt order number)) server := by
  have hless : (server.fileInfo.blockAt order number).getBlock order <
      server.fileInfo.getBlockCount order := by
    rw [UInt32.lt_iff_toNat_lt, FileInfo.getBlock_blockAt _ _ hlt]
    exact hcount
  simp only [serveHead, bind_apply, get_apply]
  rw [if_pos hless, if_neg hfull]
  rfl

theorem serveHead_of_done {input : ServerInput} {number : ℕ}
    (hlt : number < 2 ^ 32)
    (hcount : ¬ number < (server.fileInfo.getBlockCount order).toNat) :
    serveHead order input (server.fileInfo.blockAt order number) server =
      drainHead server := by
  have hless : ¬ (server.fileInfo.blockAt order number).getBlock order <
      server.fileInfo.getBlockCount order := by
    rw [UInt32.lt_iff_toNat_lt, FileInfo.getBlock_blockAt _ _ hlt]
    exact hcount
  simp only [serveHead, bind_apply, get_apply]
  rw [if_neg hless]

/-- The second loop ends with an empty queue. -/
theorem drainHead_apply (server : BlockServer) :
    drainHead server = .ok .draining server ∨
      drainHead server = .ok .returned server ∧ server.messageQueue = [] := by
  simp only [drainHead, bind_apply, get_apply]
  by_cases hmore : (!server.hostInfo.isEmpty) = true ∨ 0 < server.messageQueue.length
  · left
    rw [if_pos hmore]
    rfl
  · right
    rw [if_neg hmore]
    refine ⟨rfl, List.eq_nil_of_length_eq_zero ?_⟩
    omega

/-- What the head of the first loop may do with the block of the given number, and
the posts afterwards. -/
inductive HeadStep (order : ByteOrder) (readError : Bool) (number : ℕ)
    (posts : List Post) (server : BlockServer) :
    ServerPhase → BlockServer → List Post → Prop
  | posted (hcount : number < (server.fileInfo.getBlockCount order).toNat)
      (hroom : server.messageQueue.length < 5)
      (hread : (readBlock order readError (server.fileInfo.blockAt order number)
        server.input).2.bad = false) :
      HeadStep order readError number posts server
        (.serving (server.fileInfo.blockAt order number))
        { server with
          messageQueue := server.messageQueue ++
            [blockMessage order server.id (server.fileInfo.blockAt order number)
              (readBlock order readError (server.fileInfo.blockAt order number)
                server.input).1]
          input := (readBlock order readError (server.fileInfo.blockAt order number)
            server.input).2 }
        (posts ++ [.block number (readBlock order readError
          (server.fileInfo.blockAt order number) server.input).1])
  | skipped (hcount : number < (server.fileInfo.getBlockCount order).toNat)
      (hfull : ¬ server.messageQueue.length < 5) :
      HeadStep order readError number posts server
        (.serving (server.fileInfo.blockAt order number)) server posts
  | drained (hdone : ¬ number < (server.fileInfo.getBlockCount order).toNat) :
      HeadStep order readError number posts server .draining server posts
  | returned (hdone : ¬ number < (server.fileInfo.getBlockCount order).toNat)
      (hempty : server.messageQueue = []) :
      HeadStep order readError number posts server .returned server posts

theorem serveHead_step {input : ServerInput} {number : ℕ} {phase : ServerPhase}
    {final : BlockServer} (hserves : Serves order initial posts server)
    (hlt : number < 2 ^ 32)
    (hok : serveHead order input (server.fileInfo.blockAt order number) server =
      .ok phase final) :
    ∃ posts', HeadStep order input.readError number posts server phase final posts' ∧
      Serves order initial posts' final := by
  by_cases hcount : number < (server.fileInfo.getBlockCount order).toNat
  · by_cases hroom : server.messageQueue.length < 5
    · rw [serveHead_of_room hlt hcount hroom] at hok
      simp only at hok
      split_ifs at hok with hbad
      cases hok
      exact ⟨_, .posted hcount hroom (Bool.eq_false_iff.mpr hbad),
        hserves.pushBlock number (length_readBlock_le order _ _ _) _⟩
    · rw [serveHead_of_full hlt hcount hroom] at hok
      cases hok
      exact ⟨posts, .skipped hcount hroom, hserves⟩
  · rw [serveHead_of_done hlt hcount] at hok
    rcases drainHead_apply server with hmore | ⟨hnone, hempty⟩
    · rw [hmore] at hok
      cases hok
      exact ⟨posts, .drained hcount, hserves⟩
    · rw [hnone] at hok
      cases hok
      exact ⟨posts, .returned hcount hempty, hserves⟩

theorem readBlock_not_bad (i : BlockInfo) {input : InStream} (hbad : input.bad = false) :
    (readBlock order false i input).2.bad = false := by
  apply InStream.read_not_bad
  unfold InStream.seekg
  split
  · exact hbad
  · exact hbad

/-- While the source can be read the head of the first loop does not throw. -/
theorem serveHead_returns {input : ServerInput} (hread : input.readError = false)
    (hbad : server.input.bad = false) (i : BlockInfo) :
    ∃ phase final, serveHead order input i server = .ok phase final := by
  have hdrain : ∃ phase final, drainHead server = .ok phase final := by
    rcases drainHead_apply server with hmore | ⟨hnone, _⟩
    · exact ⟨_, _, hmore⟩
    · exact ⟨_, _, hnone⟩
  have henqueue : ∃ final, enqueueBlock order input.readError input.error i server =
      .ok () final := by
    rw [enqueueBlock_apply, hread]
    simp only [readBlock_not_bad i hbad]
    exact ⟨_, rfl⟩
  simp only [serveHead, bind_apply, get_apply]
  split_ifs
  · obtain ⟨final, hfinal⟩ := henqueue
    simp only [bind_apply, hfinal]
    exact ⟨_, _, rfl⟩
  · exact ⟨_, _, rfl⟩
  · exact hdrain

/-- A server that has not posted anything. -/
theorem Serves.fresh (hposted : initial.socket.sent = [])
    (hqueue : initial.messageQueue = []) : Serves order initial [] initial := by
  refine ⟨rfl, rfl, rfl, rfl, ?_, ?_, ?_⟩
  · intro datagram hmem
    rw [hposted] at hmem
    contradiction
  · rw [BlockServer.posted, hposted, hqueue]
    rfl
  · intro number payload hmem
    contradiction

/-- `start` announces the file and goes on to block 0. -/
theorem start_step {ephemeral : UInt16} {openError : Option String}
    {input : ServerInput} {phase : ServerPhase} {final : BlockServer}
    (hserves : Serves order initial [] initial)
    (hok : start order ephemeral openError input initial = .ok phase final) :
    ∃ mid posts', Serves order initial [.info] mid ∧ mid.input = initial.input ∧
      mid.messageQueue = initial.messageQueue ++ [initial.infoMessage order] ∧
      HeadStep order input.readError 0 [.info] mid phase final posts' ∧
      Serves order initial posts' final := by
  obtain ⟨_, opened, hopen, hok⟩ := bind_eq_ok hok
  cases openError with
  | some error => contradiction
  | none =>
      cases hopen
      obtain ⟨_, mid, hpush, hok⟩ := bind_eq_ok hok
      cases hpush
      obtain ⟨_, _, hget, hok⟩ := bind_eq_ok hok
      cases hget
      let port := if initial.socket.group.port = 0 then ephemeral
        else initial.socket.group.port
      let opened : BlockServer :=
        { initial with socket := { initial.socket with bound := some port } }
      have hopened : Serves order initial [] opened :=
        hserves.of_same rfl rfl rfl rfl rfl rfl
      have hmid := hopened.pushInfo
      obtain ⟨posts', hstep, hfinal⟩ := @serveHead_step _ _ _ _ _ 0 _ _ hmid (by decide) hok
      exact ⟨_, posts', hmid, rfl, rfl, hstep, hfinal⟩

/-- From one wait of the first loop to the next. -/
theorem resume_serving_step {input : ServerInput} {number : ℕ} {phase : ServerPhase}
    {final : BlockServer} (hserves : Serves order initial posts server)
    (hnumber : number < (server.fileInfo.getBlockCount order).toNat)
    (hok : resume order input (.serving (server.fileInfo.blockAt order number)) server =
      .ok phase final) :
    ∃ mid infos posts', select order input server = .ok () mid ∧
      (∀ post ∈ infos, post = .info) ∧ Serves order initial (posts ++ infos) mid ∧
      mid.input = server.input ∧
      HeadStep order input.readError (number + 1) (posts ++ infos) mid phase final
        posts' ∧
      Serves order initial posts' final := by
  have hlt := (server.fileInfo.getBlockCount order).toNat_lt
  obtain ⟨_, mid, hselect, hok⟩ := bind_eq_ok hok
  obtain ⟨infos, hinfos, hmid, hstream⟩ := (select_waits input).ok hserves.waits hselect
  have hfile : server.fileInfo = mid.fileInfo := hserves.fileInfo.trans hmid.fileInfo.symm
  rw [FileInfo.succ_blockAt, hfile] at hok
  obtain ⟨posts', hstep, hfinal⟩ := serveHead_step hmid (by omega) hok
  exact ⟨mid, infos, posts', hselect, hinfos, hmid, hstream, hstep, hfinal⟩

/-- From one wait of the second loop to the next. -/
theorem resume_draining_step {input : ServerInput} {phase : ServerPhase}
    {final : BlockServer} (hserves : Serves order initial posts server)
    (hok : resume order input .draining server = .ok phase final) :
    ∃ infos, (∀ post ∈ infos, post = .info) ∧
      Serves order initial (posts ++ infos) final ∧ final.input = server.input ∧
      (phase = .draining ∨ phase = .returned ∧ final.messageQueue = []) := by
  obtain ⟨_, mid, hselect, hok⟩ := bind_eq_ok hok
  obtain ⟨infos, hinfos, hmid, hstream⟩ := (select_waits input).ok hserves.waits hselect
  rcases drainHead_apply mid with hmore | ⟨hnone, hempty⟩
  · rw [hmore] at hok
    cases hok
    exact ⟨infos, hinfos, hmid, hstream, Or.inl rfl⟩
  · rw [hnone] at hok
    cases hok
    exact ⟨infos, hinfos, hmid, hstream, Or.inr ⟨rfl, hempty⟩⟩

/-- What is left when a wait throws. -/
theorem resume_error {input : ServerInput} {phase : ServerPhase} {fault : Fault}
    {final : BlockServer} (hserves : Serves order initial posts server)
    (hread : input.readError = false) (hbad : server.input.bad = false)
    (herror : resume order input phase server = .error fault final) :
    Within order initial posts final := by
  have hselect {next : EStateM Fault BlockServer ServerPhase}
      (hnext : ∀ mid : BlockServer, mid.input = server.input →
        ∃ phase final, next mid = .ok phase final)
      (herror : (select order input >>= fun _ => next) server = .error fault final) :
      Within order initial posts final := by
    rw [bind_apply] at herror
    cases hrun : select order input server with
    | error fault' server' =>
        rw [hrun] at herror
        cases herror
        exact (select_waits input).error hserves.waits hrun
    | ok value mid =>
        obtain ⟨_, _, _, hstream⟩ := (select_waits input).ok hserves.waits hrun
        obtain ⟨phase, final', hok⟩ := hnext mid hstream
        rw [hrun] at herror
        simp only [hok] at herror
        contradiction
  cases phase with
  | serving i =>
      exact hselect (fun mid hmid => serveHead_returns hread (hmid ▸ hbad) _) herror
  | draining =>
      refine hselect (fun mid _ => ?_) herror
      rcases drainHead_apply mid with hmore | ⟨hnone, _⟩
      · exact ⟨_, _, hmore⟩
      · exact ⟨_, _, hnone⟩
  | returned => contradiction

end BlockServer

end Multisync
