import Multisync.Slicing
import Mathlib.Tactic

/-!
# A file sent without gaps

As long as no wait of the server reads a datagram without writing one while the queue is
full, there is room for every block: the announcement and the blocks are posted once, in
their order.
-/

namespace Multisync

open ByteLayout Effects BlockAssembly

/-- The announcement and the first `count` blocks. -/
def filePosts (source : Bytes) (count : ℕ) : List Post :=
  .info :: (List.range count).map fun number => .block number (slice blockSize source number)

theorem filePosts_succ (source : Bytes) (count : ℕ) :
    filePosts source (count + 1) =
      filePosts source count ++ [.block count (slice blockSize source count)] := by
  rw [filePosts, List.range_succ, List.map_append]
  rfl

/-- A wait in which a datagram is read finds the socket writable too. -/
def ServerInput.Paced (input : ServerInput) : Prop :=
  ∀ datagram, input.arrival = .ok datagram → input.ready = .ok ⟨true, true⟩

/-- A datagram that arrives asks for no announcement. -/
def ServerInput.Quiet (order : ByteOrder) (input : ServerInput) : Prop :=
  ∀ sender datagram, input.arrival = .ok (sender, datagram) →
    (Message.received receiveReserve datagram).getType order ≠ MessageType.getinfo.code

namespace BlockServer

variable {order : ByteOrder} {initial server : BlockServer} {source : Bytes}
  {posts : List Post} {input : ServerInput}

/-- What is kept by a message that asks for no announcement. -/
theorem handle_keeps_of_quiet {P : BlockServer → Prop} {message : Message}
    (htype : message.getType order ≠ MessageType.getinfo.code)
    (hhosts : ∀ server, P server → ∀ hosts, P { server with hostInfo := hosts }) :
    Keeps P (fun _ => True) (handle order input message) := by
  apply handle_keeps_of_requests fun _ _ => trivial
  · exact hhosts
  · exact fun _ hgetinfo => absurd hgetinfo htype

theorem processMessage_keeps_of_quiet {P : BlockServer → Prop} (hquiet : input.Quiet order)
    (hhosts : ∀ server, P server → ∀ hosts, P { server with hostInfo := hosts })
    (hheard : ∀ server, P server → ∀ sender dispatched handled, P { server with
      socket := { server.socket with sender := sender }
      dispatched := dispatched
      handled := handled }) :
    Keeps P (fun _ => True) (processMessage order input) := by
  intro server hserver
  cases hreceive : BlockSocket.receive order receiveReserve input.arrival
      server.socket with
  | error fault socket =>
      rw [processMessage_of_failed hreceive]
      trivial
  | ok message socket =>
      rw [processMessage_of_received hreceive]
      obtain ⟨sender, datagram, harrival, _, rfl, _, rfl⟩ :=
        BlockSocket.receive_eq_ok hreceive
      have hhandle := @handle_keeps_of_quiet order input P _ (hquiet sender datagram harrival)
        hhosts
      have hstart := hheard server hserver sender
        (server.dispatched ++ [Message.received receiveReserve datagram]) server.handled
      cases hrun : handle order input (Message.received receiveReserve datagram)
          { server with
            socket := { server.socket with sender := sender }
            dispatched := server.dispatched ++ [Message.received receiveReserve datagram] } with
      | error fault final => trivial
      | ok value final =>
          exact hheard final (hhandle.ok hstart hrun) final.socket.sender final.dispatched _

/-- A wait that ends well keeps what was posted; if it is paced, it sends the front of
the queue. -/
theorem select_sends {mid : BlockServer} (hserves : Serves order initial posts server)
    (hwakes : endpoint.Wakes input.ready server) (hquiet : input.Quiet order)
    (hok : select order input server = .ok () mid) :
    Serves order initial posts mid ∧ mid.input = server.input ∧
      mid.messageQueue.length ≤ server.messageQueue.length ∧
        (input.Paced → mid.messageQueue = server.messageQueue.tail) := by
  let P : BlockServer → Prop := fun current => Serves order initial posts current ∧
    current.messageQueue = server.messageQueue ∧ current.input = server.input
  have hserver : P server := ⟨hserves, rfl, rfl⟩
  have hprocess : Keeps P (fun _ => True) (processMessage order input) := by
    apply processMessage_keeps_of_quiet hquiet
    · exact fun current hcurrent hosts =>
        ⟨hcurrent.1.of_same rfl rfl rfl rfl rfl rfl, hcurrent.2⟩
    · exact fun current hcurrent _ _ _ =>
        ⟨hcurrent.1.of_same rfl rfl rfl rfl rfl rfl, hcurrent.2⟩
  cases hready : input.ready with
  | error error =>
      rw [select, hready] at hok
      contradiction
  | ok ready =>
      rw [hready] at hwakes
      rw [select, hready, Endpoint.select_of_ready] at hok
      obtain ⟨_, current, hread, hsend⟩ := bind_eq_ok hok
      -- Reading leaves the queue as it was.
      have hcurrent : P current ∧
          (input.Paced → ready.readable = true → ready.writable = true) := by
        split_ifs at hread with hreadable
        · refine ⟨hprocess.ok hserver hread, fun hpaced _ => ?_⟩
          obtain ⟨datagram, harrival⟩ := processMessage_arrival hread
          have hboth := hpaced datagram harrival
          rw [hready] at hboth
          rw [Except.ok.inj hboth]
        · cases hread
          exact ⟨hserver, fun _ h => absurd h hreadable⟩
      obtain ⟨⟨hserves', hqueue, hinput⟩, hboth⟩ := hcurrent
      have hsame : endpoint.messageQueue server = server.messageQueue := rfl
      rw [hsame] at hsend
      split_ifs at hsend with hwrites
      · obtain ⟨message, rest, hcons⟩ := List.exists_cons_of_ne_nil hwrites.1
        obtain ⟨hmid, htail, hstream⟩ := sendFront_serves hserves' (hqueue.trans hcons) hsend
        rw [htail, hcons]
        exact ⟨hmid, hstream.trans hinput, Nat.le_succ _, fun _ => rfl⟩
      · cases hsend
        refine ⟨hserves', hinput, le_of_eq (congrArg _ hqueue), fun hpaced => ?_⟩
        -- The wait has ended, so there was nothing to write.
        have hempty : server.messageQueue = [] := by
          by_contra hne
          apply hwrites
          refine ⟨hne, ?_⟩
          cases hreadable : ready.readable with
          | true => exact hboth hpaced hreadable
          | false =>
              have hpolled : endpoint.messageQueue server ≠ [] ∧ ready.writable = true := by
                simpa [Endpoint.Wakes, Ready.wakes, hreadable] using hwakes
              exact hpolled.2
        rw [hqueue, hempty]
        rfl

/-- The first loop has another block to post after its wait, and no room for it before. -/
def Crowded (order : ByteOrder) (phase : ServerPhase) (server : BlockServer) : Prop :=
  5 ≤ server.messageQueue.length ∧ ∃ i, phase = .serving i ∧
    (i.getBlock order).toNat + 1 < (server.fileInfo.getBlockCount order).toNat

/-- Where the server waits or has returned: every block before the next was posted, and
in the first loop the queue is at most full. -/
inductive Sending (order : ByteOrder) (initial : BlockServer) (source : Bytes) :
    ServerPhase → BlockServer → Prop
  | serving {server : BlockServer} (number : ℕ)
      (hlt : number < blockCount blockSize source)
      (hserves : Serves order initial (filePosts source (number + 1)) server)
      (hshort : server.messageQueue.length ≤ 5)
      (hsource : server.input.source = some source)
      (hgood : number + 1 < blockCount blockSize source → server.input.good = true) :
      Sending order initial source (.serving (initial.fileInfo.blockAt order number)) server
  | draining {server : BlockServer}
      (hserves : Serves order initial (filePosts source (blockCount blockSize source))
        server) :
      Sending order initial source .draining server
  | returned {server : BlockServer}
      (hserves : Serves order initial (filePosts source (blockCount blockSize source))
        server)
      (hempty : server.messageQueue = []) :
      Sending order initial source .returned server

theorem Sending.serves {phase : ServerPhase}
    (hsending : Sending order initial source phase server) :
    ∃ count ≤ blockCount blockSize source,
      Serves order initial (filePosts source count) server := by
  cases hsending with
  | serving number hlt hserves _ _ _ => exact ⟨number + 1, hlt, hserves⟩
  | draining hserves => exact ⟨_, le_refl _, hserves⟩
  | returned hserves _ => exact ⟨_, le_refl _, hserves⟩

theorem Sending.of_returned (hsending : Sending order initial source .returned server) :
    Serves order initial (filePosts source (blockCount blockSize source)) server ∧
      server.messageQueue = [] := by
  cases hsending with
  | returned hserves hempty => exact ⟨hserves, hempty⟩

section Head

variable (hfile : (initial.fileInfo.getBlockCount order).toNat =
    blockCount blockSize source)
  (hlong : blockCount blockSize source ≤ 2 ^ 22)

include hfile hlong

/-- With room in the queue the head of the first loop posts the next block. -/
theorem HeadStep.sending {number : ℕ} {phase : ServerPhase} {final : BlockServer}
    {posts' : List Post}
    (hserves : Serves order initial (filePosts source number) server)
    (hle : number ≤ blockCount blockSize source)
    (hroom : number < blockCount blockSize source → server.messageQueue.length < 5)
    (hsource : server.input.source = some source)
    (hgood : number < blockCount blockSize source → server.input.good = true)
    (hstep : HeadStep order false number (filePosts source number) server phase final posts')
    (hfinal : Serves order initial posts' final) :
    Sending order initial source phase final := by
  have hcount : (server.fileInfo.getBlockCount order).toNat =
      blockCount blockSize source := by
    rw [hserves.fileInfo, hfile]
  cases hstep with
  | posted hlt _ _ =>
      rw [hcount] at hlt
      obtain ⟨hpayload, hfound, hnext⟩ :=
        @readBlock_of_good order server.fileInfo _ _ number (hgood hlt) hsource
      rw [Nat.mod_eq_of_lt (hlt.trans_le hlong)] at hpayload hnext
      rw [hserves.fileInfo] at hfinal hpayload hfound hnext ⊢
      refine .serving number hlt ?_ ?_ hfound fun hsucc =>
        hnext (length_slice_of_succ_lt hsucc)
      · rw [filePosts_succ]
        rw [hpayload] at hfinal ⊢
        exact hfinal
      · have hshort := hroom hlt
        simp only [List.length_append, List.length_singleton]
        omega
  | skipped hlt hfull =>
      rw [hcount] at hlt
      have hshort := hroom hlt
      exact absurd (by omega) hfull
  | drained hdone =>
      rw [hcount] at hdone
      have hnumber : number = blockCount blockSize source := by omega
      exact .draining (hnumber ▸ hserves)
  | returned hdone hempty =>
      rw [hcount] at hdone
      have hnumber : number = blockCount blockSize source := by omega
      exact .returned (hnumber ▸ hserves) hempty

theorem start_sending {ephemeral : UInt16} {openError : Option String}
    (hread : input.readError = false) (hfresh : Serves order initial [] initial)
    (hqueue : initial.messageQueue = []) (hsource : initial.input.source = some source)
    (hgood : initial.input.good = true) :
    (ServerRun.start order ephemeral openError input initial).Holds
      (Sending order initial source) (fun _ => True) := by
  apply ServerRun.holds_ofResult
  · intro phase final hok
    obtain ⟨mid, posts', hmid, hinput, hposted, hstep, hfinal⟩ := start_step hfresh hok
    rw [hread] at hstep
    have hannounced : Serves order initial (filePosts source 0) mid := hmid
    apply HeadStep.sending hfile hlong hannounced (Nat.zero_le _) ?_ (hinput ▸ hsource)
      (fun _ => hinput ▸ hgood) hstep hfinal
    intro _
    rw [hposted, hqueue]
    simp
  · exact fun _ _ _ => trivial

theorem resume_sending {phase : ServerPhase} (hread : input.readError = false)
    (hpaced : Crowded order phase server → input.Paced) (hquiet : input.Quiet order)
    (hwakes : endpoint.Wakes input.ready server)
    (hsending : Sending order initial source phase server) :
    (ServerRun.ofResult (resume order input phase server)).Holds
      (Sending order initial source) (fun _ => True) := by
  apply ServerRun.holds_ofResult
  · intro phase' final hok
    cases hsending with
    | serving number hlt hserves hshort hsource hgood =>
        obtain ⟨_, mid, hselect, hok⟩ := bind_eq_ok hok
        obtain ⟨hmid, hinput, hle, hqueue⟩ := select_sends hserves hwakes hquiet hselect
        rw [FileInfo.succ_blockAt, ← hmid.fileInfo] at hok
        obtain ⟨posts', hstep, hfinal⟩ := serveHead_step hmid (by omega) hok
        rw [hread] at hstep
        apply HeadStep.sending hfile hlong hmid hlt ?_ (hinput ▸ hsource)
          (fun hsucc => hinput ▸ hgood hsucc) hstep hfinal
        intro hsucc
        by_cases hroom : server.messageQueue.length < 5
        · exact hle.trans_lt hroom
        · have hcrowded : Crowded order (.serving (initial.fileInfo.blockAt order number))
              server := by
            refine ⟨Nat.le_of_not_lt hroom, _, rfl, ?_⟩
            rw [FileInfo.getBlock_blockAt _ _ (by omega), hserves.fileInfo, hfile]
            exact hsucc
          rw [hqueue (hpaced hcrowded), List.length_tail]
          omega
    | draining hserves =>
        obtain ⟨_, mid, hselect, hok⟩ := bind_eq_ok hok
        obtain ⟨hmid, _, _, _⟩ := select_sends hserves hwakes hquiet hselect
        rcases drainHead_apply mid with hmore | ⟨hnone, hempty⟩
        · rw [hmore] at hok
          cases hok
          exact .draining hmid
        · rw [hnone] at hok
          cases hok
          exact .returned hmid hempty
    | returned hserves hempty =>
        cases hok
        exact .returned hserves hempty
  · exact fun _ _ _ => trivial

end Head

end BlockServer

namespace ServerRun

variable {order : ByteOrder} {initial : BlockServer} {source : Bytes} {run : ServerRun}
  {input : ServerInput}

theorem step_sending
    (hfile : (initial.fileInfo.getBlockCount order).toNat = blockCount blockSize source)
    (hlong : blockCount blockSize source ≤ 2 ^ 22) (hread : input.readError = false)
    (hpaced : ∀ phase, run.phase = .ok phase →
      BlockServer.Crowded order phase run.server → input.Paced)
    (hquiet : input.Quiet order)
    (hrun : run.Holds (BlockServer.Sending order initial source) fun _ => True) :
    (run.step order input).Holds (BlockServer.Sending order initial source)
      fun _ => True := by
  unfold step
  split
  next phase hphase =>
    rw [Holds, hphase] at hrun
    split
    next hwakes =>
      exact BlockServer.resume_sending hfile hlong hread (hpaced phase hphase) hquiet hwakes
        hrun
    next =>
      rw [Holds, hphase]
      exact hrun
  next => exact hrun

/-- `start` sends nothing before it waits. -/
theorem start_sent {ephemeral : UInt16} {openError : Option String}
    (hsent : initial.socket.sent = []) :
    (start order ephemeral openError input initial).server.socket.sent = [] := by
  rw [start, server_ofResult]
  exact (@BlockServer.start_keeps_of_socket order (fun socket => socket.sent = []) ephemeral
    openError input fun _ _ hsocket => hsocket).endState hsent

/-- What was sent stays sent. -/
theorem step_sent (run : ServerRun) (input : ServerInput) :
    run.server.socket.sent <+: (run.step order input).server.socket.sent :=
  step_keeps (@BlockServer.resume_keeps_of_socket order
    (fun socket => run.server.socket.sent <+: socket.sent) input
    (fun _ _ hsocket => hsocket) fun _ _ hsocket hsent => hsocket.trans hsent)
    (List.prefix_refl _)

end ServerRun

end Multisync
