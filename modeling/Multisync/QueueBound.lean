import Multisync.Addressing
import Multisync.ServerPosts
import Mathlib.Tactic

/-!
# How long does the server's queue get?

The first loop pushes a block only while fewer than five messages are queued, and a
request for a block never comes to push one.  A request for the announcement pushes
without a look at the queue, so the bound holds in exactly the runs in which no such
request finds five messages there.
-/

namespace Multisync

open ByteLayout Effects

/-- A request for the announcement is read, and its handler does not throw. -/
structure ServerInput.Requests (order : ByteOrder) (input : ServerInput)
    (datagram : Bytes) (host : HostInfo) : Prop where
  ready : ∃ writable, input.ready = .ok ⟨true, writable⟩
  arrival : ∃ sender, input.arrival = .ok (sender, datagram)
  nonempty : datagram ≠ []
  framed : (Message.received receiveReserve datagram).Framed order
  type : (Message.received receiveReserve datagram).getType order =
    MessageType.getinfo.code
  host : (Message.received receiveReserve datagram).getMetadata order HostInfo = .ok host

/-- The queue is not longer than the first loop lets it get. -/
def BlockServer.Short (server : BlockServer) : Prop :=
  server.messageQueue.length ≤ 5

namespace ServerRun

variable (order : ByteOrder)

/-- The run waits in one of the two loops. -/
def Waiting (run : ServerRun) : Prop :=
  ∃ phase, run.phase = .ok phase ∧ phase ≠ .returned

/-- The call of `select` the run waits in handles a request for the announcement, with
five messages queued. -/
def Crowded (input : ServerInput) (run : ServerRun) : Prop :=
  run.Waiting ∧ 5 ≤ run.server.messageQueue.length ∧
    ∃ datagram host, input.Requests order datagram host

/-- The server between the handler and the send, or where the handler has thrown. -/
def handled (input : ServerInput) (run : ServerRun) : BlockServer :=
  match run.phase, input.ready with
  | .ok .returned, _ => run.server
  | .ok _, .ok ready =>
      if ready.readable = true then
        endState (BlockServer.processMessage order input run.server)
      else run.server
  | _, _ => run.server

/-- The queue is short in every state that the run goes through. -/
def StaysShort : ServerRun → List ServerInput → Prop
  | run, [] => run.server.Short
  | run, input :: inputs => run.server.Short ∧ (run.handled order input).Short ∧
      StaysShort (run.step order input) inputs

/-- No request for the announcement is handled while five messages are queued. -/
def NeverCrowded : ServerRun → List ServerInput → Prop
  | _, [] => True
  | run, input :: inputs => ¬ run.Crowded order input ∧
      NeverCrowded (run.step order input) inputs

end ServerRun

namespace BlockServer

variable {order : ByteOrder} {input : ServerInput} {server final : BlockServer}
  {i : BlockInfo} {phase : ServerPhase}

/-- A handled request is one more message in the queue. -/
theorem processMessage_requests {datagram : Bytes} {host : HostInfo}
    (hrequests : input.Requests order datagram host) (server : BlockServer) :
    ∃ final, processMessage order input server = .ok () final ∧
      final.messageQueue = server.messageQueue ++ [server.infoMessage order] := by
  obtain ⟨sender, harrival⟩ := hrequests.arrival
  have hreceive := @BlockSocket.receive_framed order receiveReserve datagram
    hrequests.nonempty hrequests.framed sender server.socket
  rw [← harrival] at hreceive
  have hchello : MessageType.getinfo.code ≠ MessageType.chello.code := by simp
  rw [processMessage_of_received hreceive, handle, hrequests.type, if_neg hchello,
    if_pos rfl, handleGetinfo, ofResult_bind_of_ok hrequests.host]
  exact ⟨_, rfl, rfl⟩

/-- Nothing but a request for the announcement is answered. -/
theorem processMessage_quiet
    (hquiet : ∀ datagram host, ¬ input.Requests order datagram host)
    (hready : ∃ writable, input.ready = .ok ⟨true, writable⟩) (server : BlockServer) :
    (endState (processMessage order input server)).messageQueue = server.messageQueue := by
  cases hreceive : BlockSocket.receive order receiveReserve input.arrival
      server.socket with
  | error fault socket =>
      rw [processMessage_of_failed hreceive]
      rfl
  | ok message socket =>
      obtain ⟨sender, datagram, harrival, hnonempty, rfl, hframed, rfl⟩ :=
        BlockSocket.receive_eq_ok hreceive
      have hkeeps : Keeps (fun current => current.messageQueue = server.messageQueue)
          (fun current => current.messageQueue = server.messageQueue)
          (handle order input (Message.received receiveReserve datagram)) := by
        apply handle_keeps_of_requests fun _ hcurrent => hcurrent
        · exact fun _ hcurrent _ => hcurrent
        · intro host htype hhost
          exact absurd ⟨hready, ⟨sender, harrival⟩, hnonempty, hframed, htype, hhost⟩
            (hquiet datagram host)
      have hend := @Keeps.endState _ _ _ _ _ hkeeps { server with
        socket := { server.socket with sender := sender }
        dispatched := server.dispatched ++ [Message.received receiveReserve datagram] } rfl
      rw [processMessage_of_received hreceive]
      cases hrun : handle order input (Message.received receiveReserve datagram)
          { server with
            socket := { server.socket with sender := sender }
            dispatched := server.dispatched ++ [Message.received receiveReserve datagram] } with
      | error fault current =>
          rw [hrun] at hend
          exact hend
      | ok value current =>
          rw [hrun] at hend
          exact hend

/-- Sending makes the queue no longer. -/
theorem sendFront_short {sendError : Option String} :
    Keeps Short Short (endpoint.sendFront order sendError) := by
  apply Endpoint.sendFront_keeps fun _ hserver => hserver
  · intro server message rest socket hqueue hserver _
    have hcons : server.messageQueue = message :: rest := hqueue
    rw [Short, hcons, List.length_cons] at hserver
    exact Nat.le_of_succ_le hserver
  · exact fun _ _ _ _ _ _ hserver _ => hserver

/-- The first loop pushes when there is room. -/
theorem serveHead_short : Keeps Short Short (serveHead order input i) := by
  intro server hserver
  rw [serveHead, bind_of_ok (get_apply _)]
  have hdrain := @drainHead_keeps Short Short server hserver
  split_ifs with hless hroom
  · have hroom' : server.messageQueue.length + 1 ≤ 5 := by omega
    simp only [bind_apply, enqueueBlock_apply]
    split_ifs
    · simpa [Short] using hroom'
    · simpa [Short] using hroom'
  · exact hserver
  · exact hdrain

/-- A call of `select` keeps the queue short when the handler has. -/
theorem select_short (hserver : server.Short)
    (hhandled : ∀ writable, input.ready = .ok ⟨true, writable⟩ →
      (endState (processMessage order input server)).Short) :
    (endState (select order input server)).Short := by
  unfold select
  cases hready : input.ready with
  | error error => exact hserver
  | ok ready =>
      rw [Endpoint.select_of_ready, bind_apply]
      have hsend : ∀ mid, Short mid → Short (endState
          ((if endpoint.messageQueue server ≠ [] ∧ ready.writable = true then
            endpoint.sendFront order input.sendError
          else pure ()) mid)) := by
        intro mid hmid
        split_ifs
        · exact sendFront_short.endState hmid
        · exact hmid
      obtain ⟨readable, writable⟩ := ready
      cases readable with
      | false => exact hsend server hserver
      | true =>
          have hmid := hhandled writable hready
          cases hrun : processMessage order input server with
          | error fault mid =>
              rw [hrun] at hmid
              simpa [hrun] using hmid
          | ok value mid =>
              rw [hrun] at hmid
              simpa [hrun] using hsend mid hmid

theorem resume_short (hserver : server.Short)
    (hhandled : phase ≠ .returned → ∀ writable, input.ready = .ok ⟨true, writable⟩ →
      (endState (processMessage order input server)).Short) :
    (endState (resume order input phase server)).Short := by
  have hselect : phase ≠ .returned → (endState (select order input server)).Short :=
    fun hwaits => select_short hserver (hhandled hwaits)
  have hbind : ∀ next : EStateM Fault BlockServer ServerPhase, Keeps Short Short next →
      phase ≠ .returned →
        (endState ((select order input >>= fun _ => next) server)).Short := by
    intro next hnext hwaits
    have hmid := hselect hwaits
    rw [bind_apply]
    cases hrun : select order input server with
    | error fault mid =>
        rw [hrun] at hmid
        exact hmid
    | ok value mid =>
        rw [hrun] at hmid
        exact hnext.endState hmid
  cases phase with
  | serving i => exact hbind _ serveHead_short (by simp)
  | draining => exact hbind _ drainHead_keeps (by simp)
  | returned => exact hserver

theorem start_short {ephemeral : UInt16} {openError : Option String}
    (hqueue : server.messageQueue = []) :
    (endState (start order ephemeral openError input server)).Short := by
  cases openError with
  | some error =>
      have hempty : (endState (start order ephemeral (some error) input server)).messageQueue =
          server.messageQueue := rfl
      rw [Short, hempty, hqueue]
      exact Nat.zero_le 5
  | none =>
      let opened : BlockServer := { server with
        socket := endState (BlockSocket.openSocket ephemeral none server.socket)
        messageQueue := server.messageQueue ++ [server.infoMessage order] }
      have hopened : opened.Short := by simp [opened, Short, hqueue]
      exact serveHead_short.endState hopened

end BlockServer

namespace ServerRun

variable {order : ByteOrder} {run : ServerRun} {input : ServerInput}

theorem handled_of_reads {phase : ServerPhase} (hphase : run.phase = .ok phase)
    (hwaits : phase ≠ .returned) {writable : Bool}
    (hready : input.ready = .ok ⟨true, writable⟩) :
    run.handled order input =
      endState (BlockServer.processMessage order input run.server) := by
  unfold handled
  rw [hphase, hready]
  cases phase with
  | serving i => rfl
  | draining => rfl
  | returned => contradiction

theorem handled_short (hshort : run.server.Short) (hroom : ¬ run.Crowded order input) :
    (run.handled order input).Short := by
  unfold handled
  split
  · exact hshort
  next phase ready hwaits hphase hready =>
    split_ifs with hreadable
    · obtain ⟨readable, writable⟩ := ready
      cases hreadable
      by_cases hrequests : ∃ datagram host, input.Requests order datagram host
      · obtain ⟨datagram, host, hrequest⟩ := hrequests
        obtain ⟨final, hok, hqueue⟩ :=
          BlockServer.processMessage_requests hrequest run.server
        have hlt : ¬ 5 ≤ run.server.messageQueue.length := fun hfull =>
          hroom ⟨⟨phase, hphase, hwaits⟩, hfull, datagram, host, hrequest⟩
        rw [hok, endState_ok, BlockServer.Short, hqueue, List.length_append,
          List.length_singleton]
        omega
      · push Not at hrequests
        rw [BlockServer.Short,
          BlockServer.processMessage_quiet hrequests ⟨writable, hready⟩]
        exact hshort
    · exact hshort
  · exact hshort

theorem not_handled_short (hcrowded : run.Crowded order input) :
    ¬ (run.handled order input).Short := by
  obtain ⟨⟨phase, hphase, hwaits⟩, hfull, datagram, host, hrequests⟩ := hcrowded
  obtain ⟨writable, hready⟩ := hrequests.ready
  obtain ⟨final, hok, hqueue⟩ :=
    BlockServer.processMessage_requests hrequests run.server
  rw [handled_of_reads hphase hwaits hready, hok, endState_ok, BlockServer.Short, hqueue,
    List.length_append, List.length_singleton]
  omega

theorem step_short (hshort : run.server.Short) (hhandled : (run.handled order input).Short) :
    (run.step order input).server.Short := by
  unfold ServerRun.step
  split
  next phase hphase =>
    split_ifs
    · rw [server_ofResult]
      apply BlockServer.resume_short hshort
      intro hwaits writable hready
      rwa [handled_of_reads hphase hwaits hready] at hhandled
    · exact hshort
  next => exact hshort

/-- The queue is short all along a run exactly when it never finds five messages where a
request for the announcement is handled. -/
theorem staysShort_iff (hshort : run.server.Short) (inputs : List ServerInput) :
    run.StaysShort order inputs ↔ run.NeverCrowded order inputs := by
  induction inputs generalizing run with
  | nil => exact iff_of_true hshort trivial
  | cons input inputs ih =>
      constructor
      · rintro ⟨_, hhandled, hrest⟩
        refine ⟨fun hcrowded => not_handled_short hcrowded hhandled, ?_⟩
        exact (ih (step_short hshort hhandled)).mp hrest
      · rintro ⟨hroom, hrest⟩
        have hhandled := handled_short hshort hroom
        exact ⟨hshort, hhandled, (ih (step_short hshort hhandled)).mpr hrest⟩

theorem StaysShort.last {inputs : List ServerInput} (hshort : run.StaysShort order inputs) :
    (run.steps order inputs).server.Short := by
  induction inputs generalizing run with
  | nil => exact hshort
  | cons input inputs ih => exact ih hshort.2.2

/-- The server's queue holds at most five messages in every state of a run exactly when
no request for the announcement is handled while five are queued. -/
theorem queueBound_iff (order : ByteOrder) (md5 : Bytes → Md5Digest)
    (opened : Option Bytes) (measured : Option FileSource) (path : Bytes) (group : UInt32)
    (port : UInt16) (id : UInt32) (ephemeral : UInt16) (openError : Option String)
    (input : ServerInput) (inputs : List ServerInput) :
    (start order ephemeral openError input
        (BlockServer.create order md5 opened measured path group port id)).StaysShort
          order inputs ↔
      (start order ephemeral openError input
        (BlockServer.create order md5 opened measured path group port id)).NeverCrowded
          order inputs := by
  apply staysShort_iff
  rw [start, server_ofResult]
  exact BlockServer.start_short rfl

end ServerRun

/-- A request of the host 7 is read, and the socket cannot be written. -/
def requestInput : ServerInput where
  ready := .ok ⟨true, false⟩
  arrival := .ok (⟨3, 9000⟩, (Message.withMetadata .little 7 MessageType.getinfo.code
    (HostInfo.ofId .little 7)).buffer)
  sendError := none
  getblockError := false
  readError := false
  error := ""

/-- After five requests the queue holds six announcements. -/
theorem requests_exceed_bound : ¬ ∀ inputs : List ServerInput,
    (ServerRun.start .little 40000 none requestInput sampleSite.server).StaysShort
      .little inputs := by
  intro hshort
  have hlast := (hshort (List.replicate 5 requestInput)).last
  have hlength : ((ServerRun.start .little 40000 none requestInput sampleSite.server).steps
      .little (List.replicate 5 requestInput)).server.messageQueue.length = 6 := by
    decide +kernel
  rw [BlockServer.Short, hlength] at hlast
  exact absurd hlast (by decide)

end Multisync
