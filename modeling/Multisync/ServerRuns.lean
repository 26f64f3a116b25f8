import Multisync.BlockServer
import Multisync.WireRoundTrip
import Mathlib.Tactic

/-!
# Invariants of server runs

A property that queueing a message, processing one and sending one keep holds
of the server wherever its run waits; what an exception leaves of it holds where
the run has thrown.
-/

namespace Multisync

open ByteLayout Effects

namespace BlockServer

variable {order : ByteOrder} {P E : BlockServer → Prop}

theorem drainHead_keeps : Keeps P E drainHead := by
  refine Keeps.bind Keeps.get fun server _ => ?_
  exact Triple.ite (fun _ => Keeps.pure _) fun _ => Keeps.pure _

theorem serveHead_keeps {input : ServerInput} {i : BlockInfo}
    (henqueue : Keeps P E (enqueueBlock order input.readError input.error i)) :
    Keeps P E (serveHead order input i) := by
  refine Keeps.bind Keeps.get fun server _ => ?_
  refine Triple.ite (fun _ => ?_) fun _ => drainHead_keeps
  exact Triple.ite (fun _ => Keeps.bind henqueue fun _ _ => Keeps.pure _)
    fun _ => Keeps.pure _

theorem resume_keeps {input : ServerInput}
    (hweak : ∀ server, P server → E server)
    (hprocess : Keeps P E (processMessage order input))
    (hsend : Keeps P E (endpoint.sendFront order input.sendError))
    (henqueue : ∀ i, Keeps P E (enqueueBlock order input.readError input.error i))
    (phase : ServerPhase) : Keeps P E (resume order input phase) := by
  have hselect : Keeps P E (select order input) :=
    Endpoint.select_keeps hweak hprocess hsend
  cases phase with
  | serving i =>
      exact Keeps.bind hselect fun _ _ => serveHead_keeps (henqueue _)
  | draining => exact Keeps.bind hselect fun _ _ => drainHead_keeps
  | returned => exact Keeps.pure _

theorem start_keeps {ephemeral : UInt16} {openError : Option String}
    {input : ServerInput}
    (hweak : ∀ server, P server → E server)
    (hopen : ∀ server, P server → ∀ bound,
      P { server with socket := { server.socket with bound := bound } })
    (hinfo : ∀ server, P server →
      P { server with messageQueue :=
        server.messageQueue ++ [server.infoMessage order] })
    (henqueue : ∀ i, Keeps P E (enqueueBlock order input.readError input.error i)) :
    Keeps P E (start order ephemeral openError input) := by
  refine Keeps.bind (Triple.zoom ?_ ?_) fun _ _ => ?_
  · intro server value socket hserver hok
    cases openError with
    | none =>
        cases hok
        exact hopen server hserver _
    | some error => cases hok
  · intro server fault socket hserver herror
    cases openError with
    | none => cases herror
    | some error =>
        cases herror
        exact hweak server hserver
  · refine Keeps.bind (Keeps.modify hinfo) fun _ _ => ?_
    exact Keeps.bind Keeps.get fun server _ => serveHead_keeps (henqueue _)

/-- The message of a block, shrunk to the bytes read for it. -/
def blockMessage (order : ByteOrder) (id : UInt32) (i : BlockInfo) (data : Bytes) :
    Message :=
  (Message.withReserve order id MessageType.block.code i
    (UInt32.ofNat blockSize)).filled order data

theorem blockMessage_wireForm (id : UInt32) (i : BlockInfo) {data : Bytes}
    (hdata : data.length ≤ blockSize) :
    WireForm order id MessageType.block.code (Message.metadataImage order i) data
      (blockMessage order id i data) :=
  WireForm.filled (Message.storedOffset_eq order i rfl) hdata

/-- The source, after the seek to a block and the read of it. -/
def readBlock (order : ByteOrder) (readError : Bool) (i : BlockInfo)
    (input : InStream) : Bytes × InStream :=
  (input.seekg (UInt32.ofNat blockSize * i.getBlock order).toNat).read blockSize
    readError

theorem length_readBlock_le (order : ByteOrder) (readError : Bool) (i : BlockInfo) (input : InStream) :
    (readBlock order readError i input).1.length ≤ blockSize :=
  InStream.length_read_le _ _ _

/-- Queueing a block: one more message at the back of the queue, also when the
read fails. -/
theorem enqueueBlock_apply (readError : Bool) (error : String) (i : BlockInfo)
    (server : BlockServer) :
    enqueueBlock order readError error i server =
      let read := readBlock order readError i server.input
      let final := { server with
        messageQueue := server.messageQueue ++
          [blockMessage order server.id i read.1]
        input := read.2 }
      if read.2.bad = true then .error (.readFailed error) final
      else .ok () final := by
  have hextract := @Message.extract_reserve order server.id
    MessageType.block.code (Message.metadataImage order i) _ blockSize
    (Message.storedOffset_eq order i rfl)
    (server.input.seekg (UInt32.ofNat blockSize * i.getBlock order).toNat)
    readError error
  change zoom _ _ _ server = _
  simp only [zoom, Message.withReserve,
    show (UInt32.ofNat blockSize).toNat = blockSize from rfl, hextract]
  by_cases hbad : (readBlock order readError i server.input).2.bad = true
  · simp only [if_pos hbad]
    unfold readBlock at hbad
    rw [if_pos hbad]
    rfl
  · simp only [if_neg hbad]
    unfold readBlock at hbad
    rw [if_neg hbad]
    rfl

theorem enqueueBlock_keeps {readError : Bool} {error : String} {i : BlockInfo}
    (hweak : ∀ server, P server → E server)
    (hqueue : ∀ server, P server → ∀ data input, data.length ≤ blockSize →
      P { server with
        messageQueue := server.messageQueue ++
          [blockMessage order server.id i data]
        input := input }) :
    Keeps P E (enqueueBlock order readError error i) := by
  intro server hserver
  have hkept := hqueue server hserver _ (readBlock order readError i server.input).2
    (length_readBlock_le order readError i server.input)
  rw [enqueueBlock_apply]
  by_cases hbad : (readBlock order readError i server.input).2.bad = true
  · simp only [if_pos hbad]
    exact hweak _ hkept
  · simp only [if_neg hbad]
    exact hkept

theorem handle_keeps {input : ServerInput} {message : Message}
    (hweak : ∀ server, P server → E server)
    (hhosts : ∀ server, P server → ∀ hosts, P { server with hostInfo := hosts })
    (hinfo : ∀ server, P server →
      P { server with messageQueue :=
        server.messageQueue ++ [server.infoMessage order] })
    (henqueue : ∀ i,
      Keeps P E (enqueueBlock order input.getblockError input.error i)) :
    Keeps P E (handle order input message) := by
  have hinsert : ∀ info, Keeps P E (insertHost info) := fun info =>
    Keeps.modify fun server hserver => hhosts server hserver _
  unfold handle
  refine Triple.ite (fun _ => ?_) fun _ => Triple.ite (fun _ => ?_) fun _ =>
    Triple.ite (fun _ => ?_) fun _ => Triple.ite (fun _ => ?_) fun _ => Keeps.pure _
  · exact Keeps.bind (Keeps.ofResult hweak _) fun info _ => hinsert info
  · refine Keeps.bind (Keeps.ofResult hweak _) fun info _ => ?_
    exact Keeps.bind (hinsert info) fun _ _ => Keeps.modify hinfo
  · refine Keeps.bind (Keeps.ofResult hweak _) fun info _ => ?_
    refine Keeps.bind (hinsert info) fun _ _ => ?_
    refine Keeps.bind (Keeps.ofResult hweak _) fun i _ => ?_
    refine Keeps.bind Keeps.get fun server _ => ?_
    exact Triple.ite (fun _ => henqueue i) fun _ => Keeps.pure _
  · refine Keeps.bind (Keeps.ofResult hweak _) fun info _ => ?_
    exact Keeps.modify fun server hserver => hhosts server hserver _

theorem processMessage_keeps {input : ServerInput}
    (hweak : ∀ server, P server → E server)
    (hsender : ∀ server, P server → ∀ sender,
      P { server with socket := { server.socket with sender := sender } })
    (hghost : ∀ server, P server → ∀ dispatched handled,
      P { server with dispatched := dispatched, handled := handled })
    (hhandle : ∀ message, Keeps P E (handle order input message)) :
    Keeps P E (processMessage order input) := by
  refine Keeps.bind (Triple.zoom ?_ ?_) fun message _ => ?_
  · intro server message socket hserver hok
    obtain ⟨sender, _, _, _, _, _, rfl⟩ := BlockSocket.receive_eq_ok hok
    exact hsender server hserver sender
  · intro server fault socket hserver herror
    obtain ⟨sender, rfl⟩ := BlockSocket.receive_eq_error herror
    exact hweak _ (hsender server hserver sender)
  · refine Keeps.bind (Keeps.modify fun server hserver => ?_) fun _ _ => ?_
    · exact hghost server hserver _ server.handled
    refine Keeps.bind (hhandle message) fun _ _ => ?_
    exact Keeps.modify fun server hserver => hghost server hserver server.dispatched _

theorem processMessage_of_failed {input : ServerInput} {server : BlockServer}
    {fault : Fault} {socket : BlockSocket}
    (hreceive : BlockSocket.receive order receiveReserve input.arrival
      server.socket = .error fault socket) :
    processMessage order input server =
      .error fault { server with socket := socket } := by
  rw [processMessage, bind_apply, Endpoint.receiveMessage, zoom]
  simp only [endpoint, hreceive]

theorem processMessage_of_received {input : ServerInput} {server : BlockServer}
    {message : Message} {socket : BlockSocket}
    (hreceive : BlockSocket.receive order receiveReserve input.arrival
      server.socket = .ok message socket) :
    processMessage order input server =
      match handle order input message
        { server with
          socket := socket
          dispatched := server.dispatched ++ [message] } with
      | .ok _ final => .ok ()
          { final with handled := final.handled ++ [message] }
      | .error fault final => .error fault final := by
  simp only [processMessage, bind_apply, Endpoint.receiveMessage, zoom, endpoint,
    hreceive, modify_apply]
  cases handle order input message
    { server with
      socket := socket
      dispatched := server.dispatched ++ [message] } <;> rfl

/-- What is processed has arrived. -/
theorem processMessage_arrival {input : ServerInput} {server final : BlockServer}
    (hok : processMessage order input server = .ok () final) :
    ∃ datagram, input.arrival = .ok datagram := by
  cases harrival : input.arrival with
  | error error =>
      have hfailed : BlockSocket.receive order receiveReserve input.arrival
          server.socket = .error (.system error) server.socket := by
        rw [harrival]
        rfl
      rw [processMessage_of_failed hfailed] at hok
      contradiction
  | ok datagram => exact ⟨datagram, rfl⟩

section Socket

variable {P : BlockSocket → Prop}

theorem start_keeps_of_socket {ephemeral : UInt16} {openError : Option String}
    {input : ServerInput}
    (hbound : ∀ socket bound, P socket → P { socket with bound := bound }) :
    Keeps (fun server => P server.socket) (fun server => P server.socket)
      (start order ephemeral openError input) := by
  have hweak : ∀ server : BlockServer, P server.socket → P server.socket :=
    fun _ hserver => hserver
  apply start_keeps hweak
  · exact fun server hserver bound => hbound server.socket bound hserver
  · exact fun _ hserver => hserver
  · exact fun i => enqueueBlock_keeps hweak fun _ hserver _ _ _ => hserver

/-- A call of `select` notes a sender in the socket, and sends. -/
theorem resume_keeps_of_socket {input : ServerInput}
    (hsender : ∀ socket sender, P socket → P { socket with sender := sender })
    (hsent : ∀ socket sent, P socket → socket.sent <+: sent →
      P { socket with sent := sent })
    (phase : ServerPhase) :
    Keeps (fun server => P server.socket) (fun server => P server.socket)
      (resume order input phase) := by
  have hweak : ∀ server : BlockServer, P server.socket → P server.socket :=
    fun _ hserver => hserver
  apply resume_keeps hweak
  · apply processMessage_keeps hweak
    · exact fun server hserver sender => hsender server.socket sender hserver
    · exact fun _ hserver _ _ => hserver
    · intro message
      apply handle_keeps hweak
      · exact fun _ hserver _ => hserver
      · exact fun _ hserver => hserver
      · exact fun i => enqueueBlock_keeps hweak fun _ hserver _ _ _ => hserver
  · apply Endpoint.sendFront_keeps_of_sent
    · exact fun server sent hserver hprefix => hsent server.socket sent hserver hprefix
    · exact fun _ _ hserver => hserver
  · exact fun i => enqueueBlock_keeps hweak fun _ hserver _ _ _ => hserver

end Socket

end BlockServer

namespace ServerRun

variable {order : ByteOrder} {P : ServerPhase → BlockServer → Prop}
  {E : BlockServer → Prop}

/-- A property of the server where it waits or has returned, and what is left
of it after an exception. -/
def Holds (P : ServerPhase → BlockServer → Prop) (E : BlockServer → Prop)
    (run : ServerRun) : Prop :=
  match run.phase with
  | .ok phase => P phase run.server
  | .error _ => E run.server

theorem holds_ofResult {result : EStateM.Result Fault BlockServer ServerPhase}
    (hok : ∀ phase server, result = .ok phase server → P phase server)
    (herror : ∀ fault server, result = .error fault server → E server) :
    (ofResult result).Holds P E := by
  cases result with
  | ok phase server => exact hok phase server rfl
  | error fault server => exact herror fault server rfl

theorem server_ofResult (result : EStateM.Result Fault BlockServer ServerPhase) :
    (ofResult result).server = endState result := by
  cases result <;> rfl

/-- A property that a call of `select`, with the code up to the next, keeps. -/
theorem step_holds {input : ServerInput}
    (hresume : ∀ phase server, P phase server →
      (ofResult (BlockServer.resume order input phase server)).Holds P E)
    {run : ServerRun} (hrun : run.Holds P E) :
    (run.step order input).Holds P E := by
  unfold step
  split
  next phase hphase =>
    split
    · rw [Holds, hphase] at hrun
      exact hresume phase run.server hrun
    · exact hrun
  next => exact hrun

/-- What each call keeps holds all along a run. -/
theorem steps_holds
    (hresume : ∀ input phase server, P phase server →
      (ofResult (BlockServer.resume order input phase server)).Holds P E)
    {run : ServerRun} (hrun : run.Holds P E) (inputs : List ServerInput) :
    (run.steps order inputs).Holds P E := by
  induction inputs generalizing run with
  | nil => exact hrun
  | cons input inputs ih => exact ih (step_holds (hresume input) hrun)

theorem step_keeps {P : BlockServer → Prop} {run : ServerRun} {input : ServerInput}
    (hresume : ∀ phase, Keeps P P (BlockServer.resume order input phase))
    (hrun : P run.server) : P (run.step order input).server := by
  unfold ServerRun.step
  split
  next phase _ =>
    split
    · rw [server_ofResult]
      exact (hresume phase).endState hrun
    · exact hrun
  next => exact hrun

theorem steps_of_error {run : ServerRun} {fault : Fault} (hphase : run.phase = .error fault)
    (inputs : List ServerInput) : run.steps order inputs = run := by
  induction inputs with
  | nil => rfl
  | cons input inputs ih =>
      have hstep : run.step order input = run := by
        rw [step, hphase]
      rw [steps, List.foldl_cons, hstep]
      exact ih

theorem Reachable.steps {server : BlockServer} {run : ServerRun}
    (hrun : Reachable order server run) (inputs : List ServerInput) :
    Reachable order server (run.steps order inputs) := by
  induction inputs generalizing run with
  | nil => exact hrun
  | cons input inputs ih => exact ih (hrun.step input)

/-- An invariant of `start` and of what follows each wait. -/
theorem Reachable.keeps {P : BlockServer → Prop} {server : BlockServer}
    {run : ServerRun} (hrun : Reachable order server run) (hserver : P server)
    (hstart : ∀ ephemeral openError input,
      Keeps P P (BlockServer.start order ephemeral openError input))
    (hresume : ∀ input phase, Keeps P P (BlockServer.resume order input phase)) :
    P run.server := by
  induction hrun with
  | start ephemeral openError input =>
      unfold ServerRun.start
      rw [server_ofResult]
      exact (hstart ephemeral openError input).endState hserver
  | step _ input ih => exact step_keeps (hresume input) ih

end ServerRun

end Multisync
