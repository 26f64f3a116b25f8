import Multisync.Delivery
import Multisync.LossyNetwork
import Multisync.ServerExit
import Mathlib.Tactic

/-!
# Without goodbyes

No server ever says goodbye.  So where only servers and clients send, no client answers
one, no host leaves the set of a server, and no file is put into its place unless the
flag of its record held true from the start; losses and repetitions change nothing in
this.
-/

namespace Multisync

open ByteLayout Effects

/-- A datagram with one of these types, whoever reads it. -/
def Typed (types : List MessageType) (bytes : Bytes) : Prop :=
  ∃ type ∈ types, ∀ order,
    (Message.received receiveReserve bytes).getType order = type.code

/-- What a server sends. -/
def announced : List MessageType := [.info, .block]

/-- What is sent as long as nobody says goodbye. -/
def spoken : List MessageType := [.info, .block, .chello]

theorem Typed.ne {types : List MessageType} {bytes : Bytes} (htyped : Typed types bytes)
    {type : MessageType} (hnot : type ∉ types) (order : ByteOrder) :
    (Message.received receiveReserve bytes).getType order ≠ type.code := by
  obtain ⟨found, hfound, htype⟩ := htyped
  rw [htype order]
  intro heq
  exact hnot ((MessageType.code_inj found type).mp heq ▸ hfound)

theorem Typed.mono {types types' : List MessageType} {bytes : Bytes}
    (htyped : Typed types bytes) (hsubset : types ⊆ types') : Typed types' bytes := by
  obtain ⟨type, hmem, htype⟩ := htyped
  exact ⟨type, hsubset hmem, htype⟩

theorem WireForm.typed {sender : ByteOrder} {id : UInt32} {type : MessageType}
    {metadata payload : Bytes} {message : Message} {types : List MessageType}
    (hform : WireForm sender id type.code metadata payload message)
    (hmem : type ∈ types) : Typed types message.buffer :=
  ⟨type, hmem, hform.getType_received⟩

/-! ## What a server sends -/

namespace BlockServer

variable {order : ByteOrder} {server : BlockServer} {input : ServerInput}

/-- Everything posted is an announcement or a block. -/
def Announces (server : BlockServer) : Prop :=
  ∀ bytes ∈ server.posted, Typed announced bytes

theorem Announces.push (hserver : server.Announces) {message : Message}
    (hmessage : Typed announced message.buffer) (stream : InStream) :
    ({ server with
      messageQueue := server.messageQueue ++ [message]
      input := stream } : BlockServer).Announces := by
  intro bytes hbytes
  simp only [posted, List.map_append, List.map_cons, List.map_nil] at hbytes
  rw [← List.append_assoc] at hbytes
  rcases List.mem_append.mp hbytes with hold | hnew
  · exact hserver bytes hold
  · rw [List.mem_singleton.mp hnew]
    exact hmessage

theorem Announces.pushInfo (hserver : server.Announces) :
    ({ server with messageQueue :=
      server.messageQueue ++ [server.infoMessage order] } : BlockServer).Announces :=
  hserver.push ((infoMessage_wireForm order server).typed (by decide)) server.input

/-- What is sent was posted, also when the length is found wrong afterwards. -/
theorem Announces.send (hserver : server.Announces) {message : Message}
    {rest : List Message} {sendError : Option String}
    (hqueue : server.messageQueue = message :: rest) :
    ({ server with socket := endState (BlockSocket.send order message sendError
      server.socket) } : BlockServer).Announces := by
  have hfront : message.buffer ∈ server.posted := by
    simp [posted, hqueue]
  cases sendError with
  | some error => exact hserver
  | none =>
      have hsent : (endState (BlockSocket.send order message none server.socket)).sent =
          server.socket.sent ++ [(server.socket.destination, message.buffer)] := by
        rw [BlockSocket.send_eq]
        split_ifs <;> rfl
      intro bytes hbytes
      simp only [posted, hsent, List.map_append, List.map_cons, List.map_nil] at hbytes
      rcases List.mem_append.mp hbytes with hbytes | hbytes
      · rcases List.mem_append.mp hbytes with hold | hnew
        · exact hserver bytes (List.mem_append_left _ hold)
        · rw [List.mem_singleton.mp hnew]
          exact hserver _ hfront
      · exact hserver bytes (List.mem_append_right _ hbytes)

theorem enqueueBlock_announces {readError : Bool} {error : String} {i : BlockInfo} :
    Keeps Announces Announces (enqueueBlock order readError error i) :=
  enqueueBlock_keeps (fun _ hserver => hserver) fun server hserver data stream hdata =>
    hserver.push ((blockMessage_wireForm server.id i hdata).typed (by decide)) stream

theorem sendFront_announces :
    Keeps Announces Announces (endpoint.sendFront order input.sendError) := by
  apply Endpoint.sendFront_keeps fun _ hserver => hserver
  · intro server message rest socket hqueue hserver hok
    have hsent := @Announces.send order server hserver message rest input.sendError hqueue
    rw [show BlockSocket.send order message input.sendError server.socket = _ from hok,
      endState_ok] at hsent
    intro bytes hbytes
    apply hsent bytes
    rcases List.mem_append.mp hbytes with hold | hqueued
    · exact List.mem_append_left _ hold
    · obtain ⟨other, hother, rfl⟩ := List.mem_map.mp hqueued
      refine List.mem_append_right _ (List.mem_map_of_mem ?_)
      rw [show server.messageQueue = message :: rest from hqueue]
      exact List.mem_cons_of_mem _ hother
  · intro server message rest fault socket hqueue hserver herror
    have hsent := @Announces.send order server hserver message rest input.sendError hqueue
    rwa [show BlockSocket.send order message input.sendError server.socket = _ from herror,
      endState_error] at hsent

theorem resume_announces (phase : ServerPhase) :
    Keeps Announces Announces (resume order input phase) := by
  have hweak : ∀ server : BlockServer, server.Announces → server.Announces :=
    fun _ hserver => hserver
  apply resume_keeps hweak
  · apply processMessage_keeps hweak
    · exact fun _ hserver _ => hserver
    · exact fun _ hserver _ _ => hserver
    · intro message
      apply handle_keeps hweak
      · exact fun _ hserver _ => hserver
      · exact fun _ hserver => hserver.pushInfo
      · exact fun _ => enqueueBlock_announces
  · exact sendFront_announces
  · exact fun _ => enqueueBlock_announces

theorem start_announces {ephemeral : UInt16} {openError : Option String} :
    Keeps Announces Announces (start order ephemeral openError input) := by
  apply start_keeps fun _ hserver => hserver
  · exact fun _ hserver _ => hserver
  · exact fun _ hserver => hserver.pushInfo
  · exact fun _ => enqueueBlock_announces

/-! ## What a server reads -/

/-- Of what is sent as long as nobody says goodbye, a server takes the hellos. -/
theorem processMessage_keeps_of_hellos {P E : BlockServer → Prop}
    (hweak : ∀ server, P server → E server)
    (hbrought : Network.Brought (Typed spoken) input.arrival)
    (hnoted : ∀ server sender dispatched handled, P server →
      P { server with
        socket := { server.socket with sender := sender }
        dispatched := dispatched
        handled := handled })
    (hhello : ∀ datagram, input.arrival = .ok datagram →
      ∀ info, (Message.received receiveReserve datagram.2).getMetadata order HostInfo =
          .ok info →
        (Message.received receiveReserve datagram.2).getType order =
          MessageType.chello.code →
        ∀ server : BlockServer, P server →
          P { server with hostInfo := server.hostInfo.insert info () }) :
    Keeps P E (processMessage order input) := by
  intro server hserver
  cases hreceive : BlockSocket.receive order receiveReserve input.arrival
      server.socket with
  | error fault socket =>
      rw [processMessage_of_failed hreceive]
      obtain ⟨sender, rfl⟩ := BlockSocket.receive_eq_error hreceive
      exact hweak _ (hnoted server sender server.dispatched server.handled hserver)
  | ok message socket =>
      rw [processMessage_of_received hreceive]
      obtain ⟨sender, datagram, harrival, _, rfl, _, rfl⟩ :=
        BlockSocket.receive_eq_ok hreceive
      have htyped := hbrought _ harrival
      have hhandle : Keeps P E
          (handle order input (Message.received receiveReserve datagram)) := by
        unfold handle
        refine Triple.ite (fun htype => ?_) fun _ =>
          Triple.ite (fun htype => absurd htype (htyped.ne (by decide) _)) fun _ =>
            Triple.ite (fun htype => absurd htype (htyped.ne (by decide) _)) fun _ =>
              Triple.ite (fun htype => absurd htype (htyped.ne (by decide) _)) fun _ =>
                Keeps.pure _
        intro current hcurrent
        cases hmetadata : (Message.received receiveReserve datagram).getMetadata order
            HostInfo with
        | error fault =>
            rw [handleChello, hmetadata]
            exact hweak current hcurrent
        | ok info =>
            rw [handleChello, ofResult_bind_of_ok hmetadata]
            exact hhello _ harrival info hmetadata htype current hcurrent
      have hstart := hnoted server sender
        (server.dispatched ++ [Message.received receiveReserve datagram]) server.handled
        hserver
      cases hrun : handle order input (Message.received receiveReserve datagram)
          { server with
            socket := { server.socket with sender := sender }
            dispatched := server.dispatched ++
              [Message.received receiveReserve datagram] } with
      | ok value final =>
          exact hnoted final final.socket.sender final.dispatched _ (hhandle.ok hstart hrun)
      | error fault final => exact hhandle.error hstart hrun

/-- The set of hosts has lost none of these. -/
def Knows (hosts : OrderedMap HostInfo.Lt Unit) (server : BlockServer) : Prop :=
  ∀ host, (hosts.find? host).isSome → (server.hostInfo.find? host).isSome

theorem Knows.insert {hosts : OrderedMap HostInfo.Lt Unit} (hserver : server.Knows hosts)
    (info : HostInfo) :
    ({ server with hostInfo := server.hostInfo.insert info () } : BlockServer).Knows
      hosts := by
  intro host hhost
  by_cases heq : host = info
  · rw [heq]
    exact OrderedMap.isSome_find?_insert server.hostInfo info ()
  · rw [OrderedMap.find?_insert_ne heq]
    exact hserver host hhost

/-- Only a goodbye takes a host out of the set. -/
theorem resume_knows {hosts : OrderedMap HostInfo.Lt Unit}
    (hbrought : Network.Brought (Typed spoken) input.arrival) (phase : ServerPhase) :
    Keeps (Knows hosts) (Knows hosts) (resume order input phase) := by
  have hweak : ∀ server : BlockServer, server.Knows hosts → server.Knows hosts :=
    fun _ hserver => hserver
  apply resume_keeps hweak
  · apply processMessage_keeps_of_hellos hweak hbrought
    · exact fun _ _ _ _ hserver => hserver
    · exact fun _ _ info _ _ _ hserver => hserver.insert info
  · apply Endpoint.sendFront_keeps_of_sent
    · exact fun _ _ hserver _ => hserver
    · exact fun _ _ hserver => hserver
  · exact fun _ => enqueueBlock_keeps hweak fun _ hserver _ _ _ => hserver

end BlockServer

/-- When the second loop has ended no host is registered. -/
def ServerRun.Vacant (run : ServerRun) : Prop :=
  run.Holds (fun phase server => phase = .returned → server.hostInfo.isEmpty = true)
    fun _ => True

theorem ServerRun.start_vacant {order : ByteOrder} {ephemeral : UInt16}
    {openError : Option String} {input : ServerInput} {server : BlockServer} :
    (ServerRun.start order ephemeral openError input server).Vacant := by
  apply holds_ofResult
  · rintro phase final hok rfl
    exact BlockServer.start_returned hok
  · exact fun _ _ _ => trivial

theorem ServerRun.Vacant.step {order : ByteOrder} {input : ServerInput} {run : ServerRun}
    (hrun : run.Vacant) : (run.step order input).Vacant := by
  refine step_holds (fun phase server hserver => ?_) hrun
  apply holds_ofResult
  · rintro phase' final hok rfl
    by_cases hphase : phase = .returned
    · subst hphase
      cases hok
      exact hserver rfl
    · exact BlockServer.resume_returned hphase hok
  · exact fun _ _ _ => trivial

/-! ## What a client does with it -/

namespace BlockClient

variable {order : ByteOrder} {P Q : BlockClient → Prop} {input : ClientInput}

/-- What does not look at the socket and the queue, and holds after the handlers of the
messages that can be read. -/
theorem select_triple_of_message (hweak : ∀ client, P client → Q client)
    (hheard : ∀ client sender, P client → P (client.heardFrom sender))
    (hother : ∀ client socket queue, Q client →
      Q { client with socket := socket, messageQueue := queue })
    (hhandle : ∀ message sender, input.message? = some message →
      Triple P (handle order input.env message sender) (fun _ => Q) fun _ => Q) :
    Triple P (select order input) (fun _ => Q) fun _ => Q := by
  apply select_message hheard hhandle
  · exact fun _ _ _ client hclient => hweak client hclient
  · exact fun _ client hclient => hweak client hclient
  · have hkeeps : Keeps Q Q (endpoint.sendFront order input.sendError) := by
      apply Endpoint.sendFront_keeps fun _ hclient => hclient
      · exact fun client _ rest socket _ hclient _ => hother client socket rest hclient
      · exact fun client _ _ _ socket _ hclient _ =>
          hother client socket client.messageQueue hclient
    exact hkeeps.weaken (fun _ h => h.1) (fun _ _ h => h) fun _ _ h => h

theorem select_keeps_of_message
    (hother : ∀ client socket queue, P client →
      P { client with socket := socket, messageQueue := queue })
    (hhandle : ∀ message sender, input.message? = some message →
      Keeps P P (handle order input.env message sender)) :
    Keeps P P (select order input) :=
  select_triple_of_message (fun _ hclient => hclient)
    (fun client _ hclient => hother client _ client.messageQueue hclient) hother hhandle

/-- Without a goodbye the handler makes the record, brings it up to date and finishes. -/
theorem handle_triple_of_quiet {env : Environment} {message : Message} {address : Address}
    (hquiet : message.getType order ≠ MessageType.sgoodbye.code)
    (hweak : ∀ client, P client → Q client)
    (hmade : ∀ info client status files, message.fileInfo? order = some info → P client →
      client.syncSet.find? info = none →
      SyncStatus.create order env info address client.files = .ok (status, files) →
        Q (client.created info status files))
    (hworked : ∀ info client status state, message.fileInfo? order = some info → Q client →
      client.syncSet.find? info = some status →
      Works order env message ⟨status, client.files, []⟩ state →
        Q (client.putStatus info state))
    (hfinished : ∀ info client status, message.fileInfo? order = some info → Q client →
      client.syncSet.find? info = some status → status.Finished →
        Q ((client.publish env.first info status).erased info)) :
    Triple P (handle order env message address) (fun _ => Q) fun _ => Q := by
  apply handle_triple_of_stages hweak hmade hworked
  intro info client status final hinfo hclient hfind hconcluded
  cases hconcluded with
  | idle _ => exact hclient
  | finished _ hfinishes => exact hfinished info client status hinfo hclient hfind hfinishes
  | answered hgoodbye _ _ _ => exact absurd hgoodbye hquiet
  | ended hgoodbye _ _ _ _ => exact absurd hgoodbye hquiet

/-- What arrives is no goodbye of a server. -/
theorem quiet_of_message {types : List MessageType} {message : Message}
    (hbrought : Network.Brought (Typed types) input.arrival)
    (hnot : MessageType.sgoodbye ∉ types) (hmessage : input.message? = some message) :
    message.getType order ≠ MessageType.sgoodbye.code := by
  obtain ⟨datagram, harrival, rfl⟩ := ClientInput.arrival_of_message hmessage
  exact (hbrought datagram harrival).ne hnot order

/-- No goodbye was queued. -/
def Unanswered (client : BlockClient) : Prop :=
  client.answers = []

theorem Unanswered.append {client client' : BlockClient} (hclient : client.Unanswered)
    {events : List ClientEvent} (htrace : client'.trace = client.trace ++ events)
    (hevents : ∀ event ∈ events, event.answer? = none) : client'.Unanswered := by
  rw [Unanswered, answers, htrace, List.filterMap_append,
    List.filterMap_eq_nil_iff.mpr hevents, List.append_nil]
  exact hclient

theorem handle_unanswered {env : Environment} {message : Message} {address : Address}
    (hquiet : message.getType order ≠ MessageType.sgoodbye.code) :
    Keeps Unanswered Unanswered (handle order env message address) := by
  have hput : ∀ (client : BlockClient) info state, client.Unanswered →
      (client.putStatus info state).Unanswered := by
    intro client info state hclient
    rw [Unanswered, answers_putStatus]
    exact hclient
  apply handle_triple_of_quiet hquiet fun _ hclient => hclient
  · intro info client status files _ hclient _ _
    exact hclient.append rfl (by simp [ClientEvent.answer?])
  · exact fun info client status state _ hclient _ _ => hput client info state hclient
  · intro info client status _ hclient _ _
    exact (hput client info _ hclient).append rfl (by simp [ClientEvent.answer?])

/-- No flag of a record is set, and nothing was done but making records. -/
structure Waiting (client : BlockClient) : Prop where
  flags : ∀ info status, client.syncSet.find? info = some status →
    status.goodbyeReceived = false
  trace : ∀ event ∈ client.trace, ∃ info temp, event = .created info temp

theorem handle_waiting {env : Environment} {message : Message} {address : Address}
    (hquiet : message.getType order ≠ MessageType.sgoodbye.code)
    (hflag : env.goodbyeReceived = false) :
    Keeps Waiting Waiting (handle order env message address) := by
  apply handle_triple_of_quiet hquiet fun _ hclient => hclient
  · intro info client status files _ hclient hnone hcreate
    obtain ⟨_, hstatus, _⟩ := SyncStatus.create_eq_ok hcreate
    constructor
    · refine OrderedMap.forall_insert hnone (fun other found _ => hclient.flags other found) ?_
      rw [hstatus]
      exact hflag
    · intro event hevent
      rcases List.mem_append.mp hevent with hold | hnew
      · exact hclient.trace event hold
      · exact ⟨info, status.temp, List.mem_singleton.mp hnew⟩
  · intro info client status state _ hclient hfind hworks
    obtain ⟨hsame, _, hpublications⟩ := hworks.keeps
    constructor
    · refine OrderedMap.forall_replace hfind (fun other found _ => hclient.flags other found) ?_
      rw [hsame]
      exact hclient.flags info status hfind
    · intro event hevent
      rw [putStatus, hpublications] at hevent
      exact hclient.trace event (by simpa using hevent)
  · intro info client status _ hclient hfind hfinished
    have hset := hfinished.1
    rw [hclient.flags info status hfind] at hset
    contradiction

end BlockClient

/-! ## The network -/

namespace Network

variable {ι : Type} [DecidableEq ι] {site : Site ι} {conditions : Conditions}
  {net net' : Network ι}

/-- The run of a server that sends announcements and blocks. -/
def Serving (run : ServerRun) : Prop :=
  run.server.Announces ∧ run.Vacant

/-- The run of a client that has sent its hello at most. -/
def Listening (site : Site ι) (i : ι) (run : ClientRun) : Prop :=
  (∃ hello, hello.length ≤ 1 ∧
    (site.client i).Posted (site.clientOrder i) hello run.client) ∧
  run.client.Unanswered

omit [DecidableEq ι] in
theorem serving_start (ephemeral : UInt16) (openError : Option String)
    (input : ServerInput) :
    Serving (ServerRun.start site.serverOrder ephemeral openError input site.server) := by
  refine ⟨?_, ServerRun.start_vacant⟩
  rw [ServerRun.start, ServerRun.server_ofResult]
  apply BlockServer.start_announces.endState
  intro bytes hbytes
  contradiction

omit [DecidableEq ι] in
theorem Listening.posted {i : ι} {run : ClientRun} (hrun : Listening site i run) :
    ∃ hello, hello.length ≤ 1 ∧
      (∀ bytes ∈ hello, bytes =
        ((site.client i).helloMessage (site.clientOrder i)).buffer) ∧
      run.client.socket.sent.map Prod.snd ++ run.client.messageQueue.map Message.buffer =
        hello := by
  obtain ⟨⟨hello, hlength, hposted⟩, hanswers⟩ := hrun
  refine ⟨hello, hlength, hposted.greeting, ?_⟩
  rw [hposted.posted, show run.client.answers = [] from hanswers, List.map_nil,
    List.append_nil]

omit [DecidableEq ι] in
theorem contract_closed : Contract site conditions Serving (Listening site)
    (Typed spoken) where
  serverStart ephemeral openError input _ := serving_start ephemeral openError input
  serverStep run input hrun _ _ :=
    ⟨ServerRun.step_keeps BlockServer.resume_announces hrun.1, hrun.2.step⟩
  serverSent run hrun datagram hmem :=
    (hrun.1 _ (List.mem_append_left _ (List.mem_map_of_mem hmem))).mono (by decide)
  clientStart i ephemeral openError := by
    refine ⟨BlockClient.start_posted _ _ _ _ _ _ _, ?_⟩
    rw [ClientRun.start, ClientRun.client_ofResult]
    exact (@BlockClient.start_keeps (site.clientOrder i) BlockClient.Unanswered
      ephemeral openError fun _ _ _ hclient => hclient).endState rfl
  clientStep i run input hrun _ hbrought := by
    obtain ⟨⟨hello, hlength, hposted⟩, hanswers⟩ := hrun
    refine ⟨⟨hello, hlength, ?_⟩, ?_⟩
    · exact ClientRun.step_keeps (BlockClient.select_posted input) hposted
    · refine ClientRun.step_keeps ?_ hanswers
      apply BlockClient.select_keeps_of_message
      · exact fun _ _ _ hclient => hclient
      · exact fun message sender hmessage => BlockClient.handle_unanswered
          (BlockClient.quiet_of_message hbrought (by decide) hmessage)
  clientSent i run hrun datagram hmem := by
    obtain ⟨hello, _, hgreeting, hposted⟩ := hrun.posted
    have hbytes : datagram.2 ∈ hello := by
      rw [← hposted]
      exact List.mem_append_left _ (List.mem_map_of_mem hmem)
    rw [hgreeting _ hbytes]
    exact (BlockClient.helloMessage_wireForm (site.client i)).typed (by decide)

/-- No client ever says goodbye: its hello is all it ever queues. -/
theorem Lossy.never_answered (hnet : Lossy site conditions empty net) {i : ι}
    {run : ClientRun} (hrun : net.clients i = some run) :
    run.client.answers = [] ∧
      ∃ hello, hello.length ≤ 1 ∧
        (∀ bytes ∈ hello, bytes =
          ((site.client i).helloMessage (site.clientOrder i)).buffer) ∧
        run.client.socket.sent.map Prod.snd ++
          run.client.messageQueue.map Message.buffer = hello := by
  have hlistening := (contract_closed.lossy hnet).clients i run hrun
  exact ⟨hlistening.2, hlistening.posted⟩

/-- The flags of the records hold the value. -/
def flagged (flag : Bool) : Conditions where
  serverInput := fun _ => True
  clientInput := fun _ input => input.env.goodbyeReceived = flag

theorem lossy_fileNetwork (flag : Bool) :
    Lossy fileSite (flagged flag) empty (fileNetwork flag) := by
  let closed : Circumstances := ⟨fun _ => True, fun input => input.env.goodbyeReceived = flag,
    False⟩
  have hreachable : Reachable fileSite closed (oneClient fileSite 0) (fileNetwork flag) :=
    @leads_fileNetwork (fun _ => closed) flag (fun _ => trivial) fun _ _ => rfl
  have hlossy := @Reachable.lossy Unit _ fileSite (flagged flag) _ _ closed id
    (fun _ _ => trivial) (fun _ _ hinput => hinput) hreachable
  exact .head (.startClient () 0 none rfl) hlossy

/-- The client has the whole file, and has not answered. -/
theorem fileNetwork_unanswered : ∃ run, (fileNetwork true).clients () = some run ∧
    run.client.answers = [] := by
  obtain ⟨run, hrun⟩ := Option.isSome_iff_exists.mp
    (show ((fileNetwork true).clients ()).isSome by decide +kernel)
  exact ⟨run, hrun, ((lossy_fileNetwork true).never_answered hrun).1⟩

/-- A host that a server has heard of is there for good, and the server waits for its
goodbye for good. -/
theorem Lossy.waits_forever (hnet : Lossy site conditions empty net)
    {run : ServerRun} (hrun : net.server = some run) {host : HostInfo}
    (hhost : (run.server.hostInfo.find? host).isSome)
    (hlater : Lossy site conditions net net') :
    ∃ run', net'.server = some run' ∧ (run'.server.hostInfo.find? host).isSome ∧
      run'.phase ≠ .ok .returned := by
  have hknows : ∃ run', net'.server = some run' ∧
      run'.server.Knows run.server.hostInfo := by
    induction hlater with
    | refl => exact ⟨run, hrun, fun _ hhost => hhost⟩
    | tail hmid hstep ih =>
        obtain ⟨run', hrun', hknows⟩ := ih
        have hkeeping := contract_closed.lossy (hnet.trans hmid)
        cases hstep with
        | startServer ephemeral openError input hnone hinput =>
            rw [hrun'] at hnone
            contradiction
        | startClient i ephemeral openError hnone => exact ⟨run', hrun', hknows⟩
        | server input hsome hlive hinput harrives =>
            rw [hrun'] at hsome
            cases hsome
            refine ⟨_, rfl, ServerRun.step_keeps ?_ hknows⟩
            exact BlockServer.resume_knows (harrives.brought hkeeping.serverInbox)
        | client i input hsome hlive hinput harrives => exact ⟨run', hrun', hknows⟩
        | redeliver serverInbox clientInbox hserver hclients =>
            exact ⟨run', hrun', hknows⟩
  obtain ⟨run', hrun', hknows⟩ := hknows
  have hvacant := ((contract_closed.lossy (hnet.trans hlater)).server run' hrun').2
  refine ⟨run', hrun', hknows host hhost, fun hreturned => ?_⟩
  rw [ServerRun.Vacant, ServerRun.Holds, hreturned] at hvacant
  have hfound := hknows host hhost
  rw [OrderedMap.find?_of_isEmpty (hvacant rfl)] at hfound
  contradiction

/-- A server that is bound to the port of the group, a client, and its hello. -/
def helloNetwork : Network Unit :=
  ((empty.serverStart fileSite 9000 none writableServerInput).clientStart
      fileSite () 0 none).clientStep fileSite ()
    (ClientRun.start .little 0 none (fileSite.client ())) writableInput

def readingServerInput (datagram : Address × Bytes) : ServerInput :=
  { writableServerInput with ready := .ok ⟨true, false⟩, arrival := .ok datagram }

/-- The server reads the first datagram it was sent. -/
def serverReads (net : Network Unit) : Network Unit :=
  match net.server, net.serverInbox with
  | some run, datagram :: _ => net.serverStep fileSite run (readingServerInput datagram)
  | _, _ => net

theorem lossy_serverReads {first net : Network Unit}
    (hnet : Lossy fileSite (flagged false) first net) (hlive : net.serverSocket?.isSome) :
    Lossy fileSite (flagged false) first net.serverReads := by
  obtain ⟨socket, hbind⟩ := Option.isSome_iff_exists.mp hlive
  obtain ⟨run, hrun, hsome⟩ := Option.bind_eq_some_iff.mp hbind
  rw [serverReads, hrun]
  cases hinbox : net.serverInbox with
  | nil => exact hnet
  | cons datagram rest =>
      apply hnet.tail
      apply LossyStep.server _ hrun (Option.isSome_iff_exists.mpr ⟨socket, hsome⟩) trivial
      rintro other hother
      cases hother
      rw [hinbox]
      exact ⟨List.mem_cons_self, false, rfl⟩

/-- The hello is there twice. -/
def repeatedNetwork : Network Unit :=
  { helloNetwork with
    serverInbox := helloNetwork.serverInbox ++ helloNetwork.serverInbox
    clientInbox := helloNetwork.clientInbox }

theorem lossy_repeatedNetwork :
    Lossy fileSite (flagged false) empty repeatedNetwork := by
  apply Relation.ReflTransGen.tail
  · apply Relation.ReflTransGen.tail
    · apply Relation.ReflTransGen.tail
      · exact .single (.startServer 9000 none writableServerInput rfl trivial)
      · exact .startClient () 0 none rfl
    · apply LossyStep.client () writableInput clientStart_self rfl rfl
      intro datagram harrival
      contradiction
  · apply LossyStep.redeliver
    · intro datagram hmem
      exact (List.mem_append.mp hmem).elim id id
    · exact fun _ _ hmem => hmem

/-- The server handles the hello, and still waits when it has handled it again. -/
theorem repeatedNetwork_waits : ∃ run',
    repeatedNetwork.serverReads.serverReads.server = some run' ∧
      (run'.server.hostInfo.find? (HostInfo.ofId .little 7)).isSome ∧
        run'.phase ≠ .ok .returned := by
  have hfirst := lossy_serverReads lossy_repeatedNetwork (by decide +kernel)
  obtain ⟨run, hrun⟩ := Option.isSome_iff_exists.mp
    (show repeatedNetwork.serverReads.server.isSome by decide +kernel)
  have hhost : (repeatedNetwork.serverReads.server.map fun run =>
      (run.server.hostInfo.find? (HostInfo.ofId .little 7)).isSome) = some true := by
    decide +kernel
  rw [hrun, Option.map_some] at hhost
  have hlive : repeatedNetwork.serverReads.serverSocket?.isSome := by
    decide +kernel
  exact hfirst.waits_forever hrun (Option.some.inj hhost) (lossy_serverReads .refl hlive)

/-- Unless the storage of a new record's flag happens to hold true, no client ever puts
a file into its place. -/
theorem Lossy.never_published
    (hflags : ∀ client input, conditions.clientInput client input →
      input.env.goodbyeReceived = false)
    (hnet : Lossy site conditions empty net) {i : ι} {run : ClientRun}
    (hrun : net.clients i = some run) :
    ∀ event ∈ run.client.trace, ∃ info temp, event = .created info temp := by
  have hcontract : Contract site conditions Serving
      (fun i run => Listening site i run ∧ run.client.Waiting) (Typed spoken) := by
    have hclosed := @contract_closed ι site conditions
    refine ⟨hclosed.serverStart, hclosed.serverStep, hclosed.serverSent, ?_, ?_, ?_⟩
    · intro i ephemeral openError
      refine ⟨hclosed.clientStart i ephemeral openError, ?_⟩
      rw [ClientRun.start, ClientRun.client_ofResult]
      apply (@BlockClient.start_keeps (site.clientOrder i) BlockClient.Waiting
        ephemeral openError fun _ _ _ hclient => ⟨hclient.flags, hclient.trace⟩).endState
      constructor
      · intro info status hfind
        rw [Site.client, BlockClient.create, OrderedMap.find?_empty] at hfind
        contradiction
      · intro event hevent
        contradiction
    · intro i run input hrun hinput hbrought
      refine ⟨hclosed.clientStep i run input hrun.1 hinput hbrought, ?_⟩
      apply ClientRun.step_keeps ?_ hrun.2
      apply BlockClient.select_keeps_of_message
      · exact fun _ _ _ hclient => ⟨hclient.flags, hclient.trace⟩
      · exact fun message sender hmessage => BlockClient.handle_waiting
          (BlockClient.quiet_of_message hbrought (by decide) hmessage)
          (hflags run.client input hinput)
    · exact fun i run hrun => hclosed.clientSent i run hrun.1
  exact ((hcontract.lossy hnet).clients i run hrun).2.trace

/-- This client has handled the announcement and the only block. -/
theorem fileNetwork_unpublished : ∃ run, (fileNetwork false).clients () = some run ∧
    ∀ event ∈ run.client.trace, ∃ info temp, event = .created info temp := by
  obtain ⟨run, hrun⟩ := Option.isSome_iff_exists.mp
    (show ((fileNetwork false).clients ()).isSome by decide +kernel)
  exact ⟨run, hrun, (lossy_fileNetwork false).never_published (fun _ _ hflag => hflag) hrun⟩

end Network

end Multisync
