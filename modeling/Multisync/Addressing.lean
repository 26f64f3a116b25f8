import Multisync.MessageFormats
import Multisync.Network
import Mathlib.Tactic

/-!
# Where the messages of a client go

The destination of a client's socket is set by its constructor and never changed:
it is the group and the port of the command line.  The server's socket is bound to
a port the system chose, and the address a client remembers of a server is never
used.
-/

namespace Multisync

open ByteLayout Effects

namespace BlockClient

/-- The records for which a goodbye was queued, with their server addresses. -/
def answers (client : BlockClient) : List (FileInfo × Address) :=
  client.trace.filterMap ClientEvent.answer?

/-- Each goodbye sent, with the record it was queued for.  The first datagram a
client sends is its hello, and the queue keeps the order. -/
def goodbyes (client : BlockClient) : List ((FileInfo × Address) × (Address × Bytes)) :=
  client.answers.zip (client.socket.sent.drop 1)

/-- The hello as it is queued. -/
def helloMessage (order : ByteOrder) (client : BlockClient) : Message :=
  Message.withMetadata order client.id MessageType.chello.code client.info

def goodbyeMessage (order : ByteOrder) (client : BlockClient) : Message :=
  Message.bare order client.id MessageType.cgoodbye.code

/-- What was sent and what is queued: `hello`, and a goodbye for every answer. -/
structure Posted (order : ByteOrder) (initial : BlockClient) (hello : List Bytes)
    (client : BlockClient) : Prop where
  id : client.id = initial.id
  info : client.info = initial.info
  destination : client.socket.destination = initial.socket.destination
  sent : ∀ datagram ∈ client.socket.sent, datagram.1 = initial.socket.destination
  posted : client.socket.sent.map Prod.snd ++
      client.messageQueue.map Message.buffer =
    hello ++ client.answers.map fun _ => (goodbyeMessage order initial).buffer
  greeting : ∀ bytes ∈ hello, bytes = (helloMessage order initial).buffer

variable {order : ByteOrder} {initial : BlockClient} {hello : List Bytes}

/-- Once the socket is open the hello is queued. -/
theorem start_posted_hello (group : UInt32) (port : UInt16) (pid id : UInt32)
    (files : FileStore Bytes) (ephemeral : UInt16) :
    Posted order (create order group port pid id files)
      [(helloMessage order (create order group port pid id files)).buffer]
      (ClientRun.start order ephemeral none
        (create order group port pid id files)).client := by
  refine ⟨rfl, rfl, rfl, ?_, rfl, ?_⟩
  · intro datagram hdatagram
    contradiction
  · exact fun bytes hbytes => List.mem_singleton.mp hbytes

/-- Opening the socket may fail; otherwise the hello is queued. -/
theorem start_posted (group : UInt32) (port : UInt16) (pid id : UInt32)
    (files : FileStore Bytes) (ephemeral : UInt16) (openError : Option String) :
    ∃ hello, hello.length ≤ 1 ∧
      Posted order (create order group port pid id files) hello
        (ClientRun.start order ephemeral openError
          (create order group port pid id files)).client := by
  cases openError with
  | none => exact ⟨[_], le_refl 1, start_posted_hello group port pid id files ephemeral⟩
  | some error =>
      refine ⟨[], Nat.zero_le 1, rfl, rfl, rfl, ?_, rfl, ?_⟩
      · intro datagram hdatagram
        contradiction
      · intro bytes hbytes
        contradiction

/-- A program on a record answers nothing. -/
theorem answers_putStatus (client : BlockClient) (info : FileInfo)
    (state : StatusState) : (client.putStatus info state).answers = client.answers := by
  have hnone : (state.publications.map (ClientEvent.published info)).filterMap
      ClientEvent.answer? = [] := by
    rw [List.filterMap_eq_nil_iff]
    intro event hevent
    obtain ⟨publication, _, rfl⟩ := List.mem_map.mp hevent
    rfl
  rw [answers, putStatus, List.filterMap_append, hnone, List.append_nil, answers]

theorem Posted.of_answers {client client' : BlockClient}
    (hclient : Posted order initial hello client) (hid : client'.id = client.id)
    (hinfo : client'.info = client.info) (hsocket : client'.socket = client.socket)
    (hqueue : client'.messageQueue = client.messageQueue)
    (hanswers : client'.answers = client.answers) :
    Posted order initial hello client' := by
  constructor
  · rw [hid, hclient.id]
  · rw [hinfo, hclient.info]
  · rw [hsocket, hclient.destination]
  · rw [hsocket]
    exact hclient.sent
  · rw [hsocket, hqueue, hanswers]
    exact hclient.posted
  · exact hclient.greeting

theorem Posted.answered {client : BlockClient} {info : FileInfo} {status : SyncStatus}
    (hclient : Posted order initial hello client)
    (hfind : client.syncSet.find? info = some status) :
    Posted order initial hello (client.answered order info) := by
  refine ⟨hclient.id, hclient.info, hclient.destination, hclient.sent, ?_,
    hclient.greeting⟩
  have hanswers : (client.answered order info).answers =
      client.answers ++ [(info, status.serverAddress)] := by
    simp [BlockClient.answered, answers, hfind, ClientEvent.answer?]
  rw [hanswers, List.map_append, ← List.append_assoc, ← hclient.posted,
    List.append_assoc, BlockClient.answered, List.map_append, hclient.id]
  rfl

theorem handle_posted {env : Environment} {message : Message} {address : Address} :
    Keeps (Posted order initial hello) (Posted order initial hello)
      (handle order env message address) := by
  have hput : ∀ (client : BlockClient) info state, Posted order initial hello client →
      Posted order initial hello (client.putStatus info state) :=
    fun client info state hclient =>
      hclient.of_answers rfl rfl rfl rfl (answers_putStatus client info state)
  have hrecord : ∀ info {α : Type} (program : EStateM Fault StatusState α),
      Triple
        (fun client => Posted order initial hello client ∧
          ∃ status, client.syncSet.find? info = some status)
        (onStatus info program)
        (fun _ client => Posted order initial hello client ∧
          ∃ status, client.syncSet.find? info = some status)
        fun _ => Posted order initial hello := by
    intro info α program
    apply onStatus_triple
    · exact fun client hclient _ => hclient.1
    · exact fun client status value state hclient hfind _ =>
        ⟨hput client info state hclient.1, _, OrderedMap.find?_replace_self _ hfind⟩
    · exact fun client status fault state hclient _ _ => hput client info state hclient.1
  apply handle_finish_triple (Q := fun info client => Posted order initial hello client ∧
    ∃ status, client.syncSet.find? info = some status)
  · exact fun _ _ hclient => hclient
  · exact fun _ _ hclient => hclient
  · exact fun _ _ hclient => hclient.1
  · intro info _ client hclient
    rw [getSyncStatus_apply]
    cases hfind : client.syncSet.find? info with
    | some status => exact ⟨hclient, status, hfind⟩
    | none =>
        cases hcreate : SyncStatus.create order env info address client.files with
        | error fault => exact hclient
        | ok made =>
            refine ⟨hclient.of_answers rfl rfl rfl rfl ?_, _,
              OrderedMap.find?_insert_self _ hfind⟩
            simp [answers, BlockClient.created, ClientEvent.answer?]
  · exact fun info _ α program _ => hrecord info program
  · rintro info _ client ⟨hclient, status, hfind⟩
    exact ⟨hclient.answered hfind, status, hfind⟩
  · intro info _ outcome _
    refine Triple.bind (hrecord info _) fun complete => Triple.ite (fun _ => ?_)
      fun _ => Triple.pure fun _ hclient => hclient.1
    apply Triple.modify
    rintro client ⟨hclient, _⟩
    refine @Posted.of_answers order initial hello client _ hclient rfl rfl rfl rfl ?_
    simp [answers, ClientEvent.answer?]

theorem helloMessage_wireForm (client : BlockClient) :
    WireForm order client.id MessageType.chello.code
      (Message.metadataImage order client.info) [] (helloMessage order client) :=
  chello_wireForm order client.id client.info

theorem goodbyeMessage_wireForm (client : BlockClient) :
    WireForm order client.id MessageType.cgoodbye.code [] []
      (goodbyeMessage order client) :=
  cgoodbye_wireForm order client.id

/-- What is queued can be sent. -/
theorem Posted.sendable {client : BlockClient}
    (hclient : Posted order initial hello client) :
    ∀ message ∈ client.messageQueue, message.Framed order ∧ message.buffer ≠ [] := by
  intro message hmessage
  have hmem : message.buffer ∈ client.socket.sent.map Prod.snd ++
      client.messageQueue.map Message.buffer :=
    List.mem_append_right _ (List.mem_map_of_mem hmessage)
  rw [hclient.posted] at hmem
  rcases List.mem_append.mp hmem with hhello | hgoodbye
  · have hform := (@helloMessage_wireForm order initial).of_buffer
      (hclient.greeting _ hhello)
    exact ⟨hform.framed (by decide) order, hform.buffer_ne_nil⟩
  · obtain ⟨_, _, hbuffer⟩ := List.mem_map.mp hgoodbye
    have hform := (@goodbyeMessage_wireForm order initial).of_buffer
      hbuffer.symm
    exact ⟨hform.framed (by decide) order, hform.buffer_ne_nil⟩

theorem sendFront_posted (sendError : Option String) :
    Keeps (Posted order initial hello) (Posted order initial hello)
      (endpoint.sendFront order sendError) := by
  apply Endpoint.sendFront_keeps fun _ hclient => hclient
  · intro client message rest socket hqueue hclient hok
    have hcons : client.messageQueue = message :: rest := hqueue
    obtain ⟨hframed, hne⟩ := hclient.sendable message (by simp [hcons])
    rw [BlockSocket.send_framed order hframed hne] at hok
    cases hsend : sendError with
    | some error =>
        rw [hsend] at hok
        contradiction
    | none =>
        rw [hsend] at hok
        cases hok
        refine ⟨hclient.id, hclient.info, hclient.destination, ?_, ?_,
          hclient.greeting⟩
        · intro datagram hdatagram
          rcases List.mem_append.mp hdatagram with hold | hnew
          · exact hclient.sent datagram hold
          · rw [List.mem_singleton.mp hnew]
            exact hclient.destination
        · have hposted := hclient.posted
          rw [hcons, List.map_cons] at hposted
          simpa [endpoint, answers] using hposted
  · intro client message rest fault socket hqueue hclient herror
    have hcons : client.messageQueue = message :: rest := hqueue
    obtain ⟨hframed, hne⟩ := hclient.sendable message (by simp [hcons])
    rw [BlockSocket.send_framed order hframed hne] at herror
    cases hsend : sendError with
    | some error =>
        rw [hsend] at herror
        cases herror
        exact hclient
    | none =>
        rw [hsend] at herror
        contradiction

/-- What is queued is sent, if the system call does not fail. -/
theorem Posted.sendFront {client : BlockClient}
    (hclient : Posted order initial hello client) (hne : endpoint.messageQueue client ≠ []) :
    ∃ socket rest, endpoint.sendFront order none client =
        .ok () { client with socket := socket, messageQueue := rest } ∧
      Posted order initial hello
        { client with socket := socket, messageQueue := rest } := by
  obtain ⟨message, rest, hqueue⟩ := List.exists_cons_of_ne_nil hne
  have hposted := @sendFront_posted order initial hello none client hclient
  have hmem : message ∈ client.messageQueue := by
    rw [show client.messageQueue = message :: rest from hqueue]
    exact List.mem_cons_self
  obtain ⟨hframed, hnonempty⟩ := hclient.sendable message hmem
  rw [Endpoint.sendFront_of_cons hqueue,
    BlockSocket.send_framed order hframed hnonempty] at hposted ⊢
  exact ⟨_, rest, rfl, hposted⟩

theorem select_posted (input : ClientInput) :
    Keeps (Posted order initial hello) (Posted order initial hello)
      (select order input) := by
  have hweak : ∀ client, Posted order initial hello client →
      Posted order initial hello client := fun _ hclient => hclient
  apply Endpoint.select_keeps hweak
  · apply processMessage_keeps hweak
    · exact fun client hclient sender => ⟨hclient.id, hclient.info, hclient.destination,
        hclient.sent, hclient.posted, hclient.greeting⟩
    · exact fun message address => handle_posted
  · exact sendFront_posted input.sendError

/-- Every goodbye that was sent is one, and went where the socket's destination was
set to at first. -/
theorem Posted.goodbyes {client : BlockClient}
    (hclient : Posted order initial hello client) (hlength : hello.length ≤ 1) :
    ∀ entry ∈ client.goodbyes,
      entry.2 = (initial.socket.destination, (goodbyeMessage order initial).buffer) := by
  rintro ⟨answer, destination, bytes⟩ hentry
  have hdropped := (List.of_mem_zip hentry).2
  have hsent := hclient.sent _ (List.mem_of_mem_drop hdropped)
  have hbytes : bytes ∈ (client.socket.sent.map Prod.snd ++
      client.messageQueue.map Message.buffer).drop 1 := by
    have hmem : bytes ∈ (client.socket.sent.map Prod.snd).drop 1 := by
      rw [← List.map_drop]
      exact List.mem_map_of_mem hdropped
    cases hsent : client.socket.sent.map Prod.snd with
    | nil => simp [hsent] at hmem
    | cons first others =>
        rw [hsent] at hmem
        simpa using Or.inl hmem
  rw [hclient.posted] at hbytes
  have hgoodbye : bytes ∈ client.answers.map fun _ =>
      (goodbyeMessage order initial).buffer := by
    cases hello with
    | nil => exact List.mem_of_mem_drop hbytes
    | cons first others =>
        rw [List.length_cons] at hlength
        have hothers : others = [] := List.eq_nil_of_length_eq_zero (by omega)
        rw [hothers] at hbytes
        exact hbytes
  obtain ⟨_, _, rfl⟩ := List.mem_map.mp hgoodbye
  rw [← hsent]

end BlockClient

/-- The server's socket keeps the group it was made with. -/
theorem BlockServer.resume_group {order : ByteOrder} {group : UInt32}
    (input : ServerInput) (phase : ServerPhase) :
    Keeps (fun server => server.socket.group.ip = group)
      (fun server => server.socket.group.ip = group) (resume order input phase) :=
  @resume_keeps_of_socket order (fun socket => socket.group.ip = group) input
    (fun _ _ hsocket => hsocket) (fun _ _ hsocket _ => hsocket) phase

theorem ServerRun.start_group {ι : Type} (site : Site ι) (ephemeral : UInt16)
    (openError : Option String) (input : ServerInput) :
    (ServerRun.start site.serverOrder ephemeral openError input
      site.server).server.socket.group.ip = site.group := by
  rw [ServerRun.start, ServerRun.server_ofResult]
  exact (@BlockServer.start_keeps_of_socket site.serverOrder
    (fun socket => socket.group.ip = site.group) ephemeral openError input
    fun _ _ hsocket => hsocket).endState rfl

namespace Network

variable {ι : Type} [DecidableEq ι] {site : Site ι} {circumstances : Circumstances}

/-- The server has joined the group, the clients post to it, and what they have sent
has reached the server exactly when it is bound to the port. -/
structure Addressed (site : Site ι) (net : Network ι) : Prop where
  server : ∀ run, net.server = some run → run.server.socket.group.ip = site.group
  clients : ∀ i run, net.clients i = some run → ∃ hello, hello.length ≤ 1 ∧
    (site.client i).Posted (site.clientOrder i) hello run.client
  wire : ∀ sent ∈ net.wire, ∀ port, sent.serverPort = some port →
    (sent.reachedServer = true ↔ port = site.port)

theorem Addressed.step {net net' : Network ι} (hnet : Addressed site net)
    (hstep : Step site circumstances net net') : Addressed site net' := by
  cases hstep with
  | startServer ephemeral openError input hnone hinput =>
      refine ⟨fun run hrun => ?_, hnet.clients, hnet.wire⟩
      cases hrun
      exact ServerRun.start_group site ephemeral openError input
  | startClient i ephemeral openError hnone =>
      refine ⟨hnet.server, fun j run hrun => ?_, hnet.wire⟩
      by_cases hji : j = i
      · subst hji
        rw [clientStart_self] at hrun
        cases hrun
        exact BlockClient.start_posted _ _ _ _ _ _ _
      · rw [clientStart_ne hji] at hrun
        exact hnet.clients j run hrun
  | @server run input hrun hlive hinput harrives =>
      refine ⟨fun run' hrun' => ?_, hnet.clients, hnet.wire⟩
      cases hrun'
      exact ServerRun.step_keeps (BlockServer.resume_group input) (hnet.server run hrun)
  | @client i run input hrun hlive hinput harrives =>
      obtain ⟨hello, hlength, hposted⟩ := hnet.clients i run hrun
      have hposted' : (site.client i).Posted (site.clientOrder i) hello
          (run.step (site.clientOrder i) input).client :=
        ClientRun.step_keeps (BlockClient.select_posted input) hposted
      refine ⟨hnet.server, fun j run' hrun' => ?_, fun sent hsent port hport => ?_⟩
      · by_cases hji : j = i
        · subst hji
          rw [clientStep_self] at hrun'
          cases hrun'
          exact ⟨hello, hlength, hposted'⟩
        · rw [clientStep_ne hji] at hrun'
          exact hnet.clients j run' hrun'
      · rcases List.mem_append.mp hsent with hold | hnew
        · exact hnet.wire sent hold port hport
        · obtain ⟨datagram, hdatagram, rfl⟩ := List.mem_map.mp hnew
          have hdestination := hposted'.sent datagram (List.mem_of_mem_drop hdatagram)
          simp only at hport ⊢
          cases hsocket : net.serverSocket? with
          | none => simp [hsocket] at hport
          | some socket =>
              rw [hsocket, Option.bind_some] at hport
              obtain ⟨serverRun, hserver, hsame⟩ := serverSocket?_eq_some hsocket
              have hgroup : socket.group.ip = site.group := by
                rw [hsame]
                exact hnet.server serverRun hserver
              rw [Option.any_some, decide_eq_true_iff, BlockSocket.Takes, hport,
                hdestination, hgroup]
              constructor
              · rintro ⟨heq, _⟩
                exact Option.some.inj heq
              · rintro rfl
                exact ⟨rfl, Or.inl rfl⟩
  | outsider source destination bytes houtsiders =>
      exact ⟨hnet.server, hnet.clients, hnet.wire⟩

theorem Reachable.addressed {net : Network ι}
    (hnet : Reachable site circumstances empty net) : Addressed site net := by
  induction hnet with
  | refl =>
      constructor
      · intro run hrun
        contradiction
      · intro i run hrun
        contradiction
      · intro sent hsent
        contradiction
  | tail _ hstep ih => exact ih.step hstep

/-- Every hello sent while the server's socket is open has reached it. -/
def HellosArrive (site : Site ι) (net : Network ι) : Prop :=
  ∀ sent ∈ net.wire,
    (Message.received receiveReserve sent.bytes).getType
        (site.clientOrder sent.source) = MessageType.chello.code →
    sent.serverPort.isSome → sent.reachedServer = true

/-- Every goodbye sent for a file is one, and has gone to the address stored in the
record of the file. -/
def GoodbyesReturn (site : Site ι) (net : Network ι) : Prop :=
  ∀ i run, net.clients i = some run → ∀ entry ∈ run.client.goodbyes,
    (Message.received receiveReserve entry.2.2).getType (site.clientOrder i) =
      MessageType.cgoodbye.code ∧
    entry.2.1 = entry.1.2

/-- The messages of the clients arrive exactly when the server is bound to the port of
the group, and the records have the group and the port for their server. -/
theorem clientMessages_arrive_iff {net : Network ι}
    (hnet : Reachable site circumstances empty net) :
    (net.HellosArrive site ∧ net.GoodbyesReturn site) ↔
      (∀ sent ∈ net.wire,
        (Message.received receiveReserve sent.bytes).getType
            (site.clientOrder sent.source) = MessageType.chello.code →
        ∀ port, sent.serverPort = some port → port = site.port) ∧
      (∀ i run, net.clients i = some run → ∀ entry ∈ run.client.goodbyes,
        entry.1.2 = ⟨site.group, site.port⟩) := by
  have haddressed := hnet.addressed
  have hsent : ∀ i run, net.clients i = some run → ∀ entry ∈ run.client.goodbyes,
      entry.2 = (⟨site.group, site.port⟩,
        (BlockClient.goodbyeMessage (site.clientOrder i) (site.client i)).buffer) := by
    intro i run hrun
    obtain ⟨hello, hlength, hposted⟩ := haddressed.clients i run hrun
    exact hposted.goodbyes hlength
  constructor
  · rintro ⟨hhellos, hgoodbyes⟩
    constructor
    · intro sent hmem htype port hport
      apply (haddressed.wire sent hmem port hport).mp
      apply hhellos sent hmem htype
      rw [hport, Option.isSome_some]
    · intro i run hrun entry hentry
      rw [← (hgoodbyes i run hrun entry hentry).2, hsent i run hrun entry hentry]
  · rintro ⟨hports, haddresses⟩
    constructor
    · intro sent hmem htype hopen
      obtain ⟨port, hport⟩ := Option.isSome_iff_exists.mp hopen
      exact (haddressed.wire sent hmem port hport).mpr
        (hports sent hmem htype port hport)
    · intro i run hrun entry hentry
      have hform := @BlockClient.goodbyeMessage_wireForm (site.clientOrder i)
        (site.client i)
      constructor
      · rw [hsent i run hrun entry hentry]
        apply (hform.of_buffer (Message.received_buffer ?_)).getType
        rw [hform.length_buffer]
        decide
      · rw [hsent i run hrun entry hentry, haddresses i run hrun entry hentry]

end Network

/-- One client and a server of an empty file, with the port 9000. -/
def sampleSite : Site Unit where
  group := 1
  port := 9000
  serverOrder := .little
  md5 := fun _ => zeroDigest
  opened := some []
  measured := some (.regular [])
  path := [97]
  serverId := 9
  serverIp := 2
  clientOrder := fun _ => .little
  pid := fun _ => 7
  clientId := fun _ => 5
  files := fun _ => FileStore.empty
  clientIp := fun _ => 3

/-- Nothing is read, and the socket can be written. -/
def writableInput : ClientInput where
  ready := .ok ⟨false, true⟩
  arrival := .error ""
  env := Environment.plain [116] false
  sendError := none

def writableServerInput : ServerInput where
  ready := .ok ⟨false, true⟩
  arrival := .error ""
  sendError := none
  getblockError := false
  readError := false
  error := ""

/-- The server is started, and then the client, which sends its hello. -/
def sampleNetwork : Network Unit :=
  ((Network.empty.serverStart sampleSite 40000 none writableServerInput).clientStart
      sampleSite () 0 none).clientStep sampleSite ()
    (ClientRun.start .little 0 none (sampleSite.client ())) writableInput

theorem sampleNetwork_reachable : Network.Reachable sampleSite
    ⟨fun _ => True, fun _ => True, True⟩ Network.empty sampleNetwork := by
  apply Relation.ReflTransGen.tail
  · apply Relation.ReflTransGen.tail
    · exact .single (.startServer 40000 none writableServerInput rfl trivial)
    · exact .startClient () 0 none rfl
  · apply Network.Step.client () writableInput Network.clientStart_self rfl trivial
    intro datagram harrival
    contradiction

theorem sampleNetwork_arrive_iff :
    (sampleNetwork.HellosArrive sampleSite ∧ sampleNetwork.GoodbyesReturn sampleSite) ↔
      (∀ sent ∈ sampleNetwork.wire,
        (Message.received receiveReserve sent.bytes).getType
            (sampleSite.clientOrder sent.source) = MessageType.chello.code →
        ∀ port, sent.serverPort = some port → port = sampleSite.port) ∧
      (∀ i run, sampleNetwork.clients i = some run → ∀ entry ∈ run.client.goodbyes,
        entry.1.2 = ⟨sampleSite.group, sampleSite.port⟩) :=
  Network.clientMessages_arrive_iff sampleNetwork_reachable

/-- The hello of this client does not reach the server. -/
theorem hello_lost : ¬ ∀ net : Network Unit,
    Network.Reachable sampleSite ⟨fun _ => True, fun _ => True, True⟩ Network.empty net →
      net.HellosArrive sampleSite ∧ net.GoodbyesReturn sampleSite := by
  intro hall
  have hhellos := (hall sampleNetwork sampleNetwork_reachable).1
  have hwire : sampleNetwork.wire.any (fun sent =>
      (Message.received receiveReserve sent.bytes).getType
          (sampleSite.clientOrder sent.source) = MessageType.chello.code &&
        sent.serverPort.isSome && !sent.reachedServer) = true := by
    decide +kernel
  obtain ⟨sent, hsent, hlost⟩ := List.any_eq_true.mp hwire
  simp only [Bool.and_eq_true, Bool.not_eq_true', decide_eq_true_eq] at hlost
  have hreached := hhellos sent hsent hlost.1.1 hlost.1.2
  rw [hlost.2] at hreached
  contradiction

end Multisync
