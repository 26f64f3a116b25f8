import Multisync.Completion
import Multisync.Goodbyes
import Multisync.QueueBound
import Mathlib.Tactic

/-!
# What becomes of a queued message?

Each end pushes at the back of its queue and sends from the front.  The pushes are
listed here beside the code that makes them; what was sent and what is queued are then
the pushes so far, in their order.  A front is taken only where the queue was found
non-empty before the handler ran, and the handler takes nothing out.
-/

namespace Multisync

open ByteLayout Effects

namespace Endpoint

variable {σ : Type}

/-- The socket and the queue of an end are parts of its state. -/
structure Lawful (endpoint : Endpoint σ) : Prop where
  socket_putSocket : ∀ socket state, endpoint.socket (endpoint.putSocket socket state) = socket
  socket_putQueue : ∀ queue state,
    endpoint.socket (endpoint.putQueue queue state) = endpoint.socket state
  queue_putQueue : ∀ queue state, endpoint.messageQueue (endpoint.putQueue queue state) = queue

/-- What was sent, and then what is queued, is what was ever queued. -/
def Accounts (endpoint : Endpoint σ) (log : List Message) (state : σ) : Prop :=
  (endpoint.socket state).sent.map Prod.snd ++
    (endpoint.messageQueue state).map Message.buffer = log.map Message.buffer

/-- From the first state to the second these messages were pushed, and none was sent. -/
structure Pushed (endpoint : Endpoint σ) (pushes : List Message) (state final : σ) :
    Prop where
  queue : endpoint.messageQueue final = endpoint.messageQueue state ++ pushes
  sent : (endpoint.socket final).sent = (endpoint.socket state).sent

/-- A call of `select` in the first state comes to `front` and `pop_front` in the
second. -/
structure TakesFront (endpoint : Endpoint σ) (ready : Ready)
    (processMessage : EStateM Fault σ Unit) (state mid : σ) : Prop where
  status : BlockSocket.select ready (!(endpoint.messageQueue state).isEmpty) = .write ∨
    BlockSocket.select ready (!(endpoint.messageQueue state).isEmpty) = .both
  processed :
    (if BlockSocket.select ready (!(endpoint.messageQueue state).isEmpty) = .read ∨
        BlockSocket.select ready (!(endpoint.messageQueue state).isEmpty) = .both then
      processMessage
    else pure ()) state = .ok () mid

/-- No call of `select` takes the front of an empty queue. -/
def FrontSafe (endpoint : Endpoint σ) (processMessage : EStateM Fault σ Unit)
    (state : σ) : Prop :=
  ∀ ready mid, endpoint.TakesFront ready processMessage state mid →
    endpoint.messageQueue mid ≠ []

variable {endpoint : Endpoint σ} {order : ByteOrder} {state mid final : σ}
  {log pushes pushes' : List Message} {processMessage : EStateM Fault σ Unit}

theorem Pushed.refl (state : σ) : endpoint.Pushed [] state state :=
  ⟨(List.append_nil _).symm, rfl⟩

theorem Pushed.trans (hfirst : endpoint.Pushed pushes state mid)
    (hsecond : endpoint.Pushed pushes' mid final) :
    endpoint.Pushed (pushes ++ pushes') state final := by
  constructor
  · rw [hsecond.queue, hfirst.queue, List.append_assoc]
  · rw [hsecond.sent, hfirst.sent]

/-- Pushing goes to the end of the log. -/
theorem Accounts.pushed (haccounts : endpoint.Accounts log state)
    (hpushed : endpoint.Pushed pushes state final) :
    endpoint.Accounts (log ++ pushes) final := by
  rw [Accounts, hpushed.queue, hpushed.sent, List.map_append, ← List.append_assoc,
    haccounts, List.map_append]

/-- Sending takes from the queue what it adds to the datagrams sent. -/
theorem Accounts.sendFront (hlawful : endpoint.Lawful)
    (haccounts : endpoint.Accounts log state) {sendError : Option String}
    (hok : endpoint.sendFront order sendError state = .ok () final) :
    endpoint.Accounts log final := by
  obtain ⟨message, rest, hqueue, rfl⟩ := sendFront_eq_ok hok
  rw [Accounts, hqueue] at haccounts
  rw [Accounts, hlawful.queue_putQueue, hlawful.socket_putQueue, hlawful.socket_putSocket,
    ← haccounts]
  simp

/-- A call of `select` that returns has added the pushes of the handler to the log. -/
theorem Accounts.select (hlawful : endpoint.Lawful)
    (haccounts : endpoint.Accounts log state) {ready : Except String Ready}
    {sendError : Option String}
    (hprocess : ∀ mid, processMessage state = .ok () mid →
      endpoint.Pushed pushes state mid) :
    endpoint.select order ready processMessage sendError state = .ok () final →
      endpoint.Accounts
        (log ++ match ready with
          | .ok ready => if ready.readable = true then pushes else []
          | .error _ => []) final := by
  intro hok
  cases ready with
  | error error => contradiction
  | ok ready =>
      rw [select_of_ready] at hok
      obtain ⟨_, mid, hread, hwrite⟩ := bind_eq_ok hok
      have hmid :
          endpoint.Accounts (log ++ if ready.readable = true then pushes else []) mid := by
        split_ifs at hread with hreadable
        · rw [if_pos hreadable]
          exact haccounts.pushed (hprocess mid hread)
        · rw [if_neg hreadable]
          cases hread
          exact haccounts.pushed (.refl _)
      split_ifs at hwrite
      · exact hmid.sendFront hlawful hwrite
      · cases hwrite
        exact hmid

/-- A handler that takes nothing out of the queue leaves a front to be taken. -/
theorem frontSafe_of_pushed
    (hprocess : ∀ mid, processMessage state = .ok () mid →
      ∃ pushes, endpoint.Pushed pushes state mid) :
    endpoint.FrontSafe processMessage state := by
  intro ready mid htakes
  have hpolled := (BlockSocket.select_writes ready _).mp htakes.status
  have hne : endpoint.messageQueue state ≠ [] := by simpa using hpolled.1
  have hprocessed := htakes.processed
  split_ifs at hprocessed
  · obtain ⟨pushes, hpushed⟩ := hprocess mid hprocessed
    rw [hpushed.queue]
    exact List.append_ne_nil_of_left_ne_nil hne pushes
  · cases hprocessed
    exact hne

end Endpoint

/-! ## The pushes of the server -/

namespace BlockServer

variable (order : ByteOrder)

/-- What the handler of the message pushes. -/
def handlePushes (input : ServerInput) (message : Message) (server : BlockServer) :
    List Message :=
  if message.getType order = MessageType.getinfo.code then [server.infoMessage order]
  else if message.getType order = MessageType.getblock.code then
    match message.getMetadata order BlockInfo with
    | .ok i =>
        if i.fileInfo.equal server.fileInfo then
          [blockMessage order server.id i
            (readBlock order input.getblockError i server.input).1]
        else []
    | .error _ => []
  else []

/-- What `process_message` pushes. -/
def processPushes (input : ServerInput) (server : BlockServer) : List Message :=
  match BlockSocket.receive order receiveReserve input.arrival server.socket with
  | .ok message _ => handlePushes order input message server
  | .error _ _ => []

def selectPushes (input : ServerInput) (server : BlockServer) : List Message :=
  match input.ready with
  | .ok ready => if ready.readable = true then processPushes order input server else []
  | .error _ => []

/-- What the body of the first loop pushes. -/
def headPushes (input : ServerInput) (i : BlockInfo) (server : BlockServer) :
    List Message :=
  if i.getBlock order < server.fileInfo.getBlockCount order ∧
      server.messageQueue.length < 5 then
    [blockMessage order server.id i (readBlock order input.readError i server.input).1]
  else []

/-- What `start` pushes up to its first wait. -/
def startPushes (input : ServerInput) (server : BlockServer) : List Message :=
  server.infoMessage order :: headPushes order input
    (BlockInfo.ofBlock order server.fileInfo 0)
    { server with messageQueue := server.messageQueue ++ [server.infoMessage order] }

/-- What is pushed from one wait to the next. -/
def resumePushes (input : ServerInput) : ServerPhase → BlockServer → List Message
  | .serving i, server =>
      selectPushes order input server ++
        headPushes order input (i.succ order) (endState (select order input server))
  | .draining, server => selectPushes order input server
  | .returned, _ => []

end BlockServer

namespace ServerRun

variable (order : ByteOrder)

/-- What the next call of `select`, and the code up to the one after it, push. -/
def pushes (input : ServerInput) (run : ServerRun) : List Message :=
  match run.phase with
  | .ok phase =>
      if BlockServer.endpoint.Wakes input.ready run.server then
        BlockServer.resumePushes order input phase run.server
      else []
  | .error _ => []

/-- The runs of `start`, with all that was pushed in them. -/
inductive Logged (server : BlockServer) : ServerRun → List Message → Prop
  | start (ephemeral : UInt16) (openError : Option String) (input : ServerInput) :
      Logged server (start order ephemeral openError input server)
        (BlockServer.startPushes order input server)
  | step {run : ServerRun} {log : List Message} (hrun : Logged server run log)
      (input : ServerInput) :
      Logged server (run.step order input) (log ++ run.pushes order input)

end ServerRun

namespace BlockServer

variable {order : ByteOrder} {input : ServerInput} {message : Message} {i : BlockInfo}
  {server final : BlockServer} {log : List Message} {phase phase' : ServerPhase}

theorem endpoint_lawful : endpoint.Lawful :=
  ⟨fun _ _ => rfl, fun _ _ => rfl, fun _ _ => rfl⟩

theorem enqueueBlock_pushed {readError : Bool} {error : String}
    (hok : enqueueBlock order readError error i server = .ok () final) :
    endpoint.Pushed
      [blockMessage order server.id i (readBlock order readError i server.input).1]
      server final := by
  rw [enqueueBlock_apply] at hok
  dsimp only at hok
  split_ifs at hok
  cases hok
  exact ⟨rfl, rfl⟩

theorem handle_pushed (hok : handle order input message server = .ok () final) :
    endpoint.Pushed (handlePushes order input message server) server final := by
  have hgetinfo : MessageType.chello.code ≠ MessageType.getinfo.code := by simp
  have hgetblock : MessageType.chello.code ≠ MessageType.getblock.code := by simp
  have hinfo : MessageType.cgoodbye.code ≠ MessageType.getinfo.code := by simp
  have hblock : MessageType.cgoodbye.code ≠ MessageType.getblock.code := by simp
  unfold handle at hok
  unfold handlePushes
  split_ifs at hok with hchello hgetinfo' hgetblock' hcgoodbye
  · rw [hchello, if_neg hgetinfo, if_neg hgetblock]
    obtain ⟨info, _, hinsert⟩ := ofResult_bind_eq_ok hok
    cases hinsert
    exact ⟨(List.append_nil _).symm, rfl⟩
  · rw [if_pos hgetinfo']
    obtain ⟨info, _, hinsert⟩ := ofResult_bind_eq_ok hok
    cases hinsert
    exact ⟨rfl, rfl⟩
  · rw [if_neg hgetinfo', if_pos hgetblock']
    obtain ⟨info, _, hinsert⟩ := ofResult_bind_eq_ok hok
    obtain ⟨_, mid, hmid, hrest⟩ := bind_eq_ok hinsert
    cases hmid
    obtain ⟨i, hmetadata, hqueue⟩ := ofResult_bind_eq_ok hrest
    simp only [hmetadata]
    rw [bind_of_ok (get_apply _)] at hqueue
    split_ifs at hqueue with hequal
    · rw [if_pos hequal]
      have hpushed := enqueueBlock_pushed hqueue
      exact ⟨hpushed.queue, hpushed.sent⟩
    · rw [if_neg hequal]
      cases hqueue
      exact ⟨(List.append_nil _).symm, rfl⟩
  · rw [if_neg hgetinfo', if_neg hgetblock']
    obtain ⟨info, _, herase⟩ := ofResult_bind_eq_ok hok
    cases herase
    exact ⟨(List.append_nil _).symm, rfl⟩
  · rw [if_neg hgetinfo', if_neg hgetblock']
    cases hok
    exact .refl server

theorem processMessage_pushed (hok : processMessage order input server = .ok () final) :
    endpoint.Pushed (processPushes order input server) server final := by
  unfold processPushes
  cases hreceive : BlockSocket.receive order receiveReserve input.arrival server.socket with
  | error fault socket =>
      rw [processMessage_of_failed hreceive] at hok
      contradiction
  | ok message socket =>
      rw [processMessage_of_received hreceive] at hok
      cases hhandle : handle order input message
          { server with socket := socket, dispatched := server.dispatched ++ [message] } with
      | error fault mid =>
          rw [hhandle] at hok
          contradiction
      | ok value mid =>
          rw [hhandle] at hok
          cases hok
          have hpushed := handle_pushed hhandle
          obtain ⟨sender, _, _, _, _, _, rfl⟩ := BlockSocket.receive_eq_ok hreceive
          exact ⟨hpushed.queue, hpushed.sent⟩

/-- The head of the second loop only looks. -/
theorem drainHead_same (hok : drainHead server = .ok phase final) : final = server := by
  rcases drainHead_apply server with hwait | ⟨hreturn, _⟩
  · rw [hwait] at hok
    cases hok
    rfl
  · rw [hreturn] at hok
    cases hok
    rfl

theorem serveHead_pushed (hok : serveHead order input i server = .ok phase final) :
    endpoint.Pushed (headPushes order input i server) server final := by
  rw [serveHead, bind_of_ok (get_apply _)] at hok
  unfold headPushes
  split_ifs at hok with hless hroom
  · rw [if_pos ⟨hless, hroom⟩]
    obtain ⟨_, mid, hqueue, hphase⟩ := bind_eq_ok hok
    cases hphase
    exact enqueueBlock_pushed hqueue
  · rw [if_neg fun h => hroom h.2]
    cases hok
    exact .refl server
  · rw [if_neg fun h => hless h.1, drainHead_same hok]
    exact .refl server

theorem start_accounts {ephemeral : UInt16} {openError : Option String}
    (hqueue : server.messageQueue = []) (hsent : server.socket.sent = [])
    (hok : start order ephemeral openError input server = .ok phase final) :
    endpoint.Accounts (startPushes order input server) final := by
  obtain ⟨_, mid, hopen, hrest⟩ := bind_eq_ok hok
  cases openError with
  | some error => contradiction
  | none =>
      cases hopen
      obtain ⟨_, mid, hinfo, hhead⟩ := bind_eq_ok hrest
      cases hinfo
      rw [bind_of_ok (get_apply _)] at hhead
      have hpushed := serveHead_pushed hhead
      refine @Endpoint.Accounts.pushed _ endpoint _ _ [server.infoMessage order] _ ?_ hpushed
      simp [Endpoint.Accounts, endpoint, hqueue, hsent, infoMessage]

theorem select_accounts (haccounts : endpoint.Accounts log server)
    (hok : select order input server = .ok () final) :
    endpoint.Accounts (log ++ selectPushes order input server) final :=
  haccounts.select endpoint_lawful (fun _ => processMessage_pushed) hok

theorem resume_accounts (haccounts : endpoint.Accounts log server)
    (hok : resume order input phase server = .ok phase' final) :
    endpoint.Accounts (log ++ resumePushes order input phase server) final := by
  cases phase with
  | serving i =>
      obtain ⟨_, mid, hselect, hhead⟩ := bind_eq_ok hok
      rw [resumePushes, hselect, endState_ok, ← List.append_assoc]
      exact (select_accounts haccounts hselect).pushed (serveHead_pushed hhead)
  | draining =>
      obtain ⟨_, mid, hselect, hhead⟩ := bind_eq_ok hok
      rw [drainHead_same hhead]
      exact select_accounts haccounts hselect
  | returned =>
      cases hok
      exact haccounts.pushed (.refl _)

end BlockServer

namespace ServerRun

variable {order : ByteOrder} {server : BlockServer} {run : ServerRun} {log : List Message}
  {phase : ServerPhase}

theorem Logged.accounts (hrun : Logged order server run log)
    (hqueue : server.messageQueue = []) (hsent : server.socket.sent = [])
    (hphase : run.phase = .ok phase) :
    BlockServer.endpoint.Accounts log run.server := by
  induction hrun generalizing phase with
  | start ephemeral openError input =>
      unfold ServerRun.start at hphase ⊢
      cases hok : BlockServer.start order ephemeral openError input server with
      | ok phase' final => exact BlockServer.start_accounts hqueue hsent hok
      | error fault final =>
          rw [hok] at hphase
          contradiction
  | @step run log hrun input ih =>
      unfold ServerRun.step at hphase ⊢
      unfold ServerRun.pushes
      cases hbefore : run.phase with
      | error fault =>
          rw [hbefore] at hphase
          simp only [hbefore] at hphase
          contradiction
      | ok before =>
          simp only [hbefore] at hphase ⊢
          split_ifs at hphase ⊢ with hwakes
          · cases hok : BlockServer.resume order input before run.server with
            | ok phase' final => exact BlockServer.resume_accounts (ih hbefore) hok
            | error fault final =>
                rw [hok] at hphase
                contradiction
          · rw [List.append_nil]
            exact ih hbefore

end ServerRun

/-! ## The pushes of the client -/

namespace BlockClient

section Definitions

variable (order : ByteOrder)

/-- What the handler of the message pushes: when it finds the transfer complete, a
goodbye for each entry of the list that is the id. -/
def handlePushes (env : Environment) (message : Message) (address : Address)
    (client : BlockClient) : List Message :=
  if message.getType order = MessageType.sgoodbye.code then
    match message.getMetadata order FileInfo with
    | .ok info =>
        match (getSyncStatus order env info address >>= fun _ =>
            onStatus info (SyncStatus.transferComplete env.first)) client with
        | .ok true _ =>
            List.replicate (message.named order client.id) (goodbyeMessage order client)
        | .ok false _ => []
        | .error _ _ => []
    | .error _ => []
  else []

/-- What `process_message` pushes. -/
def processPushes (input : ClientInput) (client : BlockClient) : List Message :=
  match BlockSocket.receive order receiveReserve input.arrival client.socket with
  | .ok message socket =>
      handlePushes order input.env message socket.sender { client with socket := socket }
  | .error _ _ => []

def selectPushes (input : ClientInput) (client : BlockClient) : List Message :=
  match input.ready with
  | .ok ready => if ready.readable = true then processPushes order input client else []
  | .error _ => []

end Definitions

variable {order : ByteOrder} {env : Environment} {message : Message} {address : Address}
  {info : FileInfo} {input : ClientInput} {client mid final : BlockClient}
  {log : List Message}

theorem endpoint_lawful : endpoint.Lawful :=
  ⟨fun _ _ => rfl, fun _ _ => rfl, fun _ _ => rfl⟩

/-- The queue, what was sent and the id are as before. -/
structure Quiet (client final : BlockClient) : Prop where
  queue : final.messageQueue = client.messageQueue
  sent : final.socket.sent = client.socket.sent
  id : final.id = client.id

theorem Quiet.trans (hfirst : Quiet client mid) (hsecond : Quiet mid final) :
    Quiet client final :=
  ⟨hsecond.queue.trans hfirst.queue, hsecond.sent.trans hfirst.sent,
    hsecond.id.trans hfirst.id⟩

theorem Quiet.pushed (hquiet : Quiet client final) : endpoint.Pushed [] client final :=
  ⟨by rw [List.append_nil]; exact hquiet.queue, hquiet.sent⟩

theorem getSyncStatus_quiet
    (hok : getSyncStatus order env info address client = .ok () final) :
    Quiet client final := by
  obtain ⟨status, hholding⟩ := Holding.of_getSyncStatus hok
  cases hholding with
  | found _ => exact ⟨rfl, rfl, rfl⟩
  | made _ _ => exact ⟨rfl, rfl, rfl⟩

/-- What a program on a record leaves: the record, and all but it. -/
theorem onStatus_quiet {α : Type} {program : EStateM Fault StatusState α} {value : α}
    (hok : onStatus info program client = .ok value final) :
    Quiet client final ∧ ∃ status, final.syncSet.find? info = some status := by
  unfold onStatus at hok
  cases hfind : client.syncSet.find? info with
  | none =>
      rw [hfind] at hok
      contradiction
  | some status =>
      simp only [hfind] at hok
      cases hrun : program ⟨status, client.files, []⟩ with
      | error fault state =>
          rw [hrun] at hok
          contradiction
      | ok result state =>
          rw [hrun] at hok
          cases hok
          exact ⟨⟨rfl, rfl, rfl⟩, _, find?_putStatus_self hfind state⟩

theorem finish_quiet {outcome : PublishOutcome}
    (hok : finish info outcome client = .ok () final) : Quiet client final := by
  obtain ⟨complete, mid, hasked, herase⟩ := bind_eq_ok hok
  split_ifs at herase
  · cases herase
    exact (onStatus_quiet hasked).1.trans ⟨rfl, rfl, rfl⟩
  · cases herase
    exact (onStatus_quiet hasked).1

/-- The loop over the list. -/
theorem answerClients_pushed {clients : Extent} {status : SyncStatus}
    (hfind : client.syncSet.find? info = some status)
    (hclients : message.arrayExtent order 4 = .ok clients)
    (hok : (List.range (clients.length / 4)).forM
      (answerClient order info message clients) client = .ok () final) :
    endpoint.Pushed
      (List.replicate (message.named order client.id) (goodbyeMessage order client))
      client final := by
  obtain ⟨rfl, hlength⟩ := arrayExtent_eq_ok hclients
  rw [hlength] at hok
  have hanswered := (@answerClients_triple order message info client status hfind).ok rfl hok
  rw [hanswered]
  exact ⟨rfl, rfl⟩

theorem handle_pushed (hok : handle order env message address client = .ok () final) :
    endpoint.Pushed (handlePushes order env message address client) client final := by
  unfold handle at hok
  unfold handlePushes
  split_ifs at hok with hinfo hblock hgoodbye
  · rw [hinfo, if_neg (by decide)]
    rw [handleInfo_eq] at hok
    obtain ⟨info, _, hok⟩ := ofResult_bind_eq_ok hok
    obtain ⟨_, held, hget, hok⟩ := bind_eq_ok hok
    obtain ⟨text, _, hok⟩ := ofResult_bind_eq_ok hok
    obtain ⟨_, mid, hset, hfinish⟩ := bind_eq_ok hok
    exact (((getSyncStatus_quiet hget).trans (onStatus_quiet hset).1).trans
      (finish_quiet hfinish)).pushed
  · rw [hblock, if_neg (by decide)]
    rw [handleBlock_eq] at hok
    obtain ⟨block, _, hok⟩ := ofResult_bind_eq_ok hok
    obtain ⟨_, held, hget, hok⟩ := bind_eq_ok hok
    obtain ⟨_, mid, hwrite, hfinish⟩ := bind_eq_ok hok
    exact (((getSyncStatus_quiet hget).trans (onStatus_quiet hwrite).1).trans
      (finish_quiet hfinish)).pushed
  · rw [if_pos hgoodbye]
    rw [handleSgoodbye_eq] at hok
    obtain ⟨info, hmetadata, hok⟩ := ofResult_bind_eq_ok hok
    obtain ⟨_, held, hget, hok⟩ := bind_eq_ok hok
    obtain ⟨complete, mid, hasked, hok⟩ := bind_eq_ok hok
    obtain ⟨hquiet, status, hfind⟩ := onStatus_quiet hasked
    have hquiet := (getSyncStatus_quiet hget).trans hquiet
    simp only [hmetadata]
    rw [bind_of_ok hget, hasked]
    cases complete with
    | false => exact (hquiet.trans (finish_quiet hok)).pushed
    | true =>
        obtain ⟨clients, hclients, hok⟩ := ofResult_bind_eq_ok hok
        obtain ⟨_, answered, hloop, hfinish⟩ := bind_eq_ok hok
        have hanswered := answerClients_pushed hfind hclients hloop
        rw [goodbyeMessage, hquiet.id] at hanswered
        have hpushed := (hquiet.pushed.trans hanswered).trans (finish_quiet hfinish).pushed
        rwa [List.nil_append, List.append_nil] at hpushed
  · rw [if_neg hgoodbye]
    cases hok
    exact .refl client

theorem processMessage_pushed (hok : processMessage order input client = .ok () final) :
    endpoint.Pushed (processPushes order input client) client final := by
  unfold processPushes
  cases hreceive : BlockSocket.receive order receiveReserve input.arrival client.socket with
  | error fault socket =>
      rw [processMessage_of_failed hreceive] at hok
      contradiction
  | ok message socket =>
      rw [processMessage_of_received hreceive] at hok
      have hpushed := handle_pushed hok
      obtain ⟨sender, _, _, _, _, _, rfl⟩ := BlockSocket.receive_eq_ok hreceive
      exact ⟨hpushed.queue, hpushed.sent⟩

theorem start_accounts {ephemeral : UInt16} {openError : Option String}
    (hqueue : client.messageQueue = []) (hsent : client.socket.sent = [])
    (hok : start order ephemeral openError client = .ok () final) :
    endpoint.Accounts [helloMessage order client] final := by
  obtain ⟨_, mid, hopen, hhello⟩ := bind_eq_ok hok
  cases openError with
  | some error => contradiction
  | none =>
      cases hopen
      cases hhello
      simp [Endpoint.Accounts, endpoint, hqueue, hsent, helloMessage]

theorem select_accounts (haccounts : endpoint.Accounts log client)
    (hok : select order input client = .ok () final) :
    endpoint.Accounts (log ++ selectPushes order input client) final :=
  haccounts.select endpoint_lawful (fun _ => processMessage_pushed) hok

end BlockClient

namespace ClientRun

variable (order : ByteOrder)

/-- What the next call of `select` pushes. -/
def pushes (input : ClientInput) (run : ClientRun) : List Message :=
  match run.fault with
  | none =>
      if BlockClient.endpoint.Wakes input.ready run.client then
        BlockClient.selectPushes order input run.client
      else []
  | some _ => []

/-- The runs of `start`, with all that was pushed in them. -/
inductive Logged (client : BlockClient) : ClientRun → List Message → Prop
  | start (ephemeral : UInt16) (openError : Option String) :
      Logged client (start order ephemeral openError client)
        [BlockClient.helloMessage order client]
  | step {run : ClientRun} {log : List Message} (hrun : Logged client run log)
      (input : ClientInput) :
      Logged client (run.step order input) (log ++ run.pushes order input)

variable {order} {client : BlockClient} {run : ClientRun} {log : List Message}

theorem Logged.accounts (hrun : Logged order client run log)
    (hqueue : client.messageQueue = []) (hsent : client.socket.sent = [])
    (hfault : run.fault = none) :
    BlockClient.endpoint.Accounts log run.client := by
  induction hrun with
  | start ephemeral openError =>
      unfold ClientRun.start at hfault ⊢
      cases hok : BlockClient.start order ephemeral openError client with
      | ok value final => exact BlockClient.start_accounts hqueue hsent hok
      | error fault final =>
          rw [hok] at hfault
          contradiction
  | @step run log hrun input ih =>
      unfold ClientRun.step at hfault ⊢
      unfold ClientRun.pushes
      cases hbefore : run.fault with
      | some fault =>
          simp only [hbefore] at hfault
          contradiction
      | none =>
          simp only [hbefore] at hfault ⊢
          split_ifs at hfault ⊢ with hwakes
          · cases hok : BlockClient.select order input run.client with
            | ok value final => exact BlockClient.select_accounts (ih hbefore) hok
            | error fault final =>
                rw [hok] at hfault
                contradiction
          · rw [List.append_nil]
            exact ih hbefore

end ClientRun

/-- What was pushed in a run of the server was sent or is queued, in this order, and no
next call of `select` takes the front of an empty queue. -/
structure ServerRun.QueueKept (order : ByteOrder) (server : BlockServer)
    (run : ServerRun) : Prop where
  logged : ∃ log, Logged order server run log
  accounts : ∀ log, Logged order server run log →
    BlockServer.endpoint.Accounts log run.server
  fronts : ∀ input, BlockServer.endpoint.FrontSafe
    (BlockServer.processMessage order input) run.server

structure ClientRun.QueueKept (order : ByteOrder) (client : BlockClient)
    (run : ClientRun) : Prop where
  logged : ∃ log, Logged order client run log
  accounts : ∀ log, Logged order client run log →
    BlockClient.endpoint.Accounts log run.client
  fronts : ∀ input, BlockClient.endpoint.FrontSafe
    (BlockClient.processMessage order input) run.client

theorem ServerRun.Reachable.logged {order : ByteOrder} {server : BlockServer}
    {run : ServerRun} (hrun : Reachable order server run) :
    ∃ log, Logged order server run log := by
  induction hrun with
  | start ephemeral openError input => exact ⟨_, .start ephemeral openError input⟩
  | step hrun input ih =>
      obtain ⟨log, hlogged⟩ := ih
      exact ⟨_, hlogged.step input⟩

theorem ClientRun.Reachable.logged {order : ByteOrder} {client : BlockClient}
    {run : ClientRun} (hrun : Reachable order client run) :
    ∃ log, Logged order client run log := by
  induction hrun with
  | start ephemeral openError => exact ⟨_, .start ephemeral openError⟩
  | step hrun input ih =>
      obtain ⟨log, hlogged⟩ := ih
      exact ⟨_, hlogged.step input⟩

/-- At both ends, in every run of `start` that has not thrown, the queue loses, repeats
and reorders nothing. -/
theorem sendQueues_kept (order : ByteOrder) :
    (∀ md5 opened measured path group port id run phase,
      ServerRun.Reachable order
          (BlockServer.create order md5 opened measured path group port id) run →
        run.phase = .ok phase →
          run.QueueKept order
            (BlockServer.create order md5 opened measured path group port id)) ∧
    ∀ group port pid id files run,
      ClientRun.Reachable order (BlockClient.create order group port pid id files) run →
        run.fault = none →
          run.QueueKept order (BlockClient.create order group port pid id files) := by
  constructor
  · intro md5 opened measured path group port id run phase hrun hphase
    refine ⟨hrun.logged, fun log hlogged => hlogged.accounts rfl rfl hphase, ?_⟩
    exact fun input => Endpoint.frontSafe_of_pushed fun mid hok =>
      ⟨_, BlockServer.processMessage_pushed hok⟩
  · intro group port pid id files run hrun hfault
    refine ⟨hrun.logged, fun log hlogged => hlogged.accounts rfl rfl hfault, ?_⟩
    exact fun input => Endpoint.frontSafe_of_pushed fun mid hok =>
      ⟨_, BlockClient.processMessage_pushed hok⟩

/-- A server of three bytes that was asked for its announcement three times, and could
send once. -/
def pressedServer : ServerRun :=
  (ServerRun.start .little 40000 none requestInput
    (BlockServer.create .little (fun _ => zeroDigest) (some [1, 2, 3])
      (some (.regular [1, 2, 3])) [97] 0 9000 9)).steps .little
    [requestInput, requestInput, { requestInput with ready := .ok ⟨true, true⟩ }]

/-- A client that has answered the goodbye for a file, and then could send once. -/
def answeringClient : ClientRun :=
  sampleStart.steps .little
    (timelyInputs ++ [{ namedInput 119 offeredInfo with ready := .ok ⟨true, true⟩ }])

/-- Four messages of the server and one of the client are still queued. -/
theorem pressedServer_queueKept :
    (pressedServer.server.messageQueue.length = 4 ∧
      pressedServer.server.socket.sent.length = 1 ∧
        pressedServer.QueueKept .little
          (BlockServer.create .little (fun _ => zeroDigest) (some [1, 2, 3])
            (some (.regular [1, 2, 3])) [97] 0 9000 9)) ∧
    answeringClient.client.messageQueue.length = 1 ∧
      answeringClient.client.socket.sent.length = 1 ∧
        answeringClient.QueueKept .little
          (BlockClient.create .little 0 0 7 5 FileStore.empty) := by
  have hphase : pressedServer.phase = .ok .draining := by decide +kernel
  have hserver : ServerRun.Reachable .little
      (BlockServer.create .little (fun _ => zeroDigest) (some [1, 2, 3])
        (some (.regular [1, 2, 3])) [97] 0 9000 9) pressedServer :=
    (ServerRun.Reachable.start 40000 none requestInput).steps _
  have hfault : answeringClient.fault = none := by decide +kernel
  have hclient : ClientRun.Reachable .little
      (BlockClient.create .little 0 0 7 5 FileStore.empty) answeringClient :=
    (ClientRun.Reachable.start 0 none).steps _
  refine ⟨⟨by decide +kernel, by decide +kernel, ?_⟩, by decide +kernel, by decide +kernel, ?_⟩
  · exact (sendQueues_kept .little).1 _ _ _ _ _ _ _ _ _ hserver hphase
  · exact (sendQueues_kept .little).2 _ _ _ _ _ _ hclient hfault

end Multisync
