import Multisync.BlockWrites
import Multisync.TransferRefinement
import Mathlib.Tactic

/-!
# How a handler ends

Every handler first brings the record of its file up to date, and then asks whether
the transfer is complete.  The goodbye of the server makes it ask twice, before the
loop over the list and after it.
-/

namespace Multisync

open ByteLayout Effects

namespace Message

variable (order : ByteOrder)

/-- The path that the message announces, if it announces one. -/
def announced? (message : Message) : Option Bytes :=
  if message.getType order = MessageType.info.code then
    (message.getText order).toOption
  else none

/-- The list of the message, as the loop over it reads it. -/
def list (message : Message) : Extent :=
  ⟨message.getOffset order, (message.getLength order).toNat / 4 * 4⟩

/-- The loop over the list reads the word. -/
def Lists (message : Message) (word : UInt32) : Prop :=
  ∃ i < (message.getLength order).toNat / 4,
    message.arrayElement order (message.list order) i = .ok word

end Message

/-- The record after its output was closed. -/
def SyncStatus.closed (outcome : PublishOutcome) (status : SyncStatus) : SyncStatus :=
  { status with output := status.output.close outcome.closed }

/-- The record after `n` entries of a list were answered. -/
def SyncStatus.acknowledged (n : ℕ) (status : SyncStatus) : SyncStatus :=
  { status with goodbyeReceived := status.goodbyeReceived || decide (0 < n) }

/-- The handler of the message finds the transfer complete: it asks, and the blocks and
the path are there. -/
def SyncStatus.FoundComplete (order : ByteOrder) (message : Message)
    (status : SyncStatus) : Prop :=
  status.Complete ∧
    (message.getType order = MessageType.sgoodbye.code ∨ status.goodbyeReceived = true)

namespace BlockClient

section Definitions

variable (order : ByteOrder) (env : Environment) (message : Message)
  (address : Address) (info : FileInfo)

/-- The handler up to its first question whether the transfer is complete. -/
def prepare : EStateM Fault BlockClient Unit := do
  getSyncStatus order env info address
  if message.getType order = MessageType.info.code then
    let text ← ofResult (message.getText order)
    onStatus info (SyncStatus.setPath text)
  else if message.getType order = MessageType.block.code then
    let block ← ofResult (message.getMetadata order BlockInfo)
    onStatus info
      (SyncStatus.writeBlock order env (block.getBlock order).toNat message)

/-- The handler from that question on. -/
def conclude : EStateM Fault BlockClient Unit := do
  if message.getType order = MessageType.sgoodbye.code then
    if ← onStatus info (SyncStatus.transferComplete env.first) then
      let clients ← ofResult (message.arrayExtent order 4)
      (List.range (clients.length / 4)).forM
        (answerClient order info message clients)
    finish info env.second
  else finish info env.first

end Definitions

variable {order : ByteOrder} {env : Environment} {message : Message}
  {address : Address} {info : FileInfo} {client mid final : BlockClient}
  {status : SyncStatus}

/-- The handler of a message about a file. -/
theorem handle_eq (hinfo : message.fileInfo? order = some info) :
    handle order env message address client =
      (prepare order env message address info >>= fun _ =>
        conclude order env message info) client := by
  unfold prepare conclude
  rcases Message.fileInfo?_cases hinfo with
    ⟨htype, hmetadata⟩ | ⟨htype, block, hmetadata, rfl⟩ | ⟨htype, hmetadata⟩
  · rw [handle_of_info htype hmetadata]
    simp [htype]
  · rw [handle_of_block htype hmetadata, hmetadata]
    simp only [htype, MessageType.code_inj, reduceCtorEq, if_false, if_true, bind_assoc]
    rfl
  · rw [handle_of_sgoodbye htype hmetadata]
    simp [htype]

/-! ## The record found or made -/

/-- The client with the record of the file, found or made. -/
inductive Holding (order : ByteOrder) (env : Environment) (info : FileInfo)
    (address : Address) (client : BlockClient) : SyncStatus → BlockClient → Prop
  | found {status : SyncStatus} (hfind : client.syncSet.find? info = some status) :
      Holding order env info address client status client
  | made {status : SyncStatus} {files : FileStore Bytes}
      (hnone : client.syncSet.find? info = none)
      (hcreate : SyncStatus.create order env info address client.files =
        .ok (status, files)) :
      Holding order env info address client status (client.created info status files)

theorem Holding.find? (hholding : Holding order env info address client status mid) :
    mid.syncSet.find? info = some status := by
  cases hholding with
  | found hfind => exact hfind
  | made hnone _ => exact OrderedMap.find?_insert_self _ hnone

theorem Holding.same (hholding : Holding order env info address client status mid) :
    mid.messageQueue = client.messageQueue ∧ mid.id = client.id := by
  cases hholding with
  | found _ => exact ⟨rfl, rfl⟩
  | made _ _ => exact ⟨rfl, rfl⟩

theorem Holding.getSyncStatus
    (hholding : Holding order env info address client status mid) :
    getSyncStatus order env info address client = .ok () mid := by
  rw [getSyncStatus_apply]
  cases hholding with
  | found hfind => rw [hfind]
  | made hnone hcreate => rw [hnone, hcreate]

theorem Holding.of_getSyncStatus
    (hok : BlockClient.getSyncStatus order env info address client = .ok () mid) :
    ∃ status, Holding order env info address client status mid := by
  rcases getSyncStatus_eq_ok hok with ⟨status, hfind, rfl⟩ | ⟨status, files, hnone, hcreate, rfl⟩
  · exact ⟨status, .found hfind⟩
  · exact ⟨status, .made hnone hcreate⟩

/-! ## The record brought up to date -/

/-- What a message does to the record of its file before the first question. -/
inductive Works (order : ByteOrder) (env : Environment) (message : Message)
    (state : StatusState) : StatusState → Prop
  | announced {text : Bytes} (htype : message.getType order = MessageType.info.code)
      (htext : message.getText order = .ok text) :
      Works order env message state (endState (SyncStatus.setPath text state))
  | wrote {block : BlockInfo} (htype : message.getType order = MessageType.block.code)
      (hblock : message.getMetadata order BlockInfo = .ok block) :
      Works order env message state (endState (SyncStatus.writeBlock order env
        (block.getBlock order).toNat message state))

/-- The client when the first question is asked, or when an exception keeps it from
being asked. -/
inductive Prepared (order : ByteOrder) (env : Environment) (message : Message)
    (address : Address) (info : FileInfo) (client : BlockClient) : BlockClient → Prop
  | refused (hnone : client.syncSet.find? info = none) (hnul : 0 ∉ info.digest) :
      Prepared order env message address info client client
  | held {status : SyncStatus} {mid : BlockClient}
      (hholding : Holding order env info address client status mid)
      (hsilent : message.announced? order = none) :
      Prepared order env message address info client mid
  | worked {status : SyncStatus} {mid : BlockClient} {state : StatusState}
      (hholding : Holding order env info address client status mid)
      (hworks : Works order env message ⟨status, mid.files, []⟩ state) :
      Prepared order env message address info client (mid.putStatus info state)

theorem endState_onStatus {α : Type} {program : EStateM Fault StatusState α}
    (hfind : client.syncSet.find? info = some status) :
    endState (onStatus info program client) =
      client.putStatus info (endState (program ⟨status, client.files, []⟩)) := by
  rw [onStatus_of_find? hfind]
  cases program ⟨status, client.files, []⟩ with
  | ok value state => rfl
  | error fault state => rfl

theorem prepared (order : ByteOrder) (env : Environment) (message : Message)
    (address : Address) (info : FileInfo) (client : BlockClient) :
    Prepared order env message address info client
      (endState (prepare order env message address info client)) := by
  unfold prepare
  cases hget : BlockClient.getSyncStatus order env info address client with
  | error fault mid =>
      rw [bind_of_error hget, endState_error]
      obtain ⟨rfl, hnone, hnul⟩ := getSyncStatus_eq_error hget
      exact .refused hnone hnul
  | ok value mid =>
      obtain ⟨status, hholding⟩ := Holding.of_getSyncStatus hget
      rw [bind_of_ok hget]
      split_ifs with hinfo hblock
      · cases htext : message.getText order with
        | error fault =>
            refine .held hholding ?_
            rw [Message.announced?, if_pos hinfo, htext]
            rfl
        | ok text =>
            rw [ofResult_bind_of_ok rfl, endState_onStatus hholding.find?]
            exact .worked hholding (.announced hinfo htext)
      · cases hmetadata : message.getMetadata order BlockInfo with
        | error fault => exact .held hholding (if_neg hinfo)
        | ok block =>
            rw [ofResult_bind_of_ok rfl, endState_onStatus hholding.find?]
            exact .worked hholding (.wrote hblock hmetadata)
      · exact .held hholding (if_neg hinfo)

/-! ## The questions and the answers -/

/-- The client after the answer yes to a question about the record of the file. -/
def publish (outcome : PublishOutcome) (info : FileInfo) (status : SyncStatus)
    (client : BlockClient) : BlockClient :=
  client.putStatus info (SyncStatus.published outcome ⟨status, client.files, []⟩)

/-- The client after it has answered `n` entries of a list. -/
def acknowledge (order : ByteOrder) (info : FileInfo) (status : SyncStatus) (n : ℕ)
    (client : BlockClient) : BlockClient :=
  { client with
    syncSet := client.syncSet.replace info (status.acknowledged n)
    messageQueue := client.messageQueue ++
      List.replicate n (Message.bare order client.id MessageType.cgoodbye.code)
    trace := client.trace ++
      List.replicate n (ClientEvent.answered info status.serverAddress) }

theorem publish_trace (outcome : PublishOutcome) (info : FileInfo) (status : SyncStatus)
    (client : BlockClient) :
    (client.publish outcome info status).trace = client.trace ++
      (SyncStatus.published outcome ⟨status, client.files, []⟩).publications.map
        (ClientEvent.published info) := rfl

theorem find?_publish (hfind : client.syncSet.find? info = some status)
    (outcome : PublishOutcome) :
    (client.publish outcome info status).syncSet.find? info =
      some (status.closed outcome) := by
  have hstatus : (SyncStatus.published outcome ⟨status, client.files, []⟩).status =
      status.closed outcome := SyncStatus.renameTemp_status _ _
  rw [publish, find?_putStatus_self hfind, hstatus]

theorem find?_acknowledge (hfind : client.syncSet.find? info = some status) (n : ℕ) :
    (client.acknowledge order info status n).syncSet.find? info =
      some (status.acknowledged n) :=
  OrderedMap.find?_replace_self _ hfind

theorem acknowledge_zero (hfind : client.syncSet.find? info = some status) :
    client.acknowledge order info status 0 = client := by
  simp [acknowledge, SyncStatus.acknowledged, OrderedMap.replace_of_find? hfind]

/-- One more answer. -/
theorem answer_acknowledge (hfind : client.syncSet.find? info = some status) (n : ℕ) :
    (onStatus info SyncStatus.setGoodbyeReceived >>= fun _ =>
      modify (answered order info)) (client.acknowledge order info status n) =
        .ok () (client.acknowledge order info status (n + 1)) := by
  have hset : SyncStatus.setGoodbyeReceived
      ⟨status.acknowledged n, (client.acknowledge order info status n).files, []⟩ =
        .ok () ⟨status.acknowledged (n + 1), client.files, []⟩ := by
    simp [SyncStatus.setGoodbyeReceived, SyncStatus.acknowledged, acknowledge]
  rw [bind_of_ok (onStatus_ok (find?_acknowledge hfind n) hset), modify_apply]
  have hfind' : (client.syncSet.replace info (status.acknowledged (n + 1))).find? info =
      some (status.acknowledged (n + 1)) := OrderedMap.find?_replace_self _ hfind
  have haddress : (status.acknowledged (n + 1)).serverAddress = status.serverAddress := rfl
  simp [answered, putStatus, acknowledge, OrderedMap.replace_replace, hfind', haddress,
    List.replicate_succ']

/-- The loop over the list answers each entry it reads that is the id; it throws only
when it cannot read one. -/
theorem answerClients_triple (hfind : client.syncSet.find? info = some status) :
    Triple (fun current => current = client)
      ((List.range ((message.getLength order).toNat / 4)).forM
        (answerClient order info message (message.list order)))
      (fun _ current => current = client.acknowledge order info status
        (message.named order client.id))
      fun _ current =>
        (∃ i < (message.getLength order).toNat / 4, ∃ fault,
          message.arrayElement order (message.list order) i = .error fault) ∧
        ∃ n, (0 < n → message.Lists order client.id) ∧
          current = client.acknowledge order info status n := by
  let named : ℕ → Bool := fun i =>
    (message.arrayElement order (message.list order) i).toOption = some client.id
  have hloop : Triple (fun current => current = client.acknowledge order info status
        (([] : List ℕ).countP named))
      ((List.range ((message.getLength order).toNat / 4)).forM
        (answerClient order info message (message.list order)))
      (fun _ current => current = client.acknowledge order info status
        ((List.range ((message.getLength order).toNat / 4)).countP named))
      fun _ current =>
        (∃ i < (message.getLength order).toNat / 4, ∃ fault,
          message.arrayElement order (message.list order) i = .error fault) ∧
        ∃ n, (0 < n → message.Lists order client.id) ∧
          current = client.acknowledge order info status n := by
    refine @Triple.forM _ _ _ _ (fun done current =>
      current = client.acknowledge order info status (done.countP named)) _ _ ?_
    intro done i rest hsplit
    have hlt : ∀ k ∈ done ++ [i], k < (message.getLength order).toNat / 4 := by
      intro k hk
      rw [← List.mem_range, hsplit]
      rcases List.mem_append.mp hk with hold | hnew
      · exact List.mem_append_left _ hold
      · rw [List.mem_singleton.mp hnew]
        simp
    refine Triple.ofResult_bind (fun word hword => ?_) fun fault herror => ?_
    · rintro current rfl
      have hnamed : named i = decide (word = client.id) := by
        simp [named, hword, Except.toOption]
      have hid : (client.acknowledge order info status (done.countP named)).id =
          client.id := rfl
      simp only [bind_apply, get_apply, hid]
      by_cases heq : word = client.id
      · rw [if_pos heq]
        have hcount : (done ++ [i]).countP named = done.countP named + 1 := by
          simp [List.countP_append, hnamed, heq]
        rw [hcount]
        have hanswer := @answer_acknowledge order info client status hfind
          (done.countP named)
        exact hanswer ▸ rfl
      · rw [if_neg heq]
        simp [List.countP_append, hnamed, heq]
    · rintro current rfl
      refine ⟨⟨i, hlt i (by simp), fault, herror⟩, _, fun hpos => ?_, rfl⟩
      obtain ⟨k, hk, hword⟩ := List.countP_pos_iff.mp hpos
      exact ⟨k, hlt k (List.mem_append_left _ hk),
        eq_ok_of_toOption (of_decide_eq_true hword)⟩
  intro current hcurrent
  exact hloop current (hcurrent.trans (acknowledge_zero hfind).symm)

theorem lists_of_named {word : UInt32} (hpos : 0 < message.named order word) :
    message.Lists order word := by
  obtain ⟨i, hi, hword⟩ := List.countP_pos_iff.mp hpos
  exact ⟨i, List.mem_range.mp hi, eq_ok_of_toOption (of_decide_eq_true hword)⟩

/-- What the rest of the handler does, from the record it asks about. -/
inductive Concluded (order : ByteOrder) (env : Environment) (message : Message)
    (info : FileInfo) (status : SyncStatus) (client : BlockClient) : BlockClient → Prop
  | idle (hidle : ¬ status.FoundComplete order message) :
      Concluded order env message info status client client
  | finished (hother : message.getType order ≠ MessageType.sgoodbye.code)
      (hfinished : status.Finished) :
      Concluded order env message info status client
        ((client.publish env.first info status).erased info)
  | answered (hgoodbye : message.getType order = MessageType.sgoodbye.code)
      (hcomplete : status.Complete) (n : ℕ)
      (hnamed : 0 < n → message.Lists order client.id) :
      Concluded order env message info status client
        ((client.publish env.first info status).acknowledge order info
          (status.closed env.first) n)
  | ended (hgoodbye : message.getType order = MessageType.sgoodbye.code)
      (hcomplete : status.Complete) (n : ℕ)
      (hnamed : 0 < n → message.Lists order client.id)
      (hflag : status.goodbyeReceived = true ∨ 0 < n) :
      Concluded order env message info status client
        ((((client.publish env.first info status).acknowledge order info
          (status.closed env.first) n).publish env.second info
            ((status.closed env.first).acknowledged n)).erased info)

theorem finish_of_finished {outcome : PublishOutcome}
    (hfind : client.syncSet.find? info = some status) (hfinished : status.Finished) :
    finish info outcome client = .ok () ((client.publish outcome info status).erased info) := by
  have hok : onStatus info (SyncStatus.syncComplete outcome) client =
      .ok true (client.publish outcome info status) :=
    onStatus_ok hfind ((SyncStatus.syncComplete_apply).trans (if_pos hfinished))
  rw [finish, bind_of_ok hok]
  rfl

theorem arrayExtent_eq_ok {clients : Extent}
    (hok : message.arrayExtent order 4 = .ok clients) :
    clients = message.list order ∧
      clients.length / 4 = (message.getLength order).toNat / 4 := by
  unfold Message.arrayExtent at hok
  split_ifs at hok
  cases hok
  exact ⟨rfl, Nat.mul_div_cancel _ (Nat.succ_pos 3)⟩

/-- The rest of the handler of a goodbye, when the transfer is complete. -/
theorem conclude_goodbye (hfind : client.syncSet.find? info = some status)
    (hgoodbye : message.getType order = MessageType.sgoodbye.code)
    (hcomplete : status.Complete) :
    conclude order env message info client =
      (ofResult (message.arrayExtent order 4) >>= fun clients =>
        (List.range (clients.length / 4)).forM
          (answerClient order info message clients) >>= fun _ =>
            finish info env.second) (client.publish env.first info status) := by
  rw [conclude, if_pos hgoodbye,
    bind_of_ok (transferComplete_of_complete hfind hcomplete)]
  rfl

/-- The client after it has answered the whole list. -/
def answerList (order : ByteOrder) (env : Environment) (message : Message)
    (info : FileInfo) (status : SyncStatus) (client : BlockClient) : BlockClient :=
  (client.publish env.first info status).acknowledge order info (status.closed env.first)
    (message.named order client.id)

/-- When the list lies in the message, the goodbye is answered as often as the list
names the client, and the record is given up if its flag is set then. -/
theorem conclude_goodbye_ok (hfind : client.syncSet.find? info = some status)
    (hgoodbye : message.getType order = MessageType.sgoodbye.code)
    (hcomplete : status.Complete) (hmod : (message.getLength order).toNat % 4 = 0)
    (hinside : message.getOffset order + (message.getLength order).toNat ≤
      message.capacity) :
    conclude order env message info client =
      .ok () (if status.goodbyeReceived = true ∨ 0 < message.named order client.id then
          ((client.answerList order env message info status).publish env.second info
            ((status.closed env.first).acknowledged
              (message.named order client.id))).erased info
        else client.answerList order env message info status) := by
  have hfind' := find?_publish hfind env.first
  have hclients : message.arrayExtent order 4 = .ok (message.list order) := by
    rw [Message.arrayExtent, if_neg (not_not.mpr hmod)]
    rfl
  obtain ⟨_, hlength⟩ := arrayExtent_eq_ok hclients
  have hfinal := @find?_acknowledge order info _ _ hfind' (message.named order client.id)
  have hflag : (SyncStatus.acknowledged (message.named order client.id)
      (status.closed env.first)).Finished ↔
        status.goodbyeReceived = true ∨ 0 < message.named order client.id := by
    simpa [SyncStatus.Finished, SyncStatus.acknowledged, SyncStatus.closed,
      SyncStatus.Complete] using fun _ => hcomplete
  have hrun := @answerClients_triple order message info _ _ hfind' _ rfl
  rw [conclude_goodbye hfind hgoodbye hcomplete, ofResult_bind_of_ok hclients, hlength]
  cases hresult : (List.range ((message.getLength order).toNat / 4)).forM
      (answerClient order info message (message.list order))
        (client.publish env.first info status) with
  | error fault current =>
      rw [hresult] at hrun
      obtain ⟨⟨i, hi, fault', herror⟩, _⟩ := hrun
      rw [Message.arrayElement, Message.fetch,
        if_pos (by simp only [Message.list]; omega)] at herror
      contradiction
  | ok value current =>
      rw [hresult] at hrun
      change current = client.answerList order env message info status at hrun
      rw [bind_of_ok hresult, hrun]
      split_ifs with hanswered
      · exact finish_of_finished hfinal (hflag.mpr hanswered)
      · exact finish_of_not hfinal fun h => hanswered (hflag.mp h)

theorem concluded_goodbye (hfind : client.syncSet.find? info = some status)
    (hgoodbye : message.getType order = MessageType.sgoodbye.code)
    (hcomplete : status.Complete) :
    Concluded order env message info status client
      (endState (conclude order env message info client)) := by
  have hfind' := find?_publish hfind env.first
  have hzero := @acknowledge_zero order info _ _ hfind'
  rw [conclude_goodbye hfind hgoodbye hcomplete]
  cases hclients : message.arrayExtent order 4 with
  | error fault =>
      have hanswered := @Concluded.answered order env message info status client hgoodbye
        hcomplete 0 (fun h => absurd h (lt_irrefl 0))
      rw [hzero] at hanswered
      exact hanswered
  | ok clients =>
      obtain ⟨rfl, hlength⟩ := arrayExtent_eq_ok hclients
      have hloop := @answerClients_triple order message info _ _ hfind'
      have hrun := hloop _ rfl
      rw [ofResult_bind_of_ok rfl, hlength]
      cases hresult : (List.range ((message.getLength order).toNat / 4)).forM
          (answerClient order info message (message.list order))
            (client.publish env.first info status) with
      | error fault answered =>
          rw [hresult] at hrun
          obtain ⟨_, n, hnamed, rfl⟩ := hrun
          rw [bind_of_error hresult]
          exact .answered hgoodbye hcomplete n hnamed
      | ok value answered =>
          rw [hresult] at hrun
          change answered = (client.publish env.first info status).acknowledge order info
            (status.closed env.first) (message.named order client.id) at hrun
          have hfinal := @find?_acknowledge order info _ _ hfind'
            (message.named order client.id)
          rw [bind_of_ok hresult, hrun]
          by_cases hfinished : (SyncStatus.acknowledged (message.named order client.id)
              (status.closed env.first)).Finished
          · rw [finish_of_finished hfinal hfinished]
            refine .ended hgoodbye hcomplete _ lists_of_named ?_
            simpa [SyncStatus.acknowledged, SyncStatus.closed] using hfinished.1
          · rw [finish_of_not hfinal hfinished]
            exact .answered hgoodbye hcomplete _ lists_of_named

theorem concluded (hfind : client.syncSet.find? info = some status) :
    Concluded order env message info status client
      (endState (conclude order env message info client)) := by
  by_cases hgoodbye : message.getType order = MessageType.sgoodbye.code
  · by_cases hcomplete : status.Complete
    · exact concluded_goodbye hfind hgoodbye hcomplete
    · have hnot : ¬ status.Finished := fun h => hcomplete h.2
      rw [conclude, if_pos hgoodbye, bind_of_ok (transferComplete_of_not hfind hcomplete)]
      simp only [Bool.false_eq_true, if_false]
      rw [finish_of_not hfind hnot]
      exact .idle fun h => hcomplete h.1
  · rw [conclude, if_neg hgoodbye]
    by_cases hfinished : status.Finished
    · rw [finish_of_finished hfind hfinished]
      exact .finished hgoodbye hfinished
    · rw [finish_of_not hfind hfinished]
      exact .idle fun h => hfinished ⟨h.2.resolve_left hgoodbye, h.1⟩

/-- The first question finds a record. -/
theorem find?_of_prepare
    (hok : prepare order env message address info client = .ok () mid) :
    ∃ status, mid.syncSet.find? info = some status := by
  obtain ⟨_, held, hget, hrest⟩ := bind_eq_ok hok
  obtain ⟨status, hholding⟩ := Holding.of_getSyncStatus hget
  have hrecord : ∀ {α : Type} (program : EStateM Fault StatusState α) (value : α),
      onStatus info program held = .ok value mid →
        ∃ status, mid.syncSet.find? info = some status := by
    intro α program value hrun
    have hend := @endState_onStatus info held status _ program hholding.find?
    rw [hrun, endState_ok] at hend
    rw [hend]
    exact ⟨_, find?_putStatus_self hholding.find? _⟩
  split_ifs at hrest
  · obtain ⟨text, _, hrun⟩ := ofResult_bind_eq_ok hrest
    exact hrecord _ _ hrun
  · obtain ⟨block, _, hrun⟩ := ofResult_bind_eq_ok hrest
    exact hrecord _ _ hrun
  · cases hrest
    exact ⟨status, hholding.find?⟩

/-- What the handler of a message about a file does: it prepares the record, and then,
unless an exception keeps it from asking, concludes. -/
theorem handle_outcome (hinfo : message.fileInfo? order = some info) :
    endState (handle order env message address client) =
        endState (prepare order env message address info client) ∨
      ∃ mid status, prepare order env message address info client = .ok () mid ∧
        mid.syncSet.find? info = some status ∧
          Concluded order env message info status mid
            (endState (handle order env message address client)) := by
  rw [handle_eq hinfo]
  cases hprepare : prepare order env message address info client with
  | error fault mid =>
      rw [bind_of_error hprepare]
      exact Or.inl rfl
  | ok value mid =>
      rw [bind_of_ok hprepare]
      obtain ⟨status, hfind⟩ := find?_of_prepare hprepare
      exact Or.inr ⟨mid, status, rfl, hfind, concluded hfind⟩

/-- What making the record brings about, and bringing it up to date and concluding keep,
holds after the handler. -/
theorem handle_triple_of_stages {P Q : BlockClient → Prop}
    (hweak : ∀ client, P client → Q client)
    (hmade : ∀ info client status files, message.fileInfo? order = some info → P client →
      client.syncSet.find? info = none →
      SyncStatus.create order env info address client.files = .ok (status, files) →
        Q (client.created info status files))
    (hworked : ∀ info client status state, message.fileInfo? order = some info → Q client →
      client.syncSet.find? info = some status →
      Works order env message ⟨status, client.files, []⟩ state →
        Q (client.putStatus info state))
    (hconcluded : ∀ info client status final, message.fileInfo? order = some info →
      Q client → client.syncSet.find? info = some status →
      Concluded order env message info status client final → Q final) :
    Triple P (handle order env message address) (fun _ => Q) fun _ => Q := by
  apply triple_of_endState
  intro client hclient
  cases hinfo : message.fileInfo? order with
  | none =>
      rw [handle_of_none hinfo]
      exact hweak client hclient
  | some info =>
      have hheld : ∀ {status mid}, Holding order env info address client status mid → Q mid := by
        intro status mid hholding
        cases hholding with
        | found _ => exact hweak client hclient
        | made hnone hcreate => exact hmade info client _ _ hinfo hclient hnone hcreate
      have hstage : ∀ mid, Prepared order env message address info client mid → Q mid := by
        intro mid hprepared
        cases hprepared with
        | refused _ _ => exact hweak client hclient
        | held hholding _ => exact hheld hholding
        | worked hholding hworks =>
            exact hworked info _ _ _ hinfo (hheld hholding) hholding.find? hworks
      have hprepared := hstage _ (prepared order env message address info client)
      rcases @handle_outcome order env message address info client hinfo with
        hstopped | ⟨mid, status, hprepare, hfind, hconcludes⟩
      · rw [hstopped]
        exact hprepared
      · rw [hprepare] at hprepared
        exact hconcluded info mid status _ hinfo hprepared hfind hconcludes

/-! ## Frames -/

/-- The record of the file is the same, and nothing is noted about the file. -/
structure RecordKept (info : FileInfo) (before after : BlockClient) : Prop where
  record : after.syncSet.find? info = before.syncSet.find? info
  trace : ∃ events, after.trace = before.trace ++ events ∧
    ∀ event ∈ events, event.info ≠ info

theorem RecordKept.extend {before after after' : BlockClient}
    (hkept : RecordKept info before after)
    (hrecord : after'.syncSet.find? info = after.syncSet.find? info)
    {events : List ClientEvent} (htrace : after'.trace = after.trace ++ events)
    (hevents : ∀ event ∈ events, event.info ≠ info) : RecordKept info before after' := by
  obtain ⟨earlier, hearlier, hothers⟩ := hkept.trace
  refine ⟨hrecord.trans hkept.record, earlier ++ events, ?_, fun event hevent => ?_⟩
  · rw [htrace, hearlier, List.append_assoc]
  · exact (List.mem_append.mp hevent).elim (hothers event) (hevents event)

theorem handle_recordKept {other : FileInfo}
    (hother : message.fileInfo? order ≠ some other) (client : BlockClient) :
    RecordKept other client (endState (handle order env message address client)) := by
  have hne : ∀ {info}, message.fileInfo? order = some info → other ≠ info := by
    rintro info hinfo rfl
    exact hother hinfo
  have hhandle : Keeps (RecordKept other client) (RecordKept other client)
      (handle order env message address) := by
    apply handle_steps
    · exact fun _ hclient => hclient
    · intro current info status files hclient hinfo _ _
      refine hclient.extend (OrderedMap.find?_insert_ne (hne hinfo) _ _) rfl ?_
      simpa [ClientEvent.info] using (hne hinfo).symm
    · intro current info status α program hclient hinfo _ _
      refine hclient.extend (OrderedMap.find?_replace_ne (hne hinfo) _ _) rfl ?_
      simpa [ClientEvent.info] using fun _ _ => (hne hinfo).symm
    · intro current info hclient hinfo
      refine hclient.extend rfl rfl ?_
      simpa [ClientEvent.info] using fun _ _ => (hne hinfo).symm
    · intro current info hclient hinfo
      refine hclient.extend (OrderedMap.find?_erase_ne (hne hinfo) _) rfl ?_
      simpa [ClientEvent.info] using (hne hinfo).symm
  exact hhandle.endState ⟨rfl, [], by simp, by simp⟩

theorem Works.keeps {state state' : StatusState}
    (hworks : Works order env message state state') :
    state'.status.goodbyeReceived = state.status.goodbyeReceived ∧
      state'.status.output.file = state.status.output.file ∧
      state'.publications = state.publications := by
  cases hworks with
  | announced _ _ => exact ⟨rfl, rfl, rfl⟩
  | @wrote block _ _ =>
      rw [SyncStatus.writeBlock_apply]
      split
      · exact ⟨rfl, rfl, rfl⟩
      · exact ⟨rfl, rfl, rfl⟩
      · split
        · exact ⟨rfl, OutStream.seekp_file _ _, rfl⟩
        · split
          · exact ⟨rfl, SyncStatus.wrote_file env _ _ _, rfl⟩
          · exact ⟨rfl, SyncStatus.wrote_file env _ _ _, rfl⟩

/-- The path is the one announced, or stays. -/
theorem Works.path {state state' : StatusState}
    (hworks : Works order env message state state') :
    state'.status.path = (message.announced? order).getD state.status.path := by
  cases hworks with
  | announced htype htext =>
      rw [Message.announced?, if_pos htype, htext]
      rfl
  | @wrote block htype hblock =>
      have hinfo : MessageType.block.code ≠ MessageType.info.code := by simp
      rw [Message.announced?, htype, if_neg hinfo]
      rcases (@RecordProgram.writeBlock order env message block htype hblock).recordStep state with
        ⟨_, hsame | ⟨hother, _⟩⟩
      · exact hsame
      · exact absurd (htype.symm.trans hother) hinfo

end BlockClient

end Multisync
