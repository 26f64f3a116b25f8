import Multisync.BlockAccounting
import Multisync.Goodbyes
import Mathlib.Tactic

/-!
# The answer to a goodbye

The list of a goodbye holds host ids as they are on the wire.  The handler compares
its words, unconverted, with the member `id`, and not with the host information that
the hello announced.
-/

namespace Multisync

open ByteLayout Effects

/-- Host ids as a host puts them into a message. -/
def hostList (sender : ByteOrder) (ids : List UInt32) : Bytes :=
  ids.flatMap fun id => Metadata.store sender (HostInfo.ofId sender id)

/-- On the wire an id is four bytes, most significant first. -/
theorem store_ofId (sender : ByteOrder) (id : UInt32) :
    Metadata.store sender (HostInfo.ofId sender id) = toBytes 4 id.toNat :=
  sender.store32_htonl id

theorem length_hostList (sender : ByteOrder) (ids : List UInt32) :
    (hostList sender ids).length = 4 * ids.length := by
  induction ids with
  | nil => rfl
  | cons id ids ih =>
      rw [hostList] at ih
      rw [hostList, List.flatMap_cons, List.length_append, ih, store_ofId, length_toBytes,
        List.length_cons]
      omega

/-- The words of the list are the ids in network order. -/
theorem load_window_hostList (order sender : ByteOrder) {ids : List UInt32} {i : ℕ}
    (hi : i < ids.length) :
    some (order.load32 (window (hostList sender ids) (4 * i) 4)) =
      (ids.map order.htonl)[i]? := by
  induction ids generalizing i with
  | nil => exact absurd hi (Nat.not_lt_zero i)
  | cons id ids ih =>
      have hsplit : hostList sender (id :: ids) =
          toBytes 4 id.toNat ++ hostList sender ids := by
        rw [hostList, List.flatMap_cons, store_ofId]
        rfl
      cases i with
      | zero =>
          have hword := window_append [] (toBytes 4 id.toNat) (hostList sender ids)
          rw [length_toBytes, List.length_nil, List.nil_append] at hword
          rw [hsplit, hword]
          rfl
      | succ i =>
          have hrest := window_append_right (toBytes 4 id.toNat) (hostList sender ids)
            (4 * i) 4
          rw [length_toBytes, Nat.add_comm, ← Nat.mul_succ] at hrest
          rw [hsplit, hrest, List.map_cons, List.getElem?_cons_succ]
          exact ih (Nat.lt_of_succ_lt_succ hi)

/-- The entries that are some word, counted by their positions. -/
theorem countP_getElem? {α : Type} [DecidableEq α] (word : α) (words : List α) :
    (List.range words.length).countP (fun i => words[i]? = some word) =
      words.count word := by
  induction words with
  | nil => rfl
  | cons head rest ih =>
      rw [List.length_cons, List.range_succ_eq_map, List.countP_cons, List.countP_map,
        List.count_cons, ← ih]
      simp [Function.comp_def]

/-- An accepted message with a list of host ids for payload. -/
structure Message.ListsHosts (order sender : ByteOrder) (ids : List UInt32)
    (message : Message) : Prop where
  framed : message.Framed order
  text : message.getText order = .ok (hostList sender ids)

namespace Message.ListsHosts

variable {order sender : ByteOrder} {ids : List UInt32} {message : Message}

theorem getLength (hlists : message.ListsHosts order sender ids)
    (hlt : message.buffer.length < 2 ^ 32) :
    (message.getLength order).toNat = 4 * ids.length ∧
      message.getOffset order + 4 * ids.length = message.buffer.length := by
  have hle := Message.getText_eq_ok order hlists.text
  have htext := hlists.text
  rw [Message.getText_eq order hle, Except.ok.injEq] at htext
  have hlength := congrArg List.length htext
  rw [List.length_drop, length_hostList] at hlength
  have hsub := hlists.framed.getLength_eq_sub hlt hle
  omega

/-- The words that the loop over the list reads. -/
theorem arrayElement (hlists : message.ListsHosts order sender ids)
    (hlt : message.buffer.length < 2 ^ 32) {i : ℕ} (hi : i < ids.length) :
    (message.arrayElement order (message.list order) i).toOption =
      (ids.map order.htonl)[i]? := by
  have hle := Message.getText_eq_ok order hlists.text
  have htext := hlists.text
  rw [Message.getText_eq order hle, Except.ok.injEq] at htext
  obtain ⟨_, hend⟩ := hlists.getLength hlt
  have hcapacity := message.length_le
  have hsplit : window (hostList sender ids) (4 * i) 4 =
      window message.buffer (message.getOffset order + 4 * i) 4 := by
    have hbefore := window_append_right (message.buffer.take (message.getOffset order))
      (message.buffer.drop (message.getOffset order)) (4 * i) 4
    rw [List.take_append_drop, List.length_take, Nat.min_eq_left hle] at hbefore
    rw [hbefore, htext]
  rw [← load_window_hostList order sender hi, hsplit, Message.arrayElement, Message.fetch,
    if_pos (by simp only [Message.list]; omega)]
  rfl

theorem named (hlists : message.ListsHosts order sender ids)
    (hlt : message.buffer.length < 2 ^ 32) (word : UInt32) :
    message.named order word = (ids.map order.htonl).count word := by
  obtain ⟨hlength, _⟩ := hlists.getLength hlt
  have hcount := countP_getElem? word (ids.map order.htonl)
  rw [List.length_map] at hcount
  rw [← hcount, Message.named, hlength, Nat.mul_div_cancel_left _ (by omega)]
  apply List.countP_congr
  intro i hi
  rw [← hlists.arrayElement hlt (List.mem_range.mp hi)]
  rfl

end Message.ListsHosts

namespace BlockClient

variable {order sender : ByteOrder} {env : Environment} {message : Message}
  {address : Address} {info : FileInfo} {client : BlockClient} {status : SyncStatus}
  {ids : List UInt32}

/-- The goodbye is answered once by a client whose process id is in the list, and not by
another. -/
def AnswersNamed (order : ByteOrder) (env : Environment) (message : Message)
    (address : Address) (pid : UInt32) (ids : List UInt32) (client : BlockClient) : Prop :=
  ∃ final, handle order env message address client = .ok () final ∧
    final.messageQueue = client.messageQueue ++
      List.replicate (if pid ∈ ids then 1 else 0)
        (Message.bare order client.id MessageType.cgoodbye.code)

theorem Holding.prepare_goodbye {mid : BlockClient}
    (hholding : Holding order env info address client status mid)
    (htype : message.getType order = MessageType.sgoodbye.code) :
    prepare order env message address info client = .ok () mid := by
  rw [prepare, bind_of_ok hholding.getSyncStatus]
  simp [htype]

/-- The goodbyes that the handler queues. -/
theorem handle_goodbye_queue (hlists : message.ListsHosts order sender ids)
    (hlt : message.buffer.length < 2 ^ 32)
    (htype : message.getType order = MessageType.sgoodbye.code)
    (hmetadata : message.getMetadata order FileInfo = .ok info)
    (hfind : client.syncSet.find? info = some status) (hcomplete : status.Complete) :
    ∃ final, handle order env message address client = .ok () final ∧
      final.messageQueue = client.messageQueue ++
        List.replicate ((ids.map order.htonl).count client.id)
          (Message.bare order client.id MessageType.cgoodbye.code) := by
  have hholding : Holding order env info address client status client := .found hfind
  obtain ⟨hlength, hend⟩ := hlists.getLength hlt
  have hcapacity := message.length_le
  have hconclude := @conclude_goodbye_ok order env message info client status hfind htype
    hcomplete (by omega) (by omega)
  rw [handle_eq (Message.fileInfo?_of_named (Or.inr htype) hmetadata),
    bind_of_ok (hholding.prepare_goodbye htype), hconclude]
  refine ⟨_, rfl, ?_⟩
  rw [← hlists.named hlt client.id]
  split_ifs
  · rfl
  · rfl

theorem id_of_reachable {group : UInt32} {port : UInt16} {pid id : UInt32}
    {files : FileStore Bytes} {run : ClientRun}
    (hrun : ClientRun.Reachable order (create order group port pid id files) run) :
    run.client.id = id :=
  hrun.keeps_of_handle (P := fun client => client.id = id) rfl
    (fun _ _ _ hclient => hclient) fun _ _ _ =>
      handle_keeps_of_records (fun _ hclient _ _ _ => hclient) fun _ hclient => hclient

/-- A goodbye is answered by the hosts that are named when the entries whose words are
the id member are those that name the client. -/
theorem answersNamed_iff {group : UInt32} {port : UInt16} {pid id : UInt32}
    {files : FileStore Bytes} {run : ClientRun} {datagram : Bytes}
    (hrun : ClientRun.Reachable order (create order group port pid id files) run)
    (hlists : (Message.received receiveReserve datagram).ListsHosts order sender ids)
    (htype : (Message.received receiveReserve datagram).getType order =
      MessageType.sgoodbye.code)
    (hmetadata : (Message.received receiveReserve datagram).getMetadata order FileInfo =
      .ok info)
    (hfind : run.client.syncSet.find? info = some status) (hcomplete : status.Complete) :
    run.client.AnswersNamed order env (Message.received receiveReserve datagram) address
        pid ids ↔
      (ids.map order.htonl).count id = if pid ∈ ids then 1 else 0 := by
  obtain ⟨final, hhandle, hqueue⟩ := @handle_goodbye_queue order sender env _ address info
    _ status ids hlists (Message.length_received_lt datagram) htype hmetadata hfind hcomplete
  rw [id_of_reachable hrun] at hqueue
  unfold AnswersNamed
  rw [hhandle]
  constructor
  · rintro ⟨final', hfinal, hanswer⟩
    cases hfinal
    rw [hqueue, id_of_reachable hrun, List.append_cancel_left_eq] at hanswer
    simpa using congrArg List.length hanswer
  · intro hcount
    refine ⟨final, rfl, ?_⟩
    rw [hqueue, hcount, id_of_reachable hrun]

end BlockClient

/-- A client with process id 7 that has an empty file complete. -/
def completeClient : ClientRun :=
  startedClient.step .little
    (readInput (Message.withText .little 9 MessageType.info.code emptyFile [97]))

/-- The goodbye of a big-endian server to the hosts 3 and 7. -/
def hostsGoodbye : Bytes :=
  (Message.withText .big 9 MessageType.sgoodbye.code emptyFile
    (hostList .big [3, 7])).buffer

theorem hostsGoodbye_listsHosts :
    (Message.received receiveReserve hostsGoodbye).ListsHosts .little .big [3, 7] := by
  constructor
  · decide +kernel
  · decide +kernel

theorem completeClient_record :
    ∃ status, completeClient.client.syncSet.find? emptyFile = some status ∧
      status.Complete := by
  have hsome : (completeClient.client.syncSet.find? emptyFile).map
      (fun status => decide status.Complete) = some true := by
    decide +kernel
  obtain ⟨status, hfind, hcomplete⟩ := Option.map_eq_some_iff.mp hsome
  exact ⟨status, hfind, of_decide_eq_true hcomplete⟩

theorem hostsGoodbye_answersNamed_iff :
    completeClient.client.AnswersNamed .little (Environment.plain [116] false)
        (Message.received receiveReserve hostsGoodbye) ⟨0, 0⟩ 7 [3, 7] ↔
      ([3, 7].map ByteOrder.little.htonl).count 5 = if (7 : UInt32) ∈ [3, 7] then 1 else 0 := by
  obtain ⟨status, hfind, hcomplete⟩ := completeClient_record
  exact BlockClient.answersNamed_iff (startedClient_reachable.step _)
    hostsGoodbye_listsHosts (by decide +kernel) (by decide +kernel) hfind hcomplete

/-- The list names the client, whose member `id` holds 5, and nothing is queued. -/
theorem hostsGoodbye_not_answersNamed :
    ClientRun.Reachable .little (BlockClient.create .little 0 9000 7 5 FileStore.empty)
      completeClient ∧
    (Message.received receiveReserve hostsGoodbye).ListsHosts .little .big [3, 7] ∧
    (Message.received receiveReserve hostsGoodbye).getType .little =
      MessageType.sgoodbye.code ∧
    (Message.received receiveReserve hostsGoodbye).getMetadata .little FileInfo =
      .ok emptyFile ∧
    (∃ status, completeClient.client.syncSet.find? emptyFile = some status ∧
      status.Complete) ∧
    ¬ completeClient.client.AnswersNamed .little (Environment.plain [116] false)
      (Message.received receiveReserve hostsGoodbye) ⟨0, 0⟩ 7 [3, 7] := by
  refine ⟨startedClient_reachable.step _, hostsGoodbye_listsHosts, by decide +kernel,
    by decide +kernel, completeClient_record, ?_⟩
  rintro ⟨final, hhandle, hqueue⟩
  have hlength : (endState (BlockClient.handle .little (Environment.plain [116] false)
      (Message.received receiveReserve hostsGoodbye) ⟨0, 0⟩
        completeClient.client)).messageQueue.length =
          completeClient.client.messageQueue.length := by
    decide +kernel
  rw [hhandle, endState_ok, hqueue] at hlength
  simp at hlength

end Multisync
