import Multisync.Completion
import Multisync.GoodbyeAnswers
import Mathlib.Tactic

/-!
# A goodbye that is repeated

The record of a file is given up in the step that answers its goodbye.  A further
goodbye meets no record then, and makes one, unless the file was offered once more.
-/

namespace Multisync

open ByteLayout Effects

/-- A goodbye for the file that the handler accepts: a list of words lies in it. -/
structure Message.AcceptedGoodbye (order : ByteOrder) (info : FileInfo)
    (message : Message) : Prop where
  framed : message.Framed order
  type : message.getType order = MessageType.sgoodbye.code
  metadata : message.getMetadata order FileInfo = .ok info
  offset_le : message.getOffset order ≤ message.buffer.length
  list : (message.getLength order).toNat % 4 = 0

namespace BlockClient

variable {order : ByteOrder} {env : Environment} {message : Message}
  {address : Address} {info : FileInfo} {client : BlockClient} {status : SyncStatus}

/-- The goodbye is answered, and no record is made for it. -/
def AnswersAgain (order : ByteOrder) (env : Environment) (message : Message)
    (address : Address) (info : FileInfo) (client : BlockClient) : Prop :=
  ∃ final n events, handle order env message address client = .ok () final ∧ 0 < n ∧
    final.messageQueue = client.messageQueue ++
      List.replicate n (Message.bare order client.id MessageType.cgoodbye.code) ∧
    final.trace = client.trace ++ events ∧
    ∀ temp, ClientEvent.created info temp ∉ events

/-- The goodbye is not answered, and an empty record and an empty temporary file are
made for it. -/
def MakesAfresh (order : ByteOrder) (env : Environment) (message : Message)
    (address : Address) (info : FileInfo) (client : BlockClient) : Prop :=
  ∃ final status, handle order env message address client = .ok () final ∧
    final.messageQueue = client.messageQueue ∧
    final.trace = client.trace ++ [.created info status.temp] ∧
    final.syncSet.find? info = some status ∧ status.path = [] ∧
    status.blockArray = List.replicate (info.getBlockCount order).toNat false ∧
    (env.opened = true → final.files.file? status.temp = some [])

/-! ## The digests of the records -/

/-- Records and goodbyes are for digests that end in their arrays. -/
structure DigestsEnd (client : BlockClient) : Prop where
  record : ∀ info status, client.syncSet.find? info = some status → 0 ∈ info.digest
  answered : ∀ info serverAddress,
    ClientEvent.answered info serverAddress ∈ client.trace → 0 ∈ info.digest

theorem handle_digestsEnd :
    Keeps DigestsEnd DigestsEnd (handle order env message address) := by
  apply handle_steps
  · exact fun _ hclient => hclient
  · intro client info status files hclient _ hnone hcreate
    constructor
    · exact OrderedMap.forall_insert hnone
        (fun other found _ => hclient.record other found) (SyncStatus.create_eq_ok hcreate).1
    · intro other serverAddress hmem
      rw [created, List.mem_append, List.mem_singleton] at hmem
      exact hclient.answered other serverAddress (hmem.resolve_right (by simp))
  · intro client info status α program hclient _ hfind _
    constructor
    · exact OrderedMap.forall_replace hfind
        (fun other found _ => hclient.record other found) (hclient.record info status hfind)
    · intro other serverAddress hmem
      rw [putStatus, List.mem_append] at hmem
      exact hclient.answered other serverAddress (hmem.resolve_right (by simp))
  · intro client info hclient _
    refine ⟨hclient.record, fun other serverAddress hmem => ?_⟩
    rcases List.mem_append.mp hmem with hold | hnew
    · exact hclient.answered other serverAddress hold
    · rw [Option.mem_toList, Option.map_eq_some_iff] at hnew
      obtain ⟨status, hfind, heq⟩ := hnew
      cases heq
      exact hclient.record _ status hfind
  · intro client info hclient _
    constructor
    · exact OrderedMap.forall_erase fun other found _ => hclient.record other found
    · intro other serverAddress hmem
      rw [erased, List.mem_append, List.mem_singleton] at hmem
      exact hclient.answered other serverAddress (hmem.resolve_right (by simp))

theorem DigestsEnd.of_reachable {group : UInt32} {port : UInt16} {pid id : UInt32}
    {files : FileStore Bytes} {run : ClientRun}
    (hrun : ClientRun.Reachable order (create order group port pid id files) run) :
    run.client.DigestsEnd := by
  refine hrun.keeps_of_handle ⟨?_, ?_⟩ (fun _ _ _ hclient => ⟨hclient.1, hclient.2⟩)
    fun _ _ _ => handle_digestsEnd
  · intro info status hfind
    rw [create, OrderedMap.find?_empty] at hfind
    contradiction
  · exact fun _ _ hmem => absurd hmem List.not_mem_nil

/-! ## Goodbyes with and without a record -/

theorem answersAgain_of_complete (haccepted : message.AcceptedGoodbye order info)
    (hlt : message.buffer.length < 2 ^ 32) (hnamed : 0 < message.named order client.id)
    (hfind : client.syncSet.find? info = some status) (hcomplete : status.Complete) :
    client.AnswersAgain order env message address info := by
  have hholding : Holding order env info address client status client := .found hfind
  have hlength := haccepted.framed.getLength_eq_sub hlt haccepted.offset_le
  have hcapacity := message.length_le
  have hoffset := haccepted.offset_le
  have hconclude := @conclude_goodbye_ok order env message info client status hfind
    haccepted.type hcomplete haccepted.list (by omega)
  rw [if_pos (Or.inr hnamed)] at hconclude
  unfold AnswersAgain
  rw [handle_eq (Message.fileInfo?_of_named (Or.inr haccepted.type) haccepted.metadata),
    bind_of_ok (hholding.prepare_goodbye haccepted.type), hconclude]
  have htrace : ∃ events, (((client.answerList order env message info status).publish
      env.second info ((status.closed env.first).acknowledged
        (message.named order client.id))).erased info).trace = client.trace ++ events ∧
      ∀ temp, ClientEvent.created info temp ∉ events := by
    simp only [erased, answerList, publish_trace, acknowledge, List.append_assoc,
      List.append_cancel_left_eq, exists_eq_left']
    simp [List.mem_replicate]
  obtain ⟨events, hevents, hcreated⟩ := htrace
  exact ⟨_, _, events, rfl, hnamed, rfl, hevents, hcreated⟩

/-- A goodbye leaves a record that is not complete as it is. -/
theorem handle_of_not_complete {mid : BlockClient}
    (haccepted : message.AcceptedGoodbye order info)
    (hholding : Holding order env info address client status mid)
    (hnot : ¬ status.Complete) :
    handle order env message address client = .ok () mid := by
  have hfind := hholding.find?
  rw [handle_eq (Message.fileInfo?_of_named (Or.inr haccepted.type) haccepted.metadata),
    bind_of_ok (hholding.prepare_goodbye haccepted.type), conclude,
    if_pos haccepted.type, bind_of_ok (transferComplete_of_not hfind hnot)]
  simp only [Bool.false_eq_true, if_false]
  exact finish_of_not hfind fun hfinished => hnot hfinished.2

theorem not_answersAgain {mid : BlockClient}
    (haccepted : message.AcceptedGoodbye order info)
    (hholding : Holding order env info address client status mid)
    (hnot : ¬ status.Complete) :
    ¬ client.AnswersAgain order env message address info := by
  rintro ⟨final, n, events, hhandle, hpos, hqueue, _⟩
  rw [handle_of_not_complete haccepted hholding hnot] at hhandle
  cases hhandle
  have hsame : mid.messageQueue = client.messageQueue := by
    cases hholding with
    | found _ => rfl
    | made _ _ => rfl
  rw [hsame, List.self_eq_append_right, List.replicate_eq_nil_iff] at hqueue
  omega

/-- The record that a goodbye makes. -/
theorem makesAfresh_of_none (haccepted : message.AcceptedGoodbye order info)
    (hnone : client.syncSet.find? info = none) (hnul : 0 ∈ info.digest) :
    client.MakesAfresh order env message address info ∧
      ¬ client.AnswersAgain order env message address info := by
  obtain ⟨mid, hget⟩ := @getSyncStatus_returns order env address info client (Or.inr hnul)
  obtain ⟨status, hholding⟩ := Holding.of_getSyncStatus hget
  have hfind := hholding.find?
  cases hholding with
  | found hsome =>
      rw [hnone] at hsome
      contradiction
  | made _ hcreate =>
      have hmade : Holding order env info address client _ _ := .made hnone hcreate
      obtain ⟨_, hstatus, hfiles⟩ := SyncStatus.create_eq_ok hcreate
      have hnot : ¬ status.Complete := by
        intro hcomplete
        apply hcomplete.2
        rw [hstatus]
      refine ⟨⟨_, status, handle_of_not_complete haccepted hmade hnot, rfl, rfl, hfind, ?_,
        ?_, fun hopened => ?_⟩, not_answersAgain haccepted hmade hnot⟩
      · rw [hstatus]
      · rw [hstatus]
      · simp only [created, hfiles, hstatus, OutStream.openFile, hopened, if_true]
        exact FileStore.file?_create_self _ _

/-- In a run in which the file was answered for, a further goodbye that names the client
is answered exactly when there is a complete record again; without a record one is
made. -/
theorem repeatedGoodbye_outcome {group : UInt32} {port : UInt16} {pid id : UInt32}
    {files : FileStore Bytes} {run : ClientRun} {serverAddress : Address}
    {datagram : Bytes}
    (hrun : ClientRun.Reachable order (create order group port pid id files) run)
    (hanswered : ClientEvent.answered info serverAddress ∈ run.client.trace)
    (haccepted : (Message.received receiveReserve datagram).AcceptedGoodbye order info)
    (hnamed : 0 < (Message.received receiveReserve datagram).named order run.client.id) :
    (run.client.AnswersAgain order env (Message.received receiveReserve datagram) address
        info ↔
      ∃ status, run.client.syncSet.find? info = some status ∧ status.Complete) ∧
    (run.client.syncSet.find? info = none →
      run.client.MakesAfresh order env (Message.received receiveReserve datagram) address
        info) := by
  have hnul := (DigestsEnd.of_reachable hrun).answered info serverAddress hanswered
  cases hfind : run.client.syncSet.find? info with
  | none =>
      obtain ⟨hmakes, hnot⟩ := @makesAfresh_of_none order env _ address info run.client
        haccepted hfind hnul
      exact ⟨⟨fun h => absurd h hnot, fun ⟨_, hsome, _⟩ => by contradiction⟩,
        fun _ => hmakes⟩
  | some status =>
      refine ⟨⟨fun hagain => ⟨status, rfl, ?_⟩, ?_⟩, fun hnone => by contradiction⟩
      · by_contra hnot
        exact not_answersAgain haccepted (.found hfind) hnot hagain
      · rintro ⟨found, hfound, hcomplete⟩
        cases hfound
        exact answersAgain_of_complete haccepted (Message.length_received_lt datagram)
          hnamed hfind hcomplete

end BlockClient

/-- A client that was offered a file and has answered its goodbye. -/
def answeredRun : ClientRun :=
  ((sampleStart.step .little (namedInput 116 offeredInfo)).step .little
    (namedInput 117 offeredBlock)).step .little (namedInput 118 offeredGoodbye)

theorem answeredRun_reachable : ClientRun.Reachable .little
    (BlockClient.create .little 0 0 7 5 FileStore.empty) answeredRun :=
  .step (.step (.step (.start 0 none) _) _) _

theorem answeredRun_answered :
    ClientEvent.answered sampleFile ⟨0, 0⟩ ∈ answeredRun.client.trace := by
  decide +kernel

theorem offeredGoodbye_accepted : offeredGoodbye.AcceptedGoodbye .little sampleFile where
  framed := by decide +kernel
  type := by decide +kernel
  metadata := by decide +kernel
  offset_le := by decide +kernel
  list := by decide +kernel

theorem answeredRun_repeatedGoodbye :
    (answeredRun.client.AnswersAgain .little (Environment.plain [119] false) offeredGoodbye
        ⟨0, 0⟩ sampleFile ↔
      ∃ status, answeredRun.client.syncSet.find? sampleFile = some status ∧
        status.Complete) ∧
    (answeredRun.client.syncSet.find? sampleFile = none →
      answeredRun.client.MakesAfresh .little (Environment.plain [119] false) offeredGoodbye
        ⟨0, 0⟩ sampleFile) :=
  BlockClient.repeatedGoodbye_outcome answeredRun_reachable answeredRun_answered
    offeredGoodbye_accepted (by decide +kernel)

/-- The file has a block, was published and answered for, and the same goodbye is not
answered again. -/
theorem answeredRun_not_answersAgain :
    ClientRun.Reachable .little (BlockClient.create .little 0 0 7 5 FileStore.empty)
      answeredRun ∧
    0 < sampleFile.getBlockCount .little ∧
    (∃ publication, ClientEvent.published sampleFile publication ∈
      answeredRun.client.trace) ∧
    ClientEvent.answered sampleFile ⟨0, 0⟩ ∈ answeredRun.client.trace ∧
    offeredGoodbye.AcceptedGoodbye .little sampleFile ∧
    0 < offeredGoodbye.named .little answeredRun.client.id ∧
    ¬ answeredRun.client.AnswersAgain .little (Environment.plain [119] false)
      offeredGoodbye ⟨0, 0⟩ sampleFile := by
  have hnone : answeredRun.client.syncSet.find? sampleFile = none := by
    decide +kernel
  exact ⟨answeredRun_reachable, by decide, ⟨⟨[97], [true], [1, 2, 3]⟩, by decide +kernel⟩,
    answeredRun_answered, offeredGoodbye_accepted, by decide +kernel,
    (BlockClient.makesAfresh_of_none offeredGoodbye_accepted hnone (by decide)).2⟩

end Multisync
