import Multisync.Lifecycle
import Mathlib.Tactic

/-!
# A record only moves on

As long as the record of a file is not erased, whatever is sent for this file or another
one and whatever fails, it keeps its temporary file and its server, no block that was
marked is missing again, and a goodbye is not forgotten.  So the first message that brings
a block is the last one that matters.
-/

namespace Multisync

open ByteLayout Effects

namespace SyncStatus

/-- What the second record has become of the first. -/
structure Progress (before after : SyncStatus) : Prop where
  temp : after.temp = before.temp
  serverAddress : after.serverAddress = before.serverAddress
  length : after.blockArray.length = before.blockArray.length
  marks : ∀ k : ℕ, before.blockArray[k]? = some true → after.blockArray[k]? = some true
  remaining : after.remainingBlocks ≤ before.remainingBlocks
  goodbye : before.goodbyeReceived = true → after.goodbyeReceived = true

theorem Progress.refl (status : SyncStatus) : status.Progress status :=
  ⟨rfl, rfl, rfl, fun _ hmark => hmark, le_rfl, id⟩

theorem Progress.trans {first second third : SyncStatus} (hfirst : first.Progress second)
    (hsecond : second.Progress third) : first.Progress third where
  temp := hsecond.temp.trans hfirst.temp
  serverAddress := hsecond.serverAddress.trans hfirst.serverAddress
  length := hsecond.length.trans hfirst.length
  marks k hmark := hsecond.marks k (hfirst.marks k hmark)
  remaining := hsecond.remaining.trans hfirst.remaining
  goodbye hgoodbye := hsecond.goodbye (hfirst.goodbye hgoodbye)

theorem progress_published (outcome : PublishOutcome) (state : StatusState) :
    state.status.Progress (published outcome state).status := by
  unfold published
  rw [renameTemp_status]
  exact ⟨rfl, rfl, rfl, fun _ hmark => hmark, le_rfl, id⟩

/-- Marking a block that was missing. -/
theorem progress_marked (env : Environment) {block : ℕ} {payload : Bytes} {count : ℕ}
    {state : StatusState} (hcounted : state.status.Counted count) (hcount : count < 2 ^ 64)
    (hmark : state.status.blockArray[block]? = some false) :
    state.status.Progress (marked block (wrote env block payload state)).status := by
  have hlength := hcounted.length
  have hle : state.status.blockArray.count false ≤ state.status.blockArray.length :=
    List.count_le_length
  obtain ⟨_, hpos⟩ := BlockAssembly.count_set_true hmark
  constructor
  · rfl
  · rfl
  · exact List.length_set
  · intro k hk
    show (state.status.blockArray.set block true)[k]? = some true
    by_cases hblock : block = k
    · subst hblock
      rw [hmark] at hk
      contradiction
    · rw [List.getElem?_set_ne hblock]
      exact hk
  · show decrement state.status.remainingBlocks ≤ state.status.remainingBlocks
    rw [hcounted.remaining, decrement_of_pos hpos (by omega)]
    omega
  · exact id

end SyncStatus

/-- Every program a handler runs moves the record on, also when it throws. -/
theorem RecordProgram.progress {order : ByteOrder} {env : Environment} {message : Message}
    {count : ℕ} {α : Type} {program : EStateM Fault StatusState α}
    (hprogram : RecordProgram order env message program) (hcount : count < 2 ^ 64)
    {state : StatusState} (hcounted : state.status.Counted count) :
    state.status.Progress (endState (program state)).status := by
  cases hprogram with
  | setPath _ _ => exact ⟨rfl, rfl, rfl, fun _ hmark => hmark, le_rfl, id⟩
  | writeBlock _ _ =>
      rw [SyncStatus.writeBlock_apply]
      split
      · exact .refl state.status
      · exact .refl state.status
      · next hmark =>
          split
          · exact ⟨rfl, rfl, rfl, fun _ hmark => hmark, le_rfl, id⟩
          · split
            · exact ⟨rfl, rfl, rfl, fun _ hmark => hmark, le_rfl, id⟩
            · exact SyncStatus.progress_marked env hcounted hcount hmark
  | setGoodbyeReceived => exact ⟨rfl, rfl, rfl, fun _ hmark => hmark, le_rfl, fun _ => rfl⟩
  | transferComplete =>
      rw [SyncStatus.transferComplete_apply]
      split_ifs
      · exact SyncStatus.progress_published _ state
      · exact .refl state.status
  | syncComplete _ =>
      rw [SyncStatus.syncComplete_apply]
      split_ifs
      · exact SyncStatus.progress_published _ state
      · exact .refl state.status

/-- What has become of the records since, unless they were erased. -/
def Advances (before after : BlockClient) : Prop :=
  ∃ events, after.trace = before.trace ++ events ∧
    ∀ info status, before.syncSet.find? info = some status →
      ClientEvent.erased info ∈ events ∨
        ∃ status', after.syncSet.find? info = some status' ∧ status.Progress status'

theorem Advances.refl (client : BlockClient) : Advances client client :=
  ⟨[], by simp, fun _ status hfind => Or.inr ⟨status, hfind, .refl status⟩⟩

theorem Advances.trans {first second third : BlockClient} (hfirst : Advances first second)
    (hsecond : Advances second third) : Advances first third := by
  obtain ⟨events, htrace, hrecords⟩ := hfirst
  obtain ⟨events', htrace', hrecords'⟩ := hsecond
  refine ⟨events ++ events', by rw [htrace', htrace, List.append_assoc], ?_⟩
  intro info status hfind
  rcases hrecords info status hfind with herased | ⟨status', hfind', hprogress⟩
  · exact Or.inl (List.mem_append_left _ herased)
  · rcases hrecords' info status' hfind' with herased | ⟨status'', hfind'', hprogress'⟩
    · exact Or.inl (List.mem_append_right _ herased)
    · exact Or.inr ⟨status'', hfind'', hprogress.trans hprogress'⟩

namespace BlockClient

variable {order : ByteOrder} {env : Environment} {message : Message} {address : Address}
  {info : FileInfo} {initial client : BlockClient} {status : SyncStatus}

theorem advances_created {files : FileStore Bytes}
    (hnone : client.syncSet.find? info = none) :
    Advances client (client.created info status files) := by
  refine ⟨[.created info status.temp], rfl, fun other found hfound => Or.inr ⟨found, ?_, ?_⟩⟩
  · have hother : other ≠ info := by
      rintro rfl
      rw [hnone] at hfound
      contradiction
    rwa [created, OrderedMap.find?_insert_ne hother]
  · exact .refl found

theorem advances_putStatus {state : StatusState} (hfind : client.syncSet.find? info = some status)
    (hprogress : status.Progress state.status) :
    Advances client (client.putStatus info state) := by
  refine ⟨_, rfl, fun other found hfound => Or.inr ?_⟩
  by_cases hother : other = info
  · rw [hother, hfind] at hfound
    cases hfound
    exact ⟨state.status, hother ▸ find?_putStatus_self hfind state, hprogress⟩
  · refine ⟨found, ?_, .refl found⟩
    rwa [putStatus, OrderedMap.find?_replace_ne hother]

theorem advances_erased (client : BlockClient) (info : FileInfo) :
    Advances client (client.erased info) := by
  refine ⟨[.erased info], rfl, fun other found hfound => ?_⟩
  by_cases hother : other = info
  · rw [hother]
    exact Or.inl List.mem_cons_self
  · refine Or.inr ⟨found, ?_, .refl found⟩
    rwa [erased, OrderedMap.find?_erase_ne hother]

/-- A handler moves the records on, or erases them. -/
theorem handle_advances :
    Keeps (fun client => client.Counted order ∧ Advances initial client)
      (fun client => client.Counted order ∧ Advances initial client)
      (handle order env message address) := by
  apply handle_steps
  · exact fun _ hclient => hclient
  · intro client info status files hclient _ hnone hcreate
    exact ⟨hclient.1.created hnone hcreate, hclient.2.trans (advances_created hnone)⟩
  · intro client info status α program hclient _ hfind hprogram
    have hcounted := hclient.1 info status hfind
    have hcount : (info.getBlockCount order).toNat < 2 ^ 64 := by
      have hlt := (info.getBlockCount order).toNat_lt
      omega
    constructor
    · exact hclient.1.putStatus hfind (hprogram.counted hcount hcounted)
    · have hprogress := @RecordProgram.progress order env message _ α program hprogram hcount
        ⟨status, client.files, []⟩ hcounted
      exact hclient.2.trans (advances_putStatus hfind hprogress)
  · intro client info hclient _
    exact ⟨hclient.1, hclient.2.trans ⟨_, rfl, fun other found hfound =>
      Or.inr ⟨found, hfound, .refl found⟩⟩⟩
  · exact fun client info hclient _ =>
      ⟨hclient.1.erased info, hclient.2.trans (advances_erased client info)⟩

end BlockClient

/-- In every run, whatever comes next: a record is erased, or it has only moved on. -/
theorem ClientRun.Reachable.advances {order : ByteOrder} {group : UInt32} {port : UInt16}
    {pid id : UInt32} {files : FileStore Bytes} {run : ClientRun}
    (hrun : Reachable order (BlockClient.create order group port pid id files) run)
    (inputs : List ClientInput) : Advances run.client (run.steps order inputs).client := by
  have hcounted : run.client.Counted order := BlockClient.Counted.of_reachable rfl hrun
  have hkept := @steps_keep order
    (fun client => client.Counted order ∧ Advances run.client client) run
    (fun input => BlockClient.select_keeps (fun _ _ _ hclient => hclient)
      fun _ _ => BlockClient.handle_advances)
    ⟨hcounted, .refl run.client⟩ inputs
  exact hkept.2

/-- A client that was offered a file and has written its block. -/
def writtenRun : ClientRun :=
  (sampleStart.step .little (namedInput 116 offeredInfo)).step .little
    (namedInput 117 offeredBlock)

theorem writtenRun_advances : Advances writtenRun.client
    (writtenRun.steps .little [namedInput 118 offeredBlock]).client := by
  have hrun : ClientRun.Reachable .little
      (BlockClient.create .little 0 0 7 5 FileStore.empty) writtenRun :=
    .step (.step (.start 0 none) _) _
  exact hrun.advances [namedInput 118 offeredBlock]

/-! ## Blocks that come again -/

namespace BlockClient

variable {order : ByteOrder} {env : Environment} {message : Message} {address : Address}
  {client : BlockClient} {status : SyncStatus} {block : BlockInfo}

/-- A block that is marked is not looked at again. -/
theorem handle_repeated (htype : message.getType order = MessageType.block.code)
    (hblock : message.getMetadata order BlockInfo = .ok block)
    (hfind : client.syncSet.find? block.fileInfo = some status)
    (hmark : status.blockArray[(block.getBlock order).toNat]? = some true)
    (hunfinished : ¬ status.Finished) :
    handle order env message address client = .ok () client := by
  rw [handle_of_block htype hblock, bind_of_ok (getSyncStatus_of_find? order hfind env address),
    bind_of_ok (writeBlock_of_marked hfind hmark)]
  exact finish_of_not hfind hunfinished

/-- A call of `select` that reads such a block. -/
theorem select_repeated {input : ClientInput} (hmessage : input.message? = some message)
    (htype : message.getType order = MessageType.block.code)
    (hblock : message.getMetadata order BlockInfo = .ok block)
    (hfind : client.syncSet.find? block.fileInfo = some status)
    (hmark : status.blockArray[(block.getBlock order).toNat]? = some true)
    (hunfinished : ¬ status.Finished) :
    SameRecords client (endState (select order input client)) := by
  have hsame := select_sameRecords order input client
  cases hhandling : client.handling? order input with
  | none =>
      rw [hhandling] at hsame
      exact hsame
  | some handling =>
      have hread := (accepted_of_handling? hhandling).1
      rw [hmessage] at hread
      obtain ⟨socket, queue, hclient⟩ := sameRecords_of_handling? hhandling
      have hfound : handling.client.syncSet.find? block.fileInfo = some status := by
        rw [hclient]
        exact hfind
      have hafter : handling.after order = handling.client := by
        rw [Handling.after, ← Option.some.inj hread,
          handle_repeated htype hblock hfound hmark hunfinished]
        rfl
      obtain ⟨socket', queue', hselect⟩ := hsame
      refine ⟨socket', queue', ?_⟩
      rw [hselect, hhandling]
      show { handling.after order with socket := socket', messageQueue := queue' } = _
      rw [hafter, hclient]

theorem select_unfinished {input : ClientInput} :
    Keeps Unfinished (fun _ => True) (select order input) := by
  apply Endpoint.select_keeps
  · exact fun _ _ => trivial
  · apply processMessage_keeps
    · exact fun _ _ => trivial
    · exact fun _ hclient _ => hclient
    · exact fun _ _ => handle_unfinished
  · apply Endpoint.sendFront_keeps
    · exact fun _ _ => trivial
    · exact fun _ _ _ _ _ hclient _ => hclient
    · exact fun _ _ _ _ _ _ _ _ => trivial

end BlockClient

namespace ClientRun

variable {order : ByteOrder} {client : BlockClient} {run : ClientRun}

/-- While the client runs no record is finished. -/
theorem Reachable.unfinished (hempty : client.syncSet = OrderedMap.empty)
    (hrun : Reachable order client run) (hlive : run.fault = none) :
    run.client.Unfinished := by
  induction hrun with
  | start ephemeral openError =>
      intro info status hfind
      have hnone : (ClientRun.start order ephemeral openError client).client.syncSet =
          OrderedMap.empty := by
        rw [ClientRun.start, client_ofResult, ← hempty]
        cases openError with
        | none => rfl
        | some error => rfl
      rw [hnone, OrderedMap.find?_empty] at hfind
      contradiction
  | @step run _ input ih =>
      exact @steps_keeps order BlockClient.Unfinished run [input] ih
        (fun _ _ => BlockClient.select_unfinished) hlive

/-- Once a block is written, no message with this block changes anything while the record
is there, whatever comes between and whatever bytes it brings. -/
theorem Reachable.repeated {group : UInt32} {port : UInt16} {pid id : UInt32}
    {files : FileStore Bytes}
    (hrun : Reachable order (BlockClient.create order group port pid id files) run)
    {block : BlockInfo} {status : SyncStatus}
    (hfind : run.client.syncSet.find? block.fileInfo = some status)
    (hmark : status.blockArray[(block.getBlock order).toNat]? = some true)
    (inputs : List ClientInput) (hlive : (run.steps order inputs).fault = none)
    (hkept : ∀ events, (run.steps order inputs).client.trace = run.client.trace ++ events →
      ClientEvent.erased block.fileInfo ∉ events)
    {input : ClientInput} {message : Message} (hmessage : input.message? = some message)
    (htype : message.getType order = MessageType.block.code)
    (hblock : message.getMetadata order BlockInfo = .ok block) :
    (run.steps order inputs).client.SameRecords
      ((run.steps order inputs).step order input).client := by
  obtain ⟨events, htrace, hrecords⟩ := hrun.advances inputs
  obtain ⟨status', hfind', hprogress⟩ :=
    (hrecords block.fileInfo status hfind).resolve_left (hkept events htrace)
  have hunfinished := (hrun.steps inputs).unfinished rfl hlive block.fileInfo status' hfind'
  have hselect := @BlockClient.select_repeated order message _ status' block input hmessage
    htype hblock hfind' (hprogress.marks _ hmark) hunfinished
  unfold ClientRun.step
  rw [hlive]
  split_ifs
  · rw [client_ofResult]
    exact hselect
  · exact .refl _

end ClientRun

/-- The block of the file comes again, with other bytes. -/
theorem writtenRun_repeated :
    (writtenRun.steps .little [namedInput 116 offeredInfo]).client.SameRecords
      ((writtenRun.steps .little [namedInput 116 offeredInfo]).step .little
        (namedInput 119 (numberedBlock 0))).client := by
  have hrun : ClientRun.Reachable .little
      (BlockClient.create .little 0 0 7 5 FileStore.empty) writtenRun :=
    .step (.step (.start 0 none) _) _
  have hmarks : (writtenRun.client.syncSet.find? sampleFile).bind
      (fun status => status.blockArray[0]?) = some true := by
    decide +kernel
  obtain ⟨status, hfind, hmark⟩ := Option.bind_eq_some_iff.mp hmarks
  have htrace : (writtenRun.steps .little [namedInput 116 offeredInfo]).client.trace =
      writtenRun.client.trace := by
    decide +kernel
  apply @ClientRun.Reachable.repeated .little writtenRun 0 0 7 5 FileStore.empty hrun
    (BlockInfo.ofBlock .little sampleFile 0) status hfind hmark
    [namedInput 116 offeredInfo] (by decide +kernel) ?_ (namedInput 119 (numberedBlock 0))
    (Message.received receiveReserve (numberedBlock 0).buffer) rfl (by decide +kernel)
    (by decide +kernel)
  intro events hevents
  rw [htrace, List.self_eq_append_right] at hevents
  rw [hevents]
  exact List.not_mem_nil

end Multisync
