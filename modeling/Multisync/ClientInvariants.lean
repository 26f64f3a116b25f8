import Multisync.BlockAssembly
import Multisync.ClientRuns
import Mathlib.Tactic

/-!
# What holds of every record between two messages

When the operations on files succeed, a record keeps its file open for writing
as long as a block is missing, counts the missing blocks, and is gone once it is
complete and the goodbye has come.
-/

namespace Multisync

open ByteLayout Effects BlockAssembly

/-- Every operation on files that the handlers make succeeds. -/
structure Environment.Succeeds (env : Environment) : Prop where
  opened : env.opened = true
  writes : env.writeLimit = none
  first : env.first = ⟨true, true⟩
  second : env.second = ⟨true, true⟩

instance (env : Environment) : Decidable env.Succeeds :=
  decidable_of_iff (env.opened = true ∧ env.writeLimit = none ∧
      env.first = ⟨true, true⟩ ∧ env.second = ⟨true, true⟩)
    ⟨fun ⟨hopened, hwrites, hfirst, hsecond⟩ => ⟨hopened, hwrites, hfirst, hsecond⟩,
      fun h => ⟨h.opened, h.writes, h.first, h.second⟩⟩

namespace SyncStatus

/-- The record has a mark for each block and the number of those missing, and can
be written to while there is one. -/
structure Intact (count : ℕ) (status : SyncStatus) : Prop where
  length : status.blockArray.length = count
  remaining : status.remainingBlocks = status.blockArray.count false
  writable : false ∈ status.blockArray →
    (∃ file, status.output.file = some file) ∧ status.output.failed = false

/-- The record is complete and the goodbye has come. -/
def Finished (status : SyncStatus) : Prop :=
  status.goodbyeReceived = true ∧ status.Complete

variable {order : ByteOrder} {env : Environment} {message : Message} {count : ℕ}

theorem Intact.all_marked {status : SyncStatus} (hintact : status.Intact count)
    (hzero : status.remainingBlocks = 0) : false ∉ status.blockArray := by
  intro hmem
  have hpos := List.count_pos_iff.mpr hmem
  rw [← hintact.remaining, hzero] at hpos
  contradiction

theorem Intact.of_create {info : FileInfo} {address : Address}
    {files files' : FileStore Bytes} {status : SyncStatus}
    (hopened : env.opened = true)
    (hok : create order env info address files = .ok (status, files')) :
    status.Intact (info.getBlockCount order).toNat := by
  obtain ⟨_, rfl, rfl⟩ := create_eq_ok hok
  constructor
  · exact List.length_replicate
  · exact List.count_replicate_self.symm
  · intro _
    rw [hopened]
    exact ⟨⟨_, rfl⟩, rfl⟩

/-- Writing a missing block works, and marks it. -/
theorem Intact.writeBlock {state : StatusState} {block : ℕ} {payload : Bytes}
    (hintact : state.status.Intact count) (hcount : count < 2 ^ 64)
    (hwrites : env.writeLimit = none)
    (hmark : state.status.blockArray[block]? = some false)
    (htext : message.getText order = .ok payload) :
    SyncStatus.writeBlock order env block message state =
        .ok () (marked block (wrote env block payload state)) ∧
      (marked block (wrote env block payload state)).status.Intact count := by
  obtain ⟨hlt, hget⟩ := List.getElem?_eq_some_iff.mp hmark
  have hmem : false ∈ state.status.blockArray := hget ▸ List.getElem_mem hlt
  obtain ⟨⟨file, hfile⟩, hgood⟩ := hintact.writable hmem
  have hwrite := OutStream.seekp_write hfile hgood (blockSize * block % 2 ^ 64) payload
    state.files
  have houtput : (wrote env block payload state).status.output =
      ⟨some file, blockSize * block % 2 ^ 64 + payload.length, false⟩ := by
    simp only [wrote, hwrites, hwrite]
  obtain ⟨hset, hpos⟩ := count_set_true hmark
  have hle : state.status.blockArray.count false ≤ state.status.blockArray.length :=
    List.count_le_length
  constructor
  · rw [writeBlock_apply, hmark, htext]
    simp only
    rw [houtput, if_neg Bool.false_ne_true]
  · constructor
    · simp only [marked, wrote, List.length_set]
      exact hintact.length
    · simp only [marked, wrote]
      rw [hset, hintact.remaining, decrement_of_pos hpos]
      rw [hintact.length] at hle
      omega
    · intro _
      simp only [marked, houtput]
      exact ⟨⟨file, rfl⟩, trivial⟩

/-- A complete record is not written to any more, so it may be published. -/
theorem Intact.published {state : StatusState} (hintact : state.status.Intact count)
    (hcomplete : state.status.Complete) (outcome : PublishOutcome) :
    (published outcome state).status.Intact count := by
  have hmarked := hintact.all_marked hcomplete.1
  constructor
  · simpa [SyncStatus.published] using hintact.length
  · simpa [SyncStatus.published] using hintact.remaining
  · intro hmem
    have hmem' : false ∈ state.status.blockArray := by
      simpa [SyncStatus.published] using hmem
    exact absurd hmem' hmarked

end SyncStatus

/-- Every program a handler runs keeps the record intact, also when it throws. -/
theorem RecordProgram.intact {order : ByteOrder} {env : Environment}
    {message : Message} {count : ℕ} {α : Type} {program : EStateM Fault StatusState α}
    (hprogram : RecordProgram order env message program)
    (hwrites : env.writeLimit = none) (hcount : count < 2 ^ 64) {state : StatusState}
    (hintact : state.status.Intact count) :
    (endState (program state)).status.Intact count := by
  cases hprogram with
  | setPath htype htext =>
      exact ⟨hintact.length, hintact.remaining, hintact.writable⟩
  | @writeBlock block htype hblock =>
      cases hmark : state.status.blockArray[(block.getBlock order).toNat]? with
      | none =>
          rw [SyncStatus.writeBlock_apply, hmark]
          exact hintact
      | some mark =>
          cases mark with
          | true =>
              rw [SyncStatus.writeBlock_apply, hmark]
              exact hintact
          | false =>
              cases htext : message.getText order with
              | error fault =>
                  rw [SyncStatus.writeBlock_apply, hmark, htext]
                  refine ⟨hintact.length, hintact.remaining, fun hmem => ?_⟩
                  obtain ⟨⟨file, hfile⟩, hgood⟩ := hintact.writable hmem
                  simp [OutStream.seekp, hfile, hgood]
              | ok payload =>
                  obtain ⟨hok, hwrote⟩ :=
                    hintact.writeBlock hcount hwrites hmark htext
                  rw [hok]
                  exact hwrote
  | setGoodbyeReceived =>
      exact ⟨hintact.length, hintact.remaining, hintact.writable⟩
  | transferComplete =>
      rw [SyncStatus.transferComplete_apply]
      split_ifs with hcomplete
      · exact hintact.published hcomplete env.first
      · exact hintact
  | @syncComplete outcome houtcome =>
      rw [SyncStatus.syncComplete_apply]
      split_ifs with hcomplete
      · exact hintact.published hcomplete.2 outcome
      · exact hintact

namespace BlockClient

variable {order : ByteOrder} {env : Environment} {message : Message}
  {address : Address}

/-- Every record is intact. -/
def Intact (order : ByteOrder) (client : BlockClient) : Prop :=
  ∀ info status, client.syncSet.find? info = some status →
    status.Intact (info.getBlockCount order).toNat

/-- No record is finished. -/
def Unfinished (client : BlockClient) : Prop :=
  ∀ info status, client.syncSet.find? info = some status → ¬ status.Finished

/-- No record is finished but perhaps that of the file. -/
def UnfinishedBut (info : FileInfo) (client : BlockClient) : Prop :=
  ∀ other status, other ≠ info → client.syncSet.find? other = some status →
    ¬ status.Finished

theorem Intact.putStatus {client : BlockClient} {info : FileInfo}
    {status : SyncStatus} {state : StatusState} (hintact : client.Intact order)
    (hfind : client.syncSet.find? info = some status)
    (hstate : state.status.Intact (info.getBlockCount order).toNat) :
    (client.putStatus info state).Intact order :=
  OrderedMap.forall_replace hfind (fun other found _ => hintact other found) hstate

theorem Intact.created {client : BlockClient} {info : FileInfo}
    {status : SyncStatus} {files : FileStore Bytes} (hintact : client.Intact order)
    (hopened : env.opened = true) (hnone : client.syncSet.find? info = none)
    (hok : SyncStatus.create order env info address client.files = .ok (status, files)) :
    (client.created info status files).Intact order :=
  OrderedMap.forall_insert hnone (fun other found _ => hintact other found)
    (.of_create hopened hok)

theorem Intact.erased {client : BlockClient} (hintact : client.Intact order)
    (info : FileInfo) : (client.erased info).Intact order :=
  OrderedMap.forall_erase fun other found _ => hintact other found

theorem getSyncStatus_intact (hopened : env.opened = true) (info : FileInfo) :
    Keeps (Intact order) (Intact order) (getSyncStatus order env info address) := by
  intro client hclient
  rw [getSyncStatus_apply]
  cases hfind : client.syncSet.find? info with
  | some status => exact hclient
  | none =>
      cases hcreate : SyncStatus.create order env info address client.files with
      | error fault => exact hclient
      | ok made => exact hclient.created hopened hfind hcreate

theorem handle_intact (hsucceeds : env.Succeeds) :
    Keeps (Intact order) (Intact order) (handle order env message address) := by
  apply handle_triple
  · exact fun _ hclient => hclient
  · exact fun _ hclient => hclient
  · exact fun info _ => getSyncStatus_intact hsucceeds.opened info
  · intro info _ α program hprogram
    have hcount : (info.getBlockCount order).toNat < 2 ^ 64 := by
      have := (info.getBlockCount order).toNat_lt
      omega
    apply onStatus_triple
    · exact fun _ hclient _ => hclient
    · intro client status value state hclient hfind hok
      have h : (endState (program ⟨status, client.files, []⟩)).status.Intact _ :=
        hprogram.intact hsucceeds.writes hcount (hclient info status hfind)
      rw [hok] at h
      exact hclient.putStatus hfind h
    · intro client status fault state hclient hfind herror
      have h : (endState (program ⟨status, client.files, []⟩)).status.Intact _ :=
        hprogram.intact hsucceeds.writes hcount (hclient info status hfind)
      rw [herror] at h
      exact hclient.putStatus hfind h
  · exact fun _ _ _ hclient => hclient
  · exact fun info _ client hclient => hclient.erased info

/-- Whether the record is finished is asked for last. -/
theorem finish_unfinished {info : FileInfo} {outcome : PublishOutcome} :
    Triple (UnfinishedBut info) (finish info outcome) (fun _ => Unfinished)
      fun _ _ => True := by
  have hcomplete : Triple (UnfinishedBut info)
      (onStatus info (SyncStatus.syncComplete outcome))
      (fun complete client => UnfinishedBut info client ∧
        (complete = false → Unfinished client))
      fun _ _ => True := by
    apply onStatus_triple
    · exact fun _ _ _ => trivial
    · intro client status complete state hclient hfind hok
      have hothers : UnfinishedBut info (client.putStatus info state) := by
        intro other status' hne hother
        rw [BlockClient.putStatus, OrderedMap.find?_replace_ne hne] at hother
        exact hclient other status' hne hother
      refine ⟨hothers, fun hfalse => OrderedMap.forall_replace hfind hclient ?_⟩
      rw [SyncStatus.syncComplete_apply] at hok
      split_ifs at hok with hfinished
      · cases hok
        contradiction
      · cases hok
        exact hfinished
    · exact fun _ _ _ _ _ _ _ => trivial
  refine Triple.bind hcomplete fun complete => Triple.ite (fun _ => ?_) fun hno => ?_
  · exact fun client hclient => OrderedMap.forall_erase hclient.1
  · apply Triple.pure
    exact fun client hclient => hclient.2 (Bool.eq_false_iff.mpr hno)

theorem handle_unfinished :
    Triple Unfinished (handle order env message address) (fun _ => Unfinished)
      fun _ _ => True := by
  apply handle_finish_triple (Q := UnfinishedBut)
  · exact fun _ _ hclient => hclient
  · exact fun _ _ _ => trivial
  · exact fun _ _ _ => trivial
  · intro info _ client hclient
    have hbut : UnfinishedBut info client := fun other status _ => hclient other status
    rw [getSyncStatus_apply]
    cases hfind : client.syncSet.find? info with
    | some status => exact hbut
    | none =>
        cases hcreate : SyncStatus.create order env info address client.files with
        | error fault => exact trivial
        | ok made =>
            intro other status hne hother
            rw [BlockClient.created, OrderedMap.find?_insert_ne hne] at hother
            exact hbut other status hne hother
  · intro info _ α program _
    have hput : ∀ client status state, UnfinishedBut info client →
        client.syncSet.find? info = some status →
          UnfinishedBut info (client.putStatus info state) := by
      intro client status state hclient hfind other status' hne hother
      rw [BlockClient.putStatus, OrderedMap.find?_replace_ne hne] at hother
      exact hclient other status' hne hother
    apply onStatus_triple
    · exact fun _ _ _ => trivial
    · exact fun client status _ state hclient hfind _ =>
        hput client status state hclient hfind
    · exact fun _ _ _ _ _ _ _ => trivial
  · exact fun _ _ _ hclient => hclient
  · exact fun _ _ _ _ => finish_unfinished

end BlockClient

/-- Every record is intact, and none is finished. -/
structure BlockClient.Settled (order : ByteOrder) (client : BlockClient) : Prop where
  intact : client.Intact order
  unfinished : client.Unfinished

theorem BlockClient.Settled.of_empty {order : ByteOrder} {client : BlockClient}
    (hempty : client.syncSet = OrderedMap.empty) : client.Settled order := by
  constructor
  · intro info status hfind
    rw [hempty, OrderedMap.find?_empty] at hfind
    contradiction
  · intro info status hfind
    rw [hempty, OrderedMap.find?_empty] at hfind
    contradiction

/-- A message that is handled leaves the records settled. -/
theorem BlockClient.handle_settled {order : ByteOrder} {env : Environment}
    {message : Message} {address : Address} (hsucceeds : env.Succeeds) :
    Keeps (Settled order) (fun _ => True) (handle order env message address) := by
  have hboth := (@handle_intact order env message address hsucceeds).and
    (@handle_unfinished order env message address)
  apply hboth.weaken
  · exact fun client hclient => ⟨hclient.intact, hclient.unfinished⟩
  · exact fun _ client hclient => ⟨hclient.1, hclient.2⟩
  · exact fun _ _ _ => trivial

theorem BlockClient.select_settled {order : ByteOrder} {input : ClientInput}
    (hsucceeds : input.env.Succeeds) :
    Keeps (Settled order) (fun _ => True) (select order input) := by
  apply Endpoint.select_keeps
  · exact fun _ _ => trivial
  · apply processMessage_keeps
    · exact fun _ _ => trivial
    · exact fun client hclient sender => ⟨hclient.intact, hclient.unfinished⟩
    · exact fun message address => handle_settled hsucceeds
  · apply Endpoint.sendFront_keeps
    · exact fun _ _ => trivial
    · exact fun client message rest socket _ hclient _ =>
        ⟨hclient.intact, hclient.unfinished⟩
    · exact fun _ _ _ _ _ _ _ _ => trivial

/-- Between two calls of `select` the records are settled. -/
theorem ClientRun.steps_settled {order : ByteOrder} {client : BlockClient}
    {ephemeral : UInt16} {openError : Option String} {inputs : List ClientInput}
    (hempty : client.syncSet = OrderedMap.empty)
    (hsucceed : ∀ input ∈ inputs, input.env.Succeeds)
    (hrunning : ((ClientRun.start order ephemeral openError client).steps order
      inputs).fault = none) :
    (((ClientRun.start order ephemeral openError client).steps order
      inputs).client).Settled order := by
  refine @ClientRun.steps_keeps order (BlockClient.Settled order) _ inputs ?_ ?_ hrunning
  · intro _
    apply BlockClient.Settled.of_empty
    rw [ClientRun.start, ClientRun.client_ofResult, ← hempty]
    cases openError <;> rfl
  · exact fun input hmem => BlockClient.select_settled (hsucceed input hmem)

end Multisync
