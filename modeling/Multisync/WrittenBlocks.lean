import Multisync.Histories
import Mathlib.Tactic

/-!
# Which blocks are marked?

A mark is set after the write of the block, and an exception of the write keeps it from
being set.  So the marks of a record are the blocks that were written completely since
the record was made, whatever came between.
-/

namespace Multisync

open ByteLayout Effects BlockAssembly Temporal

/-- The write of the payload at the block puts all of it into the file that the record
holds. -/
def SyncStatus.WritesAll (env : Environment) (number : ℕ) (payload : Bytes)
    (files : FileStore Bytes) (status : SyncStatus) : Prop :=
  ∃ file, status.output.file = some file ∧
    (status.output.seekp (blockSize * number)).write payload env.writeLimit files =
      (⟨some file, blockSize * number + payload.length, false⟩,
        files.write file (blockSize * number) payload)

namespace Handling

variable (order : ByteOrder) (info : FileInfo) (handling : Handling)

/-- The call makes a record for the file. -/
def Creates : Prop := ∃ temp, handling.Notes order (.created info temp)

/-- The message is a block of the file, and the call writes it completely to the output
of the record that it finds or makes. -/
structure WritesBlock (number : ℕ) : Prop where
  block : handling.message.getType order = MessageType.block.code ∧
    ∃ block, handling.message.getMetadata order BlockInfo = .ok block ∧
      block.fileInfo = info ∧ (block.getBlock order).toNat = number
  written : ∃ base mid payload,
    BlockClient.Holding order handling.env info handling.address handling.client base mid ∧
      base.blockArray[number]? = some false ∧
      handling.message.getText order = .ok payload ∧
      base.WritesAll handling.env number payload mid.files

end Handling

/-- The record has a mark for each block and counts those that are missing, and a block
is marked when a message has been written completely since the record was made. -/
structure SyncStatus.Accounted (order : ByteOrder) (info : FileInfo)
    (past : List Handling) (status : SyncStatus) : Prop where
  length : status.blockArray.length = (info.getBlockCount order).toNat
  remaining : status.remainingBlocks = status.blockArray.count false
  marks : ∀ number, status.blockArray[number]? = some true ↔
    Since (fun handling => ¬ handling.Creates order info)
      (fun handling => handling.WritesBlock order info number) past

/-- The states that calls of the handlers lead to, whether they return or throw. -/
inductive BlockClient.Led (order : ByteOrder) (initial : BlockClient) :
    BlockClient → List Handling → Prop
  | start : Led order initial initial []
  | other {client client' : BlockClient} {past : List Handling}
      (hled : Led order initial client past) (hsame : SameRecords client client') :
      Led order initial client' past
  | handled {past : List Handling} (handling : Handling)
      (hled : Led order initial handling.client past) :
      Led order initial (handling.after order) (handling :: past)

/-- A write that does not fail is complete. -/
theorem SyncStatus.writesAll_iff {env : Environment} {number : ℕ}
    (hnumber : number < 2 ^ 32) {payload : Bytes} {state : StatusState} :
    state.status.WritesAll env number payload state.files ↔
      (wrote env number payload state).status.output.failed = false := by
  have hposition : blockSize * number % 2 ^ 64 = blockSize * number := by
    rw [blockSize, Nat.mod_eq_of_lt (by omega)]
  rw [WritesAll, wrote, hposition]
  constructor
  · rintro ⟨file, _, hwrite⟩
    rw [hwrite]
  · intro hhealthy
    cases hfile : state.status.output.file with
    | none =>
        rw [OutStream.seekp_write_closed (Or.inr hfile)] at hhealthy
        contradiction
    | some file =>
        refine ⟨file, rfl, ?_⟩
        cases hfailed : state.status.output.failed with
        | true =>
            rw [OutStream.seekp_write_closed (Or.inl hfailed)] at hhealthy
            contradiction
        | false =>
            rw [OutStream.seekp_write_limit hfile hfailed] at hhealthy ⊢
            have hlimit : env.writeLimit = none := by simpa using hhealthy
            rw [hlimit, Option.getD_none, List.take_length, Option.isSome_none]

/-- What a block does to the marks. -/
theorem SyncStatus.writeBlock_marks {order : ByteOrder} (env : Environment) {number : ℕ}
    (hnumber : number < 2 ^ 32) (message : Message) (state : StatusState) (other : ℕ) :
    (endState (writeBlock order env number message state)).status.blockArray[other]? =
        some true ↔
      state.status.blockArray[other]? = some true ∨
        other = number ∧ state.status.blockArray[number]? = some false ∧
          ∃ payload, message.getText order = .ok payload ∧
            state.status.WritesAll env number payload state.files := by
  rw [writeBlock_apply]
  cases hmark : state.status.blockArray[number]? with
  | none => simp
  | some mark =>
      cases mark with
      | true => simp
      | false =>
          cases htext : message.getText order with
          | error fault => simp
          | ok payload =>
              have hwrites := @writesAll_iff env number hnumber payload state
              have hexists : (∃ found, (Except.ok payload : Except Fault Bytes) = .ok found ∧
                  state.status.WritesAll env number found state.files) ↔
                    (wrote env number payload state).status.output.failed = false := by
                simp [hwrites]
              simp only [hexists, true_and]
              cases hfailed : (wrote env number payload state).status.output.failed with
              | true => simp [wrote]
              | false =>
                  have hlt : number < state.status.blockArray.length :=
                    (List.getElem?_eq_some_iff.mp hmark).1
                  simp only [Bool.false_eq_true, if_false, endState_ok, marked, wrote,
                    and_true]
                  by_cases hother : other = number
                  · subst hother
                    simp [hlt]
                  · simp [List.getElem?_set_ne (Ne.symm hother), hother]

namespace BlockClient

variable {order : ByteOrder} {info : FileInfo} {handling : Handling}
  {client mid final : BlockClient} {status base : SyncStatus} {past : List Handling}

/-- What a message does to the marks before the first question. -/
theorem Works.marks {env : Environment} {message : Message} {state state' : StatusState}
    (hworks : Works order env message state state') (number : ℕ) :
    state'.status.blockArray[number]? = some true ↔
      state.status.blockArray[number]? = some true ∨
        (message.getType order = MessageType.block.code ∧
          ∃ block, message.getMetadata order BlockInfo = .ok block ∧
            (block.getBlock order).toNat = number) ∧
        state.status.blockArray[number]? = some false ∧
        ∃ payload, message.getText order = .ok payload ∧
          state.status.WritesAll env number payload state.files := by
  cases hworks with
  | @announced text htype htext =>
      simp [SyncStatus.setPath, htype]
  | @wrote block htype hblock =>
      have hnumber : (message.getType order = MessageType.block.code ∧
          ∃ found, message.getMetadata order BlockInfo = .ok found ∧
            (found.getBlock order).toNat = number) ↔
              number = (block.getBlock order).toNat := by
        rw [hblock]
        simp [htype, eq_comm]
      rw [SyncStatus.writeBlock_marks env (block.getBlock order).toNat_lt, hnumber]
      refine or_congr_right (and_congr_right fun heq => ?_)
      rw [heq]

theorem Holding.unique {env : Environment} {address : Address} {status' : SyncStatus}
    {mid' : BlockClient} (hholding : Holding order env info address client status mid)
    (hholding' : Holding order env info address client status' mid') :
    status' = status ∧ mid' = mid := by
  have hget := hholding.getSyncStatus
  rw [hholding'.getSyncStatus] at hget
  cases hget
  have hfind := hholding.find?
  rw [hholding'.find?] at hfind
  cases hfind
  exact ⟨rfl, rfl⟩

/-- The record `status` is `base` with what the call writes to it. -/
structure MarkedBy (order : ByteOrder) (info : FileInfo) (handling : Handling)
    (base status : SyncStatus) (held final : BlockClient) : Prop where
  holding : Holding order handling.env info handling.address handling.client base held
  trace : final.trace = held.trace
  marks : ∀ number, status.blockArray[number]? = some true ↔
    base.blockArray[number]? = some true ∨ handling.WritesBlock order info number

theorem MarkedBy.of_unwritten {held : BlockClient}
    (hholding : Holding order handling.env info handling.address handling.client base held)
    (htype : handling.message.getType order ≠ MessageType.block.code) :
    MarkedBy order info handling base base held held := by
  refine ⟨hholding, rfl, fun number => ?_⟩
  exact (or_iff_left fun hwrites : handling.WritesBlock order info number =>
    htype hwrites.block.1).symm

theorem MarkedBy.of_works {held : BlockClient} {state : StatusState}
    (hholding : Holding order handling.env info handling.address handling.client base held)
    (hinfo : handling.message.fileInfo? order = some info)
    (hworks : Works order handling.env handling.message ⟨base, held.files, []⟩ state) :
    MarkedBy order info handling base state.status held (held.putStatus info state) := by
  refine ⟨hholding, by simp [putStatus, hworks.keeps.2.2], fun number => ?_⟩
  rw [hworks.marks number]
  refine or_congr_right ⟨?_, ?_⟩
  · rintro ⟨⟨htype, block, hblock, hnumber⟩, hmark, payload, htext, hall⟩
    have habout := Message.fileInfo?_of_block htype hblock
    rw [hinfo] at habout
    exact ⟨⟨htype, block, hblock, (Option.some.inj habout).symm, hnumber⟩,
      base, held, payload, hholding, hmark, htext, hall⟩
  · rintro ⟨⟨htype, block, hblock, _, hnumber⟩, found, mid, payload, hfound, hmark, htext,
      hall⟩
    obtain ⟨rfl, rfl⟩ := hholding.unique hfound
    exact ⟨⟨htype, block, hblock, hnumber⟩, hmark, payload, htext, hall⟩

/-- What a call has done to the record before the first question. -/
theorem prepare_markedBy (hinfo : handling.message.fileInfo? order = some info)
    (hfind : (endState (prepare order handling.env handling.message handling.address info
      handling.client)).syncSet.find? info = some status) :
    ∃ base held, MarkedBy order info handling base status held
      (endState (prepare order handling.env handling.message handling.address info
        handling.client)) := by
  unfold prepare at hfind ⊢
  cases hget : BlockClient.getSyncStatus order handling.env info handling.address
      handling.client with
  | error fault mid =>
      rw [bind_of_error hget, endState_error] at hfind
      obtain ⟨hsame, hnone, _⟩ := getSyncStatus_eq_error hget
      rw [hsame, hnone] at hfind
      contradiction
  | ok value held =>
      obtain ⟨base, hholding⟩ := Holding.of_getSyncStatus hget
      have hrecord : ∀ {α : Type} (program : EStateM Fault StatusState α),
          (endState (onStatus info program held)).syncSet.find? info = some status →
            status = (endState (program ⟨base, held.files, []⟩)).status := by
        intro α program hfound
        rw [endState_onStatus hholding.find?, find?_putStatus_self hholding.find?] at hfound
        exact (Option.some.inj hfound).symm
      have hunwritten : handling.message.getType order ≠ MessageType.block.code →
          held.syncSet.find? info = some status →
            ∃ base held', MarkedBy order info handling base status held' held := by
        intro htype hfound
        rw [hholding.find?] at hfound
        cases hfound
        exact ⟨_, held, .of_unwritten hholding htype⟩
      rw [bind_of_ok hget] at hfind ⊢
      split_ifs at hfind ⊢ with htype hblock
      · cases htext : handling.message.getText order with
        | error fault =>
            rw [htext] at hfind
            exact hunwritten (by simp [htype]) hfind
        | ok text =>
            rw [htext, ofResult_bind_of_ok rfl] at hfind
            rw [ofResult_bind_of_ok rfl, endState_onStatus hholding.find?, hrecord _ hfind]
            exact ⟨base, held, .of_works hholding hinfo (.announced htype htext)⟩
      · obtain ⟨block, hmetadata, _⟩ := Message.exists_block hinfo hblock
        rw [hmetadata, ofResult_bind_of_ok rfl] at hfind
        rw [hmetadata, ofResult_bind_of_ok rfl, endState_onStatus hholding.find?,
          hrecord _ hfind]
        exact ⟨base, held, .of_works hholding hinfo (.wrote hblock hmetadata)⟩
      · exact hunwritten hblock hfind

/-- The rest of a call leaves the marks, and makes no record. -/
theorem Concluded.marks {env : Environment} {message : Message} {status' : SyncStatus}
    (hconcluded : Concluded order env message info status mid final)
    (hfind : mid.syncSet.find? info = some status)
    (hfinal : final.syncSet.find? info = some status') :
    status'.blockArray = status.blockArray ∧
      ∃ events, final.trace = mid.trace ++ events ∧
        ∀ temp, .created info temp ∉ events := by
  have hgone : ∀ client : BlockClient,
      (client.erased info).syncSet.find? info ≠ some status' := by
    intro client hfound
    rw [erased, OrderedMap.find?_erase_self] at hfound
    contradiction
  cases hconcluded with
  | idle _ =>
      rw [hfind] at hfinal
      cases hfinal
      exact ⟨rfl, [], by simp, by simp⟩
  | finished _ _ => exact absurd hfinal (hgone _)
  | answered _ _ n _ =>
      rw [find?_acknowledge (find?_publish hfind _)] at hfinal
      cases hfinal
      refine ⟨rfl, (SyncStatus.published env.first
        ⟨status, mid.files, []⟩).publications.map (ClientEvent.published info) ++
          List.replicate n (.answered info status.serverAddress), ?_, ?_⟩
      · rw [acknowledge, publish_trace, List.append_assoc]
        rfl
      · simp [List.mem_replicate]
  | ended _ _ _ _ _ => exact absurd hfinal (hgone _)

/-- A record that a call finds was there, and one that it makes is noted. -/
theorem Holding.creates {held : BlockClient} {events : List ClientEvent}
    (hholding : Holding order handling.env info handling.address handling.client base held)
    (htrace : (handling.after order).trace = held.trace ++ events)
    (hevents : ∀ temp, .created info temp ∉ events) :
    handling.Creates order info ↔ handling.client.syncSet.find? info = none := by
  cases hholding with
  | found hfind =>
      rw [hfind]
      refine iff_of_false ?_ (Option.some_ne_none _)
      rintro ⟨temp, hnotes⟩
      have hcreated := (@Handling.notes_iff order handling [] events _ htrace).mp hnotes
      exact hevents temp hcreated
  | made hnone _ =>
      refine iff_of_true ⟨base.temp, ?_⟩ hnone
      rw [created, List.append_assoc] at htrace
      rw [Handling.notes_iff htrace]
      simp

end BlockClient

/-- What a call about a file leaves of its record. -/
theorem Handling.marks_after {order : ByteOrder} {info : FileInfo} {handling : Handling}
    {status : SyncStatus} (hinfo : handling.message.fileInfo? order = some info)
    (hfind : (handling.after order).syncSet.find? info = some status) :
    ∃ base, handling.Base order info base ∧
      (handling.Creates order info ↔ handling.client.syncSet.find? info = none) ∧
      ∀ number, status.blockArray[number]? = some true ↔
        base.blockArray[number]? = some true ∨ handling.WritesBlock order info number := by
  obtain hsame | ⟨mid, before, hprepare, hbefore, hconcluded⟩ :=
    @BlockClient.handle_outcome order handling.env handling.message handling.address info
      handling.client hinfo
  · have hfound := hfind
    rw [Handling.after, hsame] at hfound
    obtain ⟨base, held, hmarked⟩ := BlockClient.prepare_markedBy hinfo hfound
    have htrace : (handling.after order).trace = held.trace ++ [] := by
      rw [List.append_nil, ← hmarked.trace, Handling.after, hsame]
    exact ⟨base, ⟨held, hmarked.holding⟩, hmarked.holding.creates htrace (by simp),
      hmarked.marks⟩
  · have hprepared := @BlockClient.prepare_markedBy order info handling before hinfo
    rw [hprepare, endState_ok] at hprepared
    obtain ⟨base, held, hmarked⟩ := hprepared hbefore
    obtain ⟨harray, events, hevents, hnone⟩ := hconcluded.marks hbefore hfind
    refine ⟨base, ⟨held, hmarked.holding⟩, ?_, fun number => ?_⟩
    · exact hmarked.holding.creates (hmarked.trace ▸ hevents) hnone
    · rw [harray]
      exact hmarked.marks number

namespace BlockClient

variable {order : ByteOrder} {client initial : BlockClient} {past : List Handling}

/-- The marks of every record are the blocks written since it was made. -/
def MarksWritten (order : ByteOrder) (past : List Handling) (client : BlockClient) : Prop :=
  ∀ info status, client.syncSet.find? info = some status → ∀ number,
    status.blockArray[number]? = some true ↔
      Since (fun handling => ¬ handling.Creates order info)
        (fun handling => handling.WritesBlock order info number) past

theorem MarksWritten.handled {handling : Handling}
    (hmarks : handling.client.MarksWritten order past) :
    (handling.after order).MarksWritten order (handling :: past) := by
  intro info status hfind number
  rw [since_cons]
  by_cases hinfo : handling.message.fileInfo? order = some info
  · obtain ⟨base, ⟨held, hholding⟩, hcreates, hmarked⟩ := Handling.marks_after hinfo hfind
    rw [hmarked number, hcreates, or_comm]
    refine or_congr_right ?_
    cases hholding with
    | found hfound =>
        rw [and_iff_right (by rw [hfound]; exact Option.some_ne_none base)]
        exact hmarks info base hfound number
    | made hnone hcreate =>
        obtain ⟨_, hstatus, _⟩ := SyncStatus.create_eq_ok hcreate
        refine iff_of_false ?_ fun h => h.1 hnone
        simp [hstatus, List.getElem?_replicate]
  · obtain ⟨hrecord, hevents⟩ := Handling.kept hinfo
    rw [hrecord] at hfind
    have hcreates : ¬ handling.Creates order info := fun ⟨_, hnotes⟩ =>
      hevents _ hnotes rfl
    have hwrites : ¬ handling.WritesBlock order info number := by
      rintro ⟨⟨htype, block, hblock, rfl, _⟩, _⟩
      exact hinfo (Message.fileInfo?_of_block htype hblock)
    rw [or_iff_right hwrites, and_iff_right hcreates]
    exact hmarks info status hfind number

theorem Led.invariant (hled : Led order initial client past)
    (hempty : initial.syncSet = OrderedMap.empty) :
    client.Counted order ∧ client.MarksWritten order past := by
  induction hled with
  | start =>
      refine ⟨Counted.of_empty hempty, fun info status hfind => ?_⟩
      rw [hempty, OrderedMap.find?_empty] at hfind
      contradiction
  | other hled hsame ih =>
      obtain ⟨socket, queue, rfl⟩ := hsame
      exact ih
  | handled handling hled ih =>
      exact ⟨handle_counted.endState ih.1, ih.2.handled⟩

/-- In every state that messages lead a client to, each entry has a mark for each block,
counts the missing ones, and has marked exactly the blocks written since it was made. -/
theorem accounted_of_led {group : UInt32} {port : UInt16} {pid id : UInt32}
    {files : FileStore Bytes} {info : FileInfo} {status : SyncStatus}
    (hled : Led order (create order group port pid id files) client past)
    (hfind : client.syncSet.find? info = some status) :
    status.Accounted order info past := by
  obtain ⟨hcounted, hmarks⟩ := hled.invariant rfl
  obtain ⟨hlength, hremaining⟩ := hcounted info status hfind
  exact ⟨hlength, hremaining, hmarks info status hfind⟩

end BlockClient

/-- The runs of a client lead to the states they go through. -/
theorem ClientRun.Observed.led {order : ByteOrder} {client : BlockClient} {run : ClientRun}
    {past : List Handling} (hrun : Observed order client run past) :
    BlockClient.Led order client run.client past := by
  apply hrun.holds
  · exact .start
  · exact fun _ _ _ hsame hled => hled.other hsame
  · exact fun handling past hled => hled.handled handling

/-- The history of a client that has got the second of two blocks. -/
def halfwayPast : List Handling :=
  (startedClient.handling? .little
    (readInput (Message.withText .little 9 MessageType.block.code
      (BlockInfo.ofBlock .little twoBlockFile 1) [5]))).toList ++ []

theorem halfwayClient_accounted :
    ∃ status, halfwayClient.client.syncSet.find? twoBlockFile = some status ∧
      status.blockArray = [false, true] ∧
        status.Accounted .little twoBlockFile halfwayPast := by
  have hobserved : ClientRun.Observed .little
      (BlockClient.create .little 0 9000 7 5 FileStore.empty) halfwayClient halfwayPast :=
    .step (.start 0 none) _
  have hsome : (halfwayClient.client.syncSet.find? twoBlockFile).map
      SyncStatus.blockArray = some [false, true] := by
    decide +kernel
  obtain ⟨status, hfind, hmarks⟩ := Option.map_eq_some_iff.mp hsome
  exact ⟨status, hfind, hmarks, BlockClient.accounted_of_led hobserved.led hfind⟩

end Multisync
