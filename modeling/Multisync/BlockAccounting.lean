import Multisync.BlockAssembly
import Multisync.MessageFormats
import Multisync.Robustness
import Mathlib.Tactic

/-!
# Are the marks counted, and accessed in range?

Whatever the operations on files do, a record has a mark for each block of its file
and counts those that are missing.  The number of a block comes from the message and
the number of marks from the file it names, and nothing compares the two; the digest
of a message is read as a C string when a record is made.
-/

namespace Multisync

open ByteLayout Effects BlockAssembly

/-- A mark for each block, and the number of the missing ones. -/
structure SyncStatus.Counted (count : ℕ) (status : SyncStatus) : Prop where
  length : status.blockArray.length = count
  remaining : status.remainingBlocks = status.blockArray.count false

/-- Every program a handler runs keeps the marks counted, also when it throws. -/
theorem RecordProgram.counted {order : ByteOrder} {env : Environment} {message : Message}
    {count : ℕ} {α : Type} {program : EStateM Fault StatusState α}
    (hprogram : RecordProgram order env message program) (hcount : count < 2 ^ 64)
    {state : StatusState} (hcounted : state.status.Counted count) :
    (endState (program state)).status.Counted count := by
  have hpublished : ∀ outcome, (SyncStatus.published outcome state).status.Counted count := by
    intro outcome
    constructor
    · simpa [SyncStatus.published] using hcounted.length
    · simpa [SyncStatus.published] using hcounted.remaining
  cases hprogram with
  | setPath htype htext => exact ⟨hcounted.length, hcounted.remaining⟩
  | @writeBlock block htype hblock =>
      rw [SyncStatus.writeBlock_apply]
      cases hmark : state.status.blockArray[(block.getBlock order).toNat]? with
      | none => exact hcounted
      | some mark =>
          cases mark with
          | true => exact hcounted
          | false =>
              cases message.getText order with
              | error fault => exact ⟨hcounted.length, hcounted.remaining⟩
              | ok payload =>
                  obtain ⟨hset, hpos⟩ := count_set_true hmark
                  have hle : state.status.blockArray.count false ≤
                      state.status.blockArray.length := List.count_le_length
                  simp only
                  split_ifs
                  · exact ⟨hcounted.length, hcounted.remaining⟩
                  · constructor
                    · simp only [endState_ok, SyncStatus.marked, SyncStatus.wrote,
                        List.length_set]
                      exact hcounted.length
                    · simp only [endState_ok, SyncStatus.marked, SyncStatus.wrote]
                      rw [hset, hcounted.remaining, decrement_of_pos hpos]
                      rw [hcounted.length] at hle
                      omega
  | setGoodbyeReceived => exact ⟨hcounted.length, hcounted.remaining⟩
  | transferComplete =>
      rw [SyncStatus.transferComplete_apply]
      split_ifs
      · exact hpublished env.first
      · exact hcounted
  | @syncComplete outcome houtcome =>
      rw [SyncStatus.syncComplete_apply]
      split_ifs
      · exact hpublished outcome
      · exact hcounted

namespace BlockClient

variable {order : ByteOrder} {env : Environment} {message : Message} {address : Address}
  {client : BlockClient} {info : FileInfo}

/-- The marks of every record are counted. -/
def Counted (order : ByteOrder) (client : BlockClient) : Prop :=
  ∀ info status, client.syncSet.find? info = some status →
    status.Counted (info.getBlockCount order).toNat

theorem handle_counted :
    Keeps (Counted order) (Counted order) (handle order env message address) := by
  apply handle_steps
  · exact fun _ hclient => hclient
  · intro client info status files hclient _ hnone hcreate
    refine OrderedMap.forall_insert hnone (fun other found _ => hclient other found) ?_
    obtain ⟨_, rfl, _⟩ := SyncStatus.create_eq_ok hcreate
    exact ⟨List.length_replicate, List.count_replicate_self.symm⟩
  · intro client info status α program hclient _ hfind hprogram
    refine OrderedMap.forall_replace hfind (fun other found _ => hclient other found) ?_
    have hlt := (info.getBlockCount order).toNat_lt
    exact hprogram.counted (by omega) (hclient info status hfind)
  · exact fun _ _ hclient _ => hclient
  · intro client info hclient _
    exact OrderedMap.forall_erase fun other found _ => hclient other found

theorem Counted.of_empty (hempty : client.syncSet = OrderedMap.empty) :
    client.Counted order := by
  intro info status hfind
  rw [hempty, OrderedMap.find?_empty] at hfind
  contradiction

/-- The marks are counted in every state that a client reaches. -/
theorem Counted.of_reachable {run : ClientRun} (hempty : client.syncSet = OrderedMap.empty)
    (hrun : ClientRun.Reachable order client run) : run.client.Counted order :=
  hrun.keeps_of_handle (Counted.of_empty hempty) (fun _ _ _ hclient => hclient)
    fun _ _ _ => handle_counted

/-! ## Accesses -/

/-- The handler of the message stays within its data: the digest that is read to make a
record ends in its array, the block that is looked up has a mark, and when it is
written there is one left to count down. -/
structure StaysInside (order : ByteOrder) (env : Environment) (message : Message)
    (address : Address) (client : BlockClient) : Prop where
  digest : ∀ info, message.fileInfo? order = some info →
    client.syncSet.find? info = none → 0 ∈ info.digest
  marks : ∀ block mid status, message.getType order = MessageType.block.code →
    message.getMetadata order BlockInfo = .ok block →
    getSyncStatus order env block.fileInfo address client = .ok () mid →
    mid.syncSet.find? block.fileInfo = some status →
      (block.getBlock order).toNat < status.blockArray.length
  remaining : ∀ block mid status, message.getType order = MessageType.block.code →
    message.getMetadata order BlockInfo = .ok block →
    getSyncStatus order env block.fileInfo address client = .ok () mid →
    mid.syncSet.find? block.fileInfo = some status →
    status.blockArray[(block.getBlock order).toNat]? = some false →
      0 < status.remainingBlocks

/-- The record of the file a message names has a mark for each block of it. -/
theorem Counted.getSyncStatus (hcounted : client.Counted order) {mid : BlockClient}
    (hok : getSyncStatus order env info address client = .ok () mid) :
    ∃ status, mid.syncSet.find? info = some status ∧
      status.Counted (info.getBlockCount order).toNat := by
  rcases getSyncStatus_eq_ok hok with ⟨status, hfind, rfl⟩ | ⟨status, files, hnone, hcreate, rfl⟩
  · exact ⟨status, hfind, hcounted info status hfind⟩
  · obtain ⟨_, hstatus, _⟩ := SyncStatus.create_eq_ok hcreate
    refine ⟨status, OrderedMap.find?_insert_self _ hnone, ?_⟩
    rw [hstatus]
    exact ⟨List.length_replicate, List.count_replicate_self.symm⟩

theorem StaysInside.number_lt (hcounted : client.Counted order)
    (hinside : client.StaysInside order env message address) {block : BlockInfo}
    (htype : message.getType order = MessageType.block.code)
    (hblock : message.getMetadata order BlockInfo = .ok block)
    (hhold : client.CanHold block.fileInfo) :
    block.getBlock order < block.fileInfo.getBlockCount order := by
  obtain ⟨mid, hmid⟩ : ∃ mid,
      BlockClient.getSyncStatus order env block.fileInfo address client = .ok () mid :=
    getSyncStatus_returns hhold
  obtain ⟨status, hfind, hlength, _⟩ := hcounted.getSyncStatus hmid
  have hlt := hinside.marks block mid status htype hblock hmid hfind
  rw [hlength] at hlt
  exact UInt32.lt_iff_toNat_lt.mpr hlt

/-- The handlers stay within their data when a new digest has its NUL, and the number
of a block is one of its file. -/
theorem staysInside_iff {group : UInt32} {port : UInt16} {pid id : UInt32}
    {files : FileStore Bytes} {run : ClientRun}
    (hrun : ClientRun.Reachable order
      (BlockClient.create order group port pid id files) run) :
    run.client.StaysInside order env message address ↔
      (∀ info, message.fileInfo? order = some info → run.client.CanHold info) ∧
      ∀ block, message.getType order = MessageType.block.code →
        message.getMetadata order BlockInfo = .ok block →
          block.getBlock order < block.fileInfo.getBlockCount order := by
  have hcounted : run.client.Counted order := Counted.of_reachable rfl hrun
  have hdigest : (∀ info, message.fileInfo? order = some info →
      run.client.syncSet.find? info = none → 0 ∈ info.digest) ↔
        ∀ info, message.fileInfo? order = some info → run.client.CanHold info := by
    refine forall₂_congr fun info _ => ?_
    cases hfind : run.client.syncSet.find? info with
    | none => simp [CanHold, hfind]
    | some status => simp [CanHold, hfind]
  constructor
  · intro hinside
    have hhold := hdigest.mp hinside.digest
    exact ⟨hhold, fun block htype hblock => hinside.number_lt hcounted htype hblock
      (hhold _ (Message.fileInfo?_of_block htype hblock))⟩
  · rintro ⟨hhold, hnumber⟩
    refine ⟨hdigest.mpr hhold, ?_, ?_⟩
    · intro block mid status htype hblock hmid hfind
      obtain ⟨found, hfound, hlength, _⟩ := hcounted.getSyncStatus hmid
      cases hfind.symm.trans hfound
      rw [hlength]
      exact UInt32.lt_iff_toNat_lt.mp (hnumber block htype hblock)
    · intro block mid status htype hblock hmid hfind hmark
      obtain ⟨found, hfound, _, hremaining⟩ := hcounted.getSyncStatus hmid
      cases hfind.symm.trans hfound
      rw [hremaining]
      exact (count_set_true hmark).2

end BlockClient

/-- A client that has only been started. -/
def startedClient : ClientRun :=
  ClientRun.start .little 0 none (BlockClient.create .little 0 9000 7 5 FileStore.empty)

theorem startedClient_reachable : ClientRun.Reachable .little
    (BlockClient.create .little 0 9000 7 5 FileStore.empty) startedClient :=
  .start 0 none

/-- Some block of a file that has one block. -/
def numberedBlock (number : UInt32) : Message :=
  Message.withMetadata .little 9 MessageType.block.code
    (BlockInfo.ofBlock .little sampleFile number)

theorem numberedBlock_staysInside_iff :
    startedClient.client.StaysInside .little (Environment.plain [116] false)
        (numberedBlock 0) ⟨1, 2⟩ ↔
      (∀ info, (numberedBlock 0).fileInfo? .little = some info →
        startedClient.client.CanHold info) ∧
      ∀ block, (numberedBlock 0).getType .little = MessageType.block.code →
        (numberedBlock 0).getMetadata .little BlockInfo = .ok block →
          block.getBlock .little < block.fileInfo.getBlockCount .little :=
  BlockClient.staysInside_iff startedClient_reachable

/-- Block 1 is looked up among one mark. -/
theorem numberedBlock_not_staysInside :
    ClientRun.Reachable .little (BlockClient.create .little 0 9000 7 5 FileStore.empty)
      startedClient ∧
    (numberedBlock 1).Framed .little ∧
    (numberedBlock 1).getType .little = MessageType.block.code ∧
    (numberedBlock 1).getMetadata .little BlockInfo =
      .ok (BlockInfo.ofBlock .little sampleFile 1) ∧
    ¬ startedClient.client.StaysInside .little (Environment.plain [116] false)
      (numberedBlock 1) ⟨1, 2⟩ := by
  have hframed : (numberedBlock 1).Framed .little := by
    decide +kernel
  have htype : (numberedBlock 1).getType .little = MessageType.block.code := by
    decide +kernel
  have hblock : (numberedBlock 1).getMetadata .little BlockInfo =
      .ok (BlockInfo.ofBlock .little sampleFile 1) := by
    decide +kernel
  refine ⟨startedClient_reachable, hframed, htype, hblock, fun hinside => ?_⟩
  have hcounted : startedClient.client.Counted .little :=
    BlockClient.Counted.of_reachable rfl startedClient_reachable
  have hlt := hinside.number_lt hcounted htype hblock (Or.inr (by decide))
  exact absurd hlt (by decide)

end Multisync
