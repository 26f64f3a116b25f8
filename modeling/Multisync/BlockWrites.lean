import Multisync.BlockAccounting
import Multisync.Records
import Mathlib.Tactic

/-!
# What does writing a block touch?

The client writes as many bytes as the datagram brought, at the place of the block.
What goes beyond the size of a block lands on the next ones, whether they are marked
or not; no other byte of the file changes.
-/

namespace Multisync

open ByteLayout Effects

/-- Of the second content only the bytes of the block differ from the first, and those
of a gap before it that was filled with zeros. -/
structure OnlyBlock (number : ℕ) (before after : Bytes) : Prop where
  below : ∀ k < blockSize * number,
    after[k]? = before[k]? ∨ before.length ≤ k ∧ after[k]? = some 0
  above : ∀ k, blockSize * (number + 1) ≤ k → after[k]? = before[k]?

/-- Laying bytes at a block changes only the block when the rest of them is there. -/
theorem onlyBlock_overlay_iff {number : ℕ} {content bytes : Bytes} :
    OnlyBlock number content (overlay content (blockSize * number) bytes) ↔
      ∀ j, blockSize ≤ j → j < bytes.length →
        content[blockSize * number + j]? = bytes[j]? := by
  constructor
  · intro honly j hge hlt
    rw [← getElem?_overlay_mid hlt, ← honly.above _ (by rw [Nat.mul_succ]; omega)]
  · intro hrest
    constructor
    · intro k hk
      by_cases hnil : bytes = []
      · rw [hnil, overlay_nil]
        exact Or.inl rfl
      · rcases Nat.lt_or_ge k content.length with hlt | hge
        · exact Or.inl (getElem?_overlay_before hk hlt)
        · exact Or.inr ⟨hge, getElem?_overlay_gap hnil hk hge⟩
    · intro k hk
      rw [Nat.mul_succ] at hk
      rcases Nat.lt_or_ge k (blockSize * number + bytes.length) with hlt | hge
      · obtain ⟨j, rfl⟩ : ∃ j, k = blockSize * number + j := ⟨k - blockSize * number, by omega⟩
        rw [getElem?_overlay_mid (by omega), hrest j (by omega) (by omega)]
      · exact getElem?_overlay_after hge

/-- The bytes that reach the file when a block is to be written. -/
def SyncStatus.written (env : Environment) (number : ℕ) (payload : Bytes)
    (status : SyncStatus) : Bytes :=
  if status.blockArray[number]? = some false ∧ status.output.failed = false then
    payload.take (env.writeLimit.getD payload.length)
  else []

/-- What becomes of the file that a record holds open when a block is to be written. -/
theorem SyncStatus.endState_writeBlock {order : ByteOrder} (env : Environment)
    {number file : ℕ} (hnumber : number < 2 ^ 32) {message : Message} {payload : Bytes}
    {state : StatusState} (hfile : state.status.output.file = some file)
    (htext : message.getText order = .ok payload) :
    (endState (writeBlock order env number message state)).files.contents =
      Function.update state.files.contents file
        (overlay (state.files.contents file) (blockSize * number)
          (state.status.written env number payload)) := by
  have hposition : blockSize * number % 2 ^ 64 = blockSize * number := by
    rw [blockSize, Nat.mod_eq_of_lt (by omega)]
  have hnothing : state.status.written env number payload = [] →
      state.files.contents = Function.update state.files.contents file
        (overlay (state.files.contents file) (blockSize * number)
          (state.status.written env number payload)) := by
    intro hnil
    rw [hnil, overlay_nil, Function.update_eq_self]
  rw [writeBlock_apply, hposition, htext]
  cases hmark : state.status.blockArray[number]? with
  | none => exact hnothing (by simp [written, hmark])
  | some mark =>
      cases mark with
      | true => exact hnothing (by simp [written, hmark])
      | false =>
          have hwrote : (endState (if (wrote env number payload state).status.output.failed =
                true then
              EStateM.Result.error (Fault.writeFailed env.error)
                (wrote env number payload state)
            else EStateM.Result.ok () (marked number (wrote env number payload state)))).files =
              (wrote env number payload state).files := by
            split_ifs <;> rfl
          simp only [hwrote]
          cases hfailed : state.status.output.failed with
          | true =>
              rw [wrote, OutStream.seekp_write_closed (Or.inl hfailed)]
              exact hnothing (by simp [written, hfailed])
          | false =>
              rw [wrote, hposition, OutStream.seekp_write_limit hfile hfailed, written,
                if_pos ⟨hmark, hfailed⟩]
              rfl

/-- Without a file or a payload nothing is written. -/
theorem SyncStatus.endState_writeBlock_of_none {order : ByteOrder} (env : Environment)
    (number : ℕ) {message : Message} {state : StatusState}
    (hnone : state.status.output.file = none ∨
      ∀ payload, message.getText order ≠ .ok payload) :
    (endState (writeBlock order env number message state)).files.contents =
      state.files.contents := by
  rw [writeBlock_apply]
  split
  · rfl
  · rfl
  · split
    · rfl
    · next payload htext =>
        have hclosed := hnone.resolve_right fun hall => hall payload htext
        have hfiles : (wrote env number payload state).files = state.files := by
          rw [wrote, OutStream.seekp_write_closed (Or.inr hclosed)]
        split_ifs
        · exact congrArg FileStore.contents hfiles
        · exact congrArg FileStore.contents hfiles

/-- A block is written to no file but that of the record. -/
theorem SyncStatus.endState_writeBlock_others {order : ByteOrder} (env : Environment)
    {number : ℕ} (hlt : number < 2 ^ 32) {message : Message} {state : StatusState}
    {file : ℕ} (hne : state.status.output.file ≠ some file) :
    (endState (writeBlock order env number message state)).files.contents file =
      state.files.contents file := by
  cases hopen : state.status.output.file with
  | none => rw [endState_writeBlock_of_none env _ (Or.inl hopen)]
  | some other =>
      cases htext : message.getText order with
      | error fault =>
          rw [endState_writeBlock_of_none env _
            (Or.inr fun payload hok => by simp [htext] at hok)]
      | ok payload =>
          rw [endState_writeBlock env hlt hopen htext]
          exact Function.update_of_ne (fun heq => hne (by rw [hopen, heq])) _ _

/-- Publishing moves a file, and changes no content. -/
theorem SyncStatus.published_contents (outcome : PublishOutcome) (state : StatusState) :
    (published outcome state).files.contents = state.files.contents := by
  rcases renameTemp_files outcome.renamed { state with status := { state.status with
      output := state.status.output.close outcome.closed } } with hsame | hrenamed
  · rw [published, hsame]
  · rw [published, hrenamed, FileStore.rename_contents]

/-- Only the program of a block writes. -/
theorem RecordProgram.contents {order : ByteOrder} {env : Environment} {message : Message}
    {α : Type} {program : EStateM Fault StatusState α}
    (hprogram : RecordProgram order env message program)
    (htype : message.getType order ≠ MessageType.block.code) (state : StatusState) :
    (endState (program state)).files.contents = state.files.contents := by
  cases hprogram with
  | setPath => rfl
  | writeBlock hblock => exact absurd hblock htype
  | setGoodbyeReceived => rfl
  | transferComplete =>
      rw [SyncStatus.transferComplete_apply]
      split_ifs
      · exact SyncStatus.published_contents env.first state
      · rfl
  | @syncComplete outcome =>
      rw [SyncStatus.syncComplete_apply]
      split_ifs
      · exact SyncStatus.published_contents outcome state
      · rfl

namespace BlockClient

variable {order : ByteOrder} {env : Environment} {message : Message} {address : Address}
  {info : FileInfo} {client mid : BlockClient} {status : SyncStatus}

theorem onStatus_contents {α : Type} {program : EStateM Fault StatusState α}
    {contents : ℕ → Bytes}
    (hprogram : ∀ state, (endState (program state)).files.contents = state.files.contents) :
    Keeps (fun client => client.files.contents = contents)
      (fun client => client.files.contents = contents) (onStatus info program) := by
  apply onStatus_triple
  · exact fun _ hclient _ => hclient
  · intro client status value state hclient _ hok
    have hstate : state.files.contents = client.files.contents := by
      simpa [hok] using hprogram ⟨status, client.files, []⟩
    exact hstate.trans hclient
  · intro client status fault state hclient _ herror
    have hstate : state.files.contents = client.files.contents := by
      simpa [herror] using hprogram ⟨status, client.files, []⟩
    exact hstate.trans hclient

theorem finish_contents {outcome : PublishOutcome} {contents : ℕ → Bytes} :
    Keeps (fun client => client.files.contents = contents)
      (fun client => client.files.contents = contents) (finish info outcome) := by
  refine Keeps.bind (onStatus_contents fun state => ?_) fun _ _ => ?_
  · rw [SyncStatus.syncComplete_apply]
    split_ifs
    · exact SyncStatus.published_contents outcome state
    · rfl
  · exact Triple.ite (fun _ => Keeps.modify fun _ hclient => hclient) fun _ => Keeps.pure _

theorem handle_of_none (hinfo : message.fileInfo? order = none) (client : BlockClient) :
    endState (handle order env message address client) = client := by
  have hnothing : ∀ info, message.fileInfo? order ≠ some info := by
    intro info hsome
    rw [hinfo] at hsome
    contradiction
  have hhandle : Triple (fun current => current = client)
      (handle order env message address) (fun _ current => current = client)
      (fun _ current => current = client) := by
    apply handle_finish_triple (Q := fun _ _ => False)
    · exact fun _ _ hcurrent => hcurrent
    · exact fun _ _ hcurrent => hcurrent
    · exact fun _ _ hfalse => hfalse.elim
    · exact fun info hsome => absurd hsome (hnothing info)
    · exact fun info hsome => absurd hsome (hnothing info)
    · exact fun info hsome => absurd hsome (hnothing info)
    · exact fun info hsome => absurd hsome (hnothing info)
  cases hrun : handle order env message address client with
  | ok value final => exact hhandle.ok rfl hrun
  | error fault final => exact hhandle.error rfl hrun

/-- When no record can be made the handler of the message throws, and that is all. -/
theorem handle_of_getSyncStatus_error {fault : Fault}
    (hinfo : message.fileInfo? order = some info)
    (herror : getSyncStatus order env info address client = .error fault mid) :
    endState (handle order env message address client) = mid := by
  have hhandle : Triple (fun current => current = client)
      (handle order env message address) (fun _ current => current = mid)
      (fun _ current => current = mid) := by
    apply handle_finish_triple (Q := fun _ _ => False)
    · intro hnone
      rw [hinfo] at hnone
      contradiction
    · intro hnone
      rw [hinfo] at hnone
      contradiction
    · exact fun _ _ hfalse => hfalse.elim
    · rintro other hother _ rfl
      cases hinfo.symm.trans hother
      rw [herror]
    · exact fun _ _ _ _ _ _ hfalse => hfalse.elim
    · exact fun _ _ _ hfalse => hfalse
    · exact fun _ _ _ _ _ hfalse => hfalse.elim
  cases hrun : handle order env message address client with
  | ok value final => exact hhandle.ok rfl hrun
  | error fault' final => exact hhandle.error rfl hrun

/-- What is not a block writes to no file. -/
theorem handle_contents_of_other (hinfo : message.fileInfo? order = some info)
    (hmid : getSyncStatus order env info address client = .ok () mid)
    (htype : message.getType order ≠ MessageType.block.code) :
    (endState (handle order env message address client)).files.contents =
      mid.files.contents := by
  have hhandle : Triple (fun current => current = client)
      (handle order env message address)
      (fun _ current => current.files.contents = mid.files.contents)
      (fun _ current => current.files.contents = mid.files.contents) := by
    apply handle_finish_triple (Q := fun _ current =>
      current.files.contents = mid.files.contents)
    · intro hnone
      rw [hinfo] at hnone
      contradiction
    · intro hnone
      rw [hinfo] at hnone
      contradiction
    · exact fun _ _ hcurrent => hcurrent
    · rintro other hother _ rfl
      cases hinfo.symm.trans hother
      rw [hmid]
    · exact fun _ _ _ _ hprogram => onStatus_contents (hprogram.contents htype)
    · exact fun _ _ _ hcurrent => hcurrent
    · exact fun _ _ _ _ => finish_contents
  cases hrun : handle order env message address client with
  | ok value final => exact hhandle.ok rfl hrun
  | error fault final => exact hhandle.error rfl hrun

/-- A block is written to the file of its record. -/
theorem handle_contents_of_block {block : BlockInfo}
    (htype : message.getType order = MessageType.block.code)
    (hblock : message.getMetadata order BlockInfo = .ok block)
    (hmid : getSyncStatus order env block.fileInfo address client = .ok () mid)
    (hfind : mid.syncSet.find? block.fileInfo = some status) :
    (endState (handle order env message address client)).files.contents =
      (endState (SyncStatus.writeBlock order env (block.getBlock order).toNat message
        ⟨status, mid.files, []⟩)).files.contents := by
  have hhandle : handle order env message address client =
      (onStatus block.fileInfo
        (SyncStatus.writeBlock order env (block.getBlock order).toNat message) >>= fun _ =>
          finish block.fileInfo env.first) mid := by
    rw [handle_of_block htype hblock, bind_of_ok hmid]
  rw [hhandle, bind_apply, onStatus_of_find? hfind]
  cases SyncStatus.writeBlock order env (block.getBlock order).toNat message
      ⟨status, mid.files, []⟩ with
  | error fault state => rfl
  | ok value state => exact finish_contents.endState rfl

/-- The message changes the bytes of its own block and no others: not those of a marked
block of the same file, and not those of a file that another record holds open. -/
structure WritesOnlyBlock (order : ByteOrder) (env : Environment) (message : Message)
    (address : Address) (client : BlockClient) : Prop where
  frame : ∀ block mid status file, message.getType order = MessageType.block.code →
    message.getMetadata order BlockInfo = .ok block →
    getSyncStatus order env block.fileInfo address client = .ok () mid →
    mid.syncSet.find? block.fileInfo = some status → status.output.file = some file →
      OnlyBlock (block.getBlock order).toNat (mid.files.contents file)
        ((endState (handle order env message address client)).files.contents file)
  marked : ∀ info mid status file, message.fileInfo? order = some info →
    getSyncStatus order env info address client = .ok () mid →
    mid.syncSet.find? info = some status → status.output.file = some file →
    ∀ number, status.blockArray[number]? = some true →
    ∀ k < (mid.files.contents file).length,
      blockSize * number ≤ k → k < blockSize * (number + 1) →
        ((endState (handle order env message address client)).files.contents file)[k]? =
          (mid.files.contents file)[k]?
  others : ∀ other status file, client.syncSet.find? other = some status →
    status.output.file = some file →
    (∀ info mid found, message.fileInfo? order = some info →
      getSyncStatus order env info address client = .ok () mid →
      mid.syncSet.find? info = some found → found.output.file ≠ some file) →
      (endState (handle order env message address client)).files.contents file =
        client.files.contents file

/-- What a block message would write beyond the size of a block is in the file. -/
def RestFits (order : ByteOrder) (env : Environment) (message : Message)
    (address : Address) (client : BlockClient) : Prop :=
  ∀ block payload mid status file, message.getType order = MessageType.block.code →
    message.getMetadata order BlockInfo = .ok block →
    message.getText order = .ok payload →
    getSyncStatus order env block.fileInfo address client = .ok () mid →
    mid.syncSet.find? block.fileInfo = some status → status.output.file = some file →
    ∀ j, blockSize ≤ j →
      j < (status.written env (block.getBlock order).toNat payload).length →
        (mid.files.contents file)[blockSize * (block.getBlock order).toNat + j]? =
          (status.written env (block.getBlock order).toNat payload)[j]?

/-- The frame of a block is kept exactly when the rest of the payload is there. -/
theorem frame_iff_restFits :
    (∀ block mid status file, message.getType order = MessageType.block.code →
      message.getMetadata order BlockInfo = .ok block →
      getSyncStatus order env block.fileInfo address client = .ok () mid →
      mid.syncSet.find? block.fileInfo = some status → status.output.file = some file →
        OnlyBlock (block.getBlock order).toNat (mid.files.contents file)
          ((endState (handle order env message address client)).files.contents file)) ↔
      RestFits order env message address client := by
  have hcontents : ∀ block payload mid status file,
      message.getType order = MessageType.block.code →
      message.getMetadata order BlockInfo = .ok block →
      message.getText order = .ok payload →
      getSyncStatus order env block.fileInfo address client = .ok () mid →
      mid.syncSet.find? block.fileInfo = some status → status.output.file = some file →
        (endState (handle order env message address client)).files.contents file =
          overlay (mid.files.contents file) (blockSize * (block.getBlock order).toNat)
            (status.written env (block.getBlock order).toNat payload) := by
    intro block payload mid status file htype hblock htext hmid hfind hfile
    rw [handle_contents_of_block htype hblock hmid hfind,
      SyncStatus.endState_writeBlock env (block.getBlock order).toNat_lt hfile htext,
      Function.update_self]
  constructor
  · intro hframe block payload mid status file htype hblock htext hmid hfind hfile
    have honly := hframe block mid status file htype hblock hmid hfind hfile
    rw [hcontents block payload mid status file htype hblock htext hmid hfind hfile] at honly
    exact onlyBlock_overlay_iff.mp honly
  · intro hfits block mid status file htype hblock hmid hfind hfile
    cases htext : message.getText order with
    | ok payload =>
        rw [hcontents block payload mid status file htype hblock htext hmid hfind hfile]
        exact onlyBlock_overlay_iff.mpr
          (hfits block payload mid status file htype hblock htext hmid hfind hfile)
    | error fault =>
        have hsame : (endState (handle order env message address client)).files.contents =
            mid.files.contents := by
          rw [handle_contents_of_block htype hblock hmid hfind]
          exact SyncStatus.endState_writeBlock_of_none env _
            (Or.inr fun payload hok => by simp [htext] at hok)
        rw [hsame]
        exact ⟨fun _ _ => Or.inl rfl, fun _ _ => rfl⟩

theorem RestFits.marked (hfits : RestFits order env message address client)
    (hinfo : message.fileInfo? order = some info)
    (hmid : getSyncStatus order env info address client = .ok () mid)
    (hfind : mid.syncSet.find? info = some status) {file : ℕ}
    (hfile : status.output.file = some file) {number : ℕ}
    (hmark : status.blockArray[number]? = some true) {k : ℕ}
    (hk : k < (mid.files.contents file).length) (hge : blockSize * number ≤ k)
    (hlt : k < blockSize * (number + 1)) :
    ((endState (handle order env message address client)).files.contents file)[k]? =
      (mid.files.contents file)[k]? := by
  by_cases htype : message.getType order = MessageType.block.code
  · obtain ⟨block, hblock, rfl⟩ := Message.exists_block hinfo htype
    have honly := frame_iff_restFits.mpr hfits block mid status file htype hblock hmid
      hfind hfile
    rcases Nat.lt_trichotomy number (block.getBlock order).toNat with hless | heq | hmore
    · have hbelow : k < blockSize * (block.getBlock order).toNat :=
        hlt.trans_le (Nat.mul_le_mul_left _ hless)
      exact (honly.below k hbelow).resolve_right fun h => by omega
    · rw [handle_contents_of_block htype hblock hmid hfind,
        SyncStatus.writeBlock_apply, ← heq, hmark]
      rfl
    · exact honly.above k ((Nat.mul_le_mul_left _ hmore).trans hge)
  · rw [handle_contents_of_other hinfo hmid htype]

/-- Making a record empties no file but that of the record. -/
theorem getSyncStatus_contents
    (hmid : getSyncStatus order env info address client = .ok () mid)
    (hfind : mid.syncSet.find? info = some status) {file : ℕ}
    (hne : status.output.file ≠ some file) :
    mid.files.contents file = client.files.contents file := by
  rcases getSyncStatus_eq_ok hmid with ⟨_, _, rfl⟩ | ⟨made, files, hnone, hcreate, rfl⟩
  · rfl
  · obtain ⟨_, hstatus, hfiles⟩ := SyncStatus.create_eq_ok hcreate
    rw [BlockClient.created, OrderedMap.find?_insert_self _ hnone] at hfind
    cases hfind
    rw [hstatus] at hne
    simp only [BlockClient.created, hfiles]
    cases hopened : env.opened with
    | false => rfl
    | true =>
        rw [hopened] at hne
        exact client.files.create_contents_ne fun heq => hne (by rw [heq]; rfl)

/-- A file that the record of the message does not hold stays as it was. -/
theorem handle_contents_others {file : ℕ}
    (hothers : ∀ info mid found, message.fileInfo? order = some info →
      getSyncStatus order env info address client = .ok () mid →
      mid.syncSet.find? info = some found → found.output.file ≠ some file) :
    (endState (handle order env message address client)).files.contents file =
      client.files.contents file := by
  cases hinfo : message.fileInfo? order with
  | none => rw [handle_of_none hinfo]
  | some info =>
      cases hget : getSyncStatus order env info address client with
      | error fault mid =>
          rw [handle_of_getSyncStatus_error hinfo hget]
          rw [(getSyncStatus_eq_error hget).1]
      | ok value mid =>
          obtain ⟨status, hfind, _⟩ := (getSyncStatus_obtained hget).find?
          have hne := hothers info mid status hinfo hget hfind
          rw [← getSyncStatus_contents hget hfind hne]
          by_cases htype : message.getType order = MessageType.block.code
          · obtain ⟨block, hblock, rfl⟩ := Message.exists_block hinfo htype
            rw [handle_contents_of_block htype hblock hget hfind]
            exact SyncStatus.endState_writeBlock_others env (block.getBlock order).toNat_lt hne
          · rw [handle_contents_of_other hinfo hget htype]

/-- What is no longer than a block fits. -/
theorem restFits_of_length_le (hlength : ∀ payload, message.getText order = .ok payload →
    payload.length ≤ blockSize) : RestFits order env message address client := by
  intro block payload mid status file _ _ htext _ _ _ j hge hlt
  have hle : (status.written env (block.getBlock order).toNat payload).length ≤
      payload.length := by
    unfold SyncStatus.written
    split_ifs
    · exact List.length_take_le' _ _
    · exact Nat.zero_le _
  have := hlength payload htext
  omega

/-- A message writes only its own block when what its payload has beyond the size of a
block would change nothing. -/
theorem writesOnlyBlock_iff :
    WritesOnlyBlock order env message address client ↔
      RestFits order env message address client := by
  constructor
  · exact fun hwrites => frame_iff_restFits.mp hwrites.frame
  · intro hfits
    refine ⟨frame_iff_restFits.mpr hfits, ?_, fun _ _ _ _ _ => handle_contents_others⟩
    exact fun info mid status file hinfo hmid hfind hfile number hmark k hk hge hlt =>
      hfits.marked hinfo hmid hfind hfile hmark hk hge hlt

end BlockClient

/-- A file of two blocks. -/
def twoBlockFile : FileInfo :=
  { sampleFile with numBlocks := ByteOrder.little.htonl 2 }

/-- A client that has got block 1, of one byte. -/
def halfwayClient : ClientRun :=
  startedClient.step .little
    (readInput (Message.withText .little 9 MessageType.block.code
      (BlockInfo.ofBlock .little twoBlockFile 1) [5]))

/-- Block 0, with one byte too many. -/
def wideBlock : Message :=
  Message.received receiveReserve
    (Message.withText .little 9 MessageType.block.code
      (BlockInfo.ofBlock .little twoBlockFile 0) (List.replicate 1025 7)).buffer

/-- The last byte of the payload replaces the byte of block 1. -/
theorem wideBlock_not_writesOnlyBlock :
    ClientRun.Reachable .little (BlockClient.create .little 0 9000 7 5 FileStore.empty)
      halfwayClient ∧
    wideBlock.Framed .little ∧
    ¬ halfwayClient.client.WritesOnlyBlock .little (Environment.plain [116] false) wideBlock
      ⟨0, 0⟩ := by
  have hframed : wideBlock.Framed .little := by
    decide +kernel
  have hinfo : wideBlock.fileInfo? .little = some twoBlockFile := by
    decide +kernel
  have hfind : (halfwayClient.client.syncSet.find? twoBlockFile).map (fun status =>
      (status.output.file, status.blockArray)) = some (some 0, [false, true]) := by
    decide +kernel
  have hbefore : (halfwayClient.client.files.contents 0)[1024]? = some 5 := by
    decide +kernel
  have hafter : ((endState (BlockClient.handle .little (Environment.plain [116] false)
      wideBlock ⟨0, 0⟩ halfwayClient.client)).files.contents 0)[1024]? = some 7 := by
    decide +kernel
  refine ⟨startedClient_reachable.step _, hframed, fun hwrites => ?_⟩
  obtain ⟨status, hstatus, hrecord⟩ := Option.map_eq_some_iff.mp hfind
  simp only [Prod.mk.injEq] at hrecord
  have hmid : BlockClient.getSyncStatus .little (Environment.plain [116] false) twoBlockFile
      ⟨0, 0⟩ halfwayClient.client = .ok () halfwayClient.client :=
    BlockClient.getSyncStatus_of_find? .little hstatus _ _
  have hsame := hwrites.marked twoBlockFile _ status 0 hinfo hmid hstatus hrecord.1 1
    (by rw [hrecord.2]; rfl) 1024 (List.getElem?_eq_some_iff.mp hbefore).1 (by decide)
    (by decide)
  rw [hbefore, hafter] at hsame
  exact absurd hsame (by decide)

end Multisync
