import Multisync.BlockAssembly
import Multisync.Records
import Multisync.WireRoundTrip
import Mathlib.Tactic

/-!
# Only whole files are published

A client may be sent the blocks of a file in any order, some of them twice or
never, between messages about other files.  As long as each block carries the
bytes of the file at its place, the temporary file agrees with the file on every
marked block, and it is renamed only when all of them are marked.
-/

namespace Multisync

open ByteLayout Effects BlockAssembly

/-- Writes and closes of an open file succeed. -/
structure Environment.Reliable (env : Environment) : Prop where
  writes : env.writeLimit = none
  first_closes : env.first.closed = true
  second_closes : env.second.closed = true

/-- A file was published under a path with every block marked, and it is the
source. -/
structure Publication.Whole (source : Bytes) (publication : Publication) : Prop where
  path_ne_nil : publication.path ≠ []
  blocks : publication.blockArray =
    List.replicate (blockCount blockSize source) true
  content : publication.content = source

/-- The bitmap, the count and the temporary file of a record fit the source. -/
structure Receiving (source : Bytes) (status : SyncStatus)
    (files : FileStore Bytes) : Prop where
  length : status.blockArray.length = blockCount blockSize source
  remaining : status.remainingBlocks = status.blockArray.count false
  assembled : ∀ content, files.file? status.temp = some content →
    Assembled blockSize source status.blockArray content

namespace Delivery

/-- If the message is a block of the file, it carries the bytes of that block. -/
def Carries (order : ByteOrder) (info : FileInfo) (source : Bytes)
    (message : Message) : Prop :=
  ∀ block, message.getType order = MessageType.block.code →
    message.getMetadata order BlockInfo = .ok block → block.fileInfo = info →
    (block.getBlock order).toNat < blockCount blockSize source →
      message.getText order =
        .ok (slice blockSize source (block.getBlock order).toNat)

end Delivery

/-- No block is missing once the count of missing ones is zero. -/
theorem Receiving.all_marked {source : Bytes} {status : SyncStatus}
    {files : FileStore Bytes} (hreceiving : Receiving source status files)
    (hzero : status.remainingBlocks = 0) :
    status.blockArray = List.replicate (blockCount blockSize source) true := by
  rw [List.eq_replicate_iff]
  refine ⟨hreceiving.length, fun mark hmark => ?_⟩
  cases mark with
  | true => rfl
  | false =>
      have hpos := List.count_pos_iff.mpr hmark
      rw [← hreceiving.remaining, hzero] at hpos
      contradiction

theorem Receiving.content_eq {source : Bytes} {status : SyncStatus}
    {files : FileStore Bytes} (hreceiving : Receiving source status files)
    (hzero : status.remainingBlocks = 0) {content : Bytes}
    (hcontent : files.file? status.temp = some content) : content = source := by
  have hmarks := hreceiving.all_marked hzero
  apply (hreceiving.assembled content hcontent).eq_source
  intro k hk
  rw [hmarks, List.getElem?_replicate, if_pos]
  exact div_lt_blockCount (by decide) hk

section Record

variable {order : ByteOrder} {env : Environment} {message : Message}
  {info : FileInfo} {source : Bytes} {state : StatusState}

/-- Publishing a complete record moves the whole source. -/
theorem Receiving.published (outcome : PublishOutcome)
    (hreceiving : Receiving source state.status state.files)
    (hcstr : cstr state.status.temp = state.status.temp)
    (hne : state.status.temp ≠ cstr state.status.path)
    (hcomplete : state.status.Complete) :
    Receiving source (SyncStatus.published outcome state).status
        (SyncStatus.published outcome state).files ∧
      ∀ publication ∈ (SyncStatus.published outcome state).publications,
        publication ∈ state.publications ∨ publication.Whole source := by
  constructor
  · refine ⟨?_, ?_, fun content hcontent => ?_⟩
    · simpa [SyncStatus.published] using hreceiving.length
    · simpa [SyncStatus.published] using hreceiving.remaining
    · have htemp : (SyncStatus.published outcome state).status.temp =
          state.status.temp := by
        simp [SyncStatus.published]
      rw [htemp, SyncStatus.published_file? outcome hcstr hne] at hcontent
      split_ifs at hcontent
      simpa [SyncStatus.published] using hreceiving.assembled content hcontent
  · intro publication hmem
    rw [SyncStatus.published_publications outcome hcstr] at hmem
    rcases List.mem_append.mp hmem with hold | hnew
    · exact Or.inl hold
    · split_ifs at hnew
      · obtain ⟨content, hcontent, rfl⟩ := List.mem_map.mp hnew
        exact Or.inr ⟨hcomplete.2, hreceiving.all_marked hcomplete.1,
          hreceiving.content_eq hcomplete.1 (Option.mem_toList.mp hcontent)⟩
      · contradiction

/-- Writing the bytes of a block that is not marked yet, and marking it. -/
theorem Receiving.wrote {block : ℕ}
    (hreceiving : Receiving source state.status state.files)
    (hheld : ∀ file, state.status.output.file = some file →
      state.files.directory state.status.temp = some file)
    (hwrites : env.writeLimit = none)
    (hmark : state.status.blockArray[block]? = some false)
    (hcount : blockCount blockSize source < 2 ^ 32) :
    let state' := SyncStatus.wrote env block (slice blockSize source block) state
    if state'.status.output.failed = true then
      Receiving source state'.status state'.files
    else
      Receiving source (SyncStatus.marked block state').status state'.files := by
  intro state'
  have hlength := hreceiving.length
  have hblock : block < state.status.blockArray.length :=
    (List.getElem?_eq_some_iff.mp hmark).1
  have hposition : blockSize * block % 2 ^ 64 = blockSize * block := by
    rw [blockSize]
    omega
  obtain ⟨hset, hpos⟩ := count_set_true hmark
  have hwrite := state.status.output.seekp_write_cases (blockSize * block)
    (slice blockSize source block) state.files
  simp only [state', SyncStatus.wrote, SyncStatus.marked, hposition, hwrites]
  rcases hwrite with ⟨hfailed, hsame⟩ | ⟨file, hfile, _, hwritten⟩
  · rw [if_pos hfailed, hsame]
    exact ⟨hreceiving.length, hreceiving.remaining, hreceiving.assembled⟩
  · rw [hwritten, if_neg Bool.false_ne_true]
    have hname := hheld file hfile
    have hle : state.status.blockArray.count false ≤ state.status.blockArray.length :=
      List.count_le_length
    constructor
    · simpa using hreceiving.length
    · rw [hset, hreceiving.remaining, decrement_of_pos hpos (by omega)]
    · intro content hcontent
      rw [FileStore.file?_write_self _ hname] at hcontent
      cases hcontent
      apply (hreceiving.assembled _ ?_).set (by decide)
      rw [FileStore.file?, hname, Option.map_some]

/-- Every program a handler runs on the record of the file keeps it fitting the
source, and publishes nothing but the source. -/
theorem RecordProgram.receiving {α : Type} {program : EStateM Fault StatusState α}
    (hprogram : RecordProgram order env message program)
    (hwrites : env.writeLimit = none)
    (hcarries : ∀ block, message.getType order = MessageType.block.code →
      message.getMetadata order BlockInfo = .ok block →
      (block.getBlock order).toNat < blockCount blockSize source →
        message.getText order =
          .ok (slice blockSize source (block.getBlock order).toNat))
    (hcount : blockCount blockSize source < 2 ^ 32)
    (hcstr : cstr state.status.temp = state.status.temp)
    (hheld : ∀ file, state.status.output.file = some file →
      state.files.directory state.status.temp = some file)
    (hne : state.status.temp ≠ cstr state.status.path)
    (hreceiving : Receiving source state.status state.files) :
    Receiving source (endState (program state)).status
        (endState (program state)).files ∧
      ∀ publication ∈ (endState (program state)).publications,
        publication ∈ state.publications ∨ publication.Whole source := by
  have hkept : Receiving source state.status state.files ∧
      ∀ publication ∈ state.publications,
        publication ∈ state.publications ∨ publication.Whole source :=
    ⟨hreceiving, fun _ hold => Or.inl hold⟩
  cases hprogram with
  | setPath htype htext =>
      exact ⟨⟨hreceiving.length, hreceiving.remaining, hreceiving.assembled⟩, hkept.2⟩
  | @writeBlock block htype hblock =>
      rw [SyncStatus.writeBlock_apply]
      cases hmark : state.status.blockArray[(block.getBlock order).toNat]? with
      | none => exact hkept
      | some mark =>
          cases mark with
          | true => exact hkept
          | false =>
              have hlt : (block.getBlock order).toNat < blockCount blockSize source := by
                rw [← hreceiving.length]
                exact (List.getElem?_eq_some_iff.mp hmark).1
              have hwrote := hreceiving.wrote hheld hwrites hmark hcount
              simp only [hcarries block htype hblock hlt]
              split_ifs with hfailed
              · simp only [if_pos hfailed] at hwrote
                exact ⟨hwrote, hkept.2⟩
              · simp only [if_neg hfailed] at hwrote
                exact ⟨hwrote, hkept.2⟩
  | setGoodbyeReceived =>
      exact ⟨⟨hreceiving.length, hreceiving.remaining, hreceiving.assembled⟩, hkept.2⟩
  | transferComplete =>
      rw [SyncStatus.transferComplete_apply]
      split_ifs with hcomplete
      · exact hreceiving.published env.first hcstr hne hcomplete
      · exact hkept
  | @syncComplete outcome houtcome =>
      rw [SyncStatus.syncComplete_apply]
      split_ifs with hcomplete
      · exact hreceiving.published outcome hcstr hne hcomplete.2
      · exact hkept

end Record

/-! ## What a client publishes of a file -/

/-- The record of the file is as it should be, and so is what was published of it. -/
structure PublishesOnly (fits : SyncStatus → FileStore Bytes → Prop)
    (good : Publication → Prop) (info : FileInfo) (client : BlockClient) : Prop where
  record : ∀ status, client.syncSet.find? info = some status → fits status client.files
  published : ∀ publication, ClientEvent.published info publication ∈ client.trace →
    good publication

/-- A message makes only records of the file that fit, and keeps them fitting; what it
publishes of them is good. -/
structure KeepsFitting (order : ByteOrder) (env : Environment) (message : Message)
    (fits : SyncStatus → FileStore Bytes → Prop) (good : Publication → Prop)
    (info : FileInfo) : Prop where
  frame : ∀ status files files', files'.file? status.temp = files.file? status.temp →
    fits status files → fits status files'
  made : ∀ address files status files',
    files.directory (tempName env.tmpnam info) = none →
    SyncStatus.create order env info address files = .ok (status, files') →
      fits status files'
  program : ∀ (α : Type) (program : EStateM Fault StatusState α) status files,
    RecordProgram order env message program → message.fileInfo? order = some info →
    cstr status.temp = status.temp →
    (∀ file, status.output.file = some file → files.directory status.temp = some file) →
    status.temp ≠ cstr status.path → fits status files →
      fits (endState (program ⟨status, files, []⟩)).status
          (endState (program ⟨status, files, []⟩)).files ∧
        ∀ publication ∈ (endState (program ⟨status, files, []⟩)).publications,
          good publication

section Steps

variable {order : ByteOrder} {env : Environment} {message : Message}
  {fits : SyncStatus → FileStore Bytes → Prop} {good : Publication → Prop}
  {info : FileInfo} {client : BlockClient}

theorem PublishesOnly.of_empty (hempty : client.syncSet = OrderedMap.empty)
    (htrace : client.trace = []) : PublishesOnly fits good info client := by
  constructor
  · intro status hfind
    rw [hempty, OrderedMap.find?_empty] at hfind
    contradiction
  · intro publication hmem
    rw [htrace] at hmem
    contradiction

theorem PublishesOnly.of_untouched {before after : BlockClient}
    (hkeeps : KeepsFitting order env message fits good info)
    (hbefore : PublishesOnly fits good info before)
    (huntouched : Untouched info before after) : PublishesOnly fits good info after := by
  constructor
  · intro status hfind
    rw [huntouched.record] at hfind
    exact hkeeps.frame status _ _ (huntouched.file status hfind)
      (hbefore.record status hfind)
  · intro publication hmem
    obtain ⟨events, htrace, hevents⟩ := huntouched.trace
    rw [htrace] at hmem
    rcases List.mem_append.mp hmem with hold | hnew
    · exact hbefore.published publication hold
    · exact absurd rfl (hevents _ hnew)

theorem PublishesOnly.created {status : SyncStatus} {files : FileStore Bytes}
    (hclient : PublishesOnly fits good info client)
    (hnone : client.syncSet.find? info = none) (hmade : fits status files) :
    PublishesOnly fits good info (client.created info status files) := by
  constructor
  · intro status hfind
    rw [BlockClient.created, OrderedMap.find?_insert_self _ hnone] at hfind
    cases hfind
    exact hmade
  · intro publication hmem
    rcases List.mem_append.mp hmem with hold | hnew
    · exact hclient.published publication hold
    · simp at hnew

theorem PublishesOnly.putStatus {status : SyncStatus} {state : StatusState}
    (hclient : PublishesOnly fits good info client)
    (hfind : client.syncSet.find? info = some status)
    (hstate : fits state.status state.files ∧
      ∀ publication ∈ state.publications, good publication) :
    PublishesOnly fits good info (client.putStatus info state) := by
  constructor
  · intro status' hfind'
    rw [BlockClient.putStatus, OrderedMap.find?_replace_self _ hfind] at hfind'
    cases hfind'
    exact hstate.1
  · intro publication hmem
    rcases List.mem_append.mp hmem with hold | hnew
    · exact hclient.published publication hold
    · obtain ⟨found, hfound, heq⟩ := List.mem_map.mp hnew
      cases heq
      exact hstate.2 publication hfound

theorem PublishesOnly.answered (hclient : PublishesOnly fits good info client)
    (order : ByteOrder) (other : FileInfo) :
    PublishesOnly fits good info (client.answered order other) := by
  refine ⟨hclient.record, fun publication hmem => ?_⟩
  rcases List.mem_append.mp hmem with hold | hnew
  · exact hclient.published publication hold
  · obtain ⟨status, _, heq⟩ := Option.map_eq_some_iff.mp (Option.mem_toList.mp hnew)
    contradiction

theorem PublishesOnly.erased (hkeeps : KeepsFitting order env message fits good info)
    (hclient : PublishesOnly fits good info client) (other : FileInfo) :
    PublishesOnly fits good info (client.erased other) := by
  by_cases hne : info = other
  · subst hne
    constructor
    · intro status hfind
      rw [BlockClient.erased, OrderedMap.find?_erase_self] at hfind
      contradiction
    · intro publication hmem
      rcases List.mem_append.mp hmem with hold | hnew
      · exact hclient.published publication hold
      · simp at hnew
  · exact hclient.of_untouched hkeeps (Untouched.erased hne)

end Steps

namespace BlockClient

variable {order : ByteOrder} {names pending : List Bytes} {info : FileInfo}
  {fits : SyncStatus → FileStore Bytes → Prop} {good : Publication → Prop}

theorem handle_publishesOnly {env : Environment} {message : Message}
    {address : Address} (hnil : [] ∉ names)
    (hannounced : ∀ text, message.getType order = MessageType.info.code →
      message.getText order = .ok text → cstr text ∉ names)
    (hfresh : ∀ name ∈ message.tempFile? order env.tmpnam, name ∉ pending)
    (hkeeps : KeepsFitting order env message fits good info) :
    Triple (fun client => Separate names
        ((message.tempFile? order env.tmpnam).toList ++ pending) client ∧
          PublishesOnly fits good info client)
      (handle order env message address)
      (fun _ client => Separate names pending client ∧ PublishesOnly fits good info client)
      (fun _ client => Separate names pending client ∧
        PublishesOnly fits good info client) := by
  apply handle_separate hnil hannounced hfresh
  · intro client other status files hseparate hclient hother hnone hcreate
    by_cases hne : info = other
    · subst hne
      exact hclient.created hnone
        (hkeeps.made address client.files status files (hseparate.unmade _ (by simp)) hcreate)
    · exact hclient.of_untouched hkeeps (Untouched.created hseparate hcreate hne)
  · intro client other status α program hseparate hclient hother hfind hprogram
    by_cases hne : info = other
    · subst hne
      have hapart := hseparate.apart info status hfind
      exact hclient.putStatus hfind (hkeeps.program α program status client.files hprogram
        hother hapart.cstr_temp hapart.held
        (fun heq => hapart.path_notMem (heq ▸ hapart.temp_mem)) (hclient.record status hfind))
    · exact hclient.of_untouched hkeeps
        (Untouched.putStatus hseparate hfind (hprogram.recordStep _).1 hne)
  · exact fun client other hclient _ => hclient.answered order other
  · exact fun client other hclient _ => hclient.erased hkeeps other

theorem deliver_publishesOnly {delivery : Delivery} (hnil : [] ∉ names)
    (hannounced : ∀ text, delivery.Announces order text → cstr text ∉ names)
    (hfresh : ∀ name ∈ delivery.tempFile? order, name ∉ pending)
    (hkeeps : KeepsFitting order delivery.env delivery.message fits good info) :
    Triple (fun client => Separate names
        ((delivery.tempFile? order).toList ++ pending) client ∧
          PublishesOnly fits good info client)
      (deliver order delivery)
      (fun _ client => Separate names pending client ∧ PublishesOnly fits good info client)
      (fun _ client => Separate names pending client ∧
        PublishesOnly fits good info client) := by
  apply deliver_triple
  · exact handle_publishesOnly hnil (fun text htype htext => hannounced text ⟨htype, htext⟩)
      hfresh hkeeps
  · exact fun client sender hclient => ⟨hclient.1.heardFrom sender,
      hclient.2.of_untouched hkeeps (Untouched.heardFrom sender)⟩
  · exact fun client hclient =>
      ⟨hclient.1.weaken fun name hname => List.mem_append_right _ hname, hclient.2⟩

/-- Whatever is delivered, in whatever order: what the client publishes of the file is
good, if each message keeps its record fitting. -/
theorem published_only {client : BlockClient} {deliveries : List Delivery}
    (hempty : client.syncSet = OrderedMap.empty) (htrace : client.trace = [])
    (hkeeps : ∀ delivery ∈ deliveries,
      KeepsFitting order delivery.env delivery.message fits good info)
    (hnames : NamesApart order client.files deliveries) :
    ∀ publication, ClientEvent.published info publication ∈
        (endState (deliveries.forM (deliver order) client)).trace → good publication := by
  have hnone : ∀ other, client.syncSet.find? other = none := by
    intro other
    rw [hempty, OrderedMap.find?_empty]
  have hrun := @deliveries_triple order deliveries client
    (fun _ => PublishesOnly fits good info) (PublishesOnly fits good info) hnames hnone
    (.of_empty hempty htrace)
  have hfinal : PublishesOnly fits good info
      (endState (deliveries.forM (deliver order) client)) := by
    have hrun := hrun fun before delivery after heq hannounced hfresh => by
      have hstep := deliver_publishesOnly (nil_notMem_tempFiles deliveries)
        hannounced hfresh (hkeeps delivery (by simp [heq]))
      exact hstep.weaken (fun _ h => h) (fun _ _ h => h) fun _ _ h => h.2
    cases hresult : deliveries.forM (deliver order) client with
    | ok value final => exact (hrun.ok rfl hresult).2
    | error fault final => exact hrun.error rfl hresult
  exact hfinal.published

end BlockClient

/-! ## The whole file -/

/-- The record of the file fits the source, and what was published of it so far
is the source. -/
abbrev PublishesWhole (info : FileInfo) (source : Bytes) (client : BlockClient) : Prop :=
  PublishesOnly (Receiving source) (Publication.Whole source) info client

/-- A message that carries the bytes of the file keeps its record fitting the source. -/
theorem keepsFitting_of_carries {order : ByteOrder} {env : Environment} {message : Message}
    {info : FileInfo} {source : Bytes}
    (hcount : (info.getBlockCount order).toNat = blockCount blockSize source)
    (hwrites : env.writeLimit = none)
    (hcarries : Delivery.Carries order info source message) :
    KeepsFitting order env message (Receiving source) (Publication.Whole source) info := by
  constructor
  · intro status files files' hfile hreceiving
    refine ⟨hreceiving.length, hreceiving.remaining, fun content hcontent => ?_⟩
    rw [hfile] at hcontent
    exact hreceiving.assembled content hcontent
  · intro address files status files' hunmade hcreate
    obtain ⟨_, rfl, rfl⟩ := SyncStatus.create_eq_ok hcreate
    constructor
    · rw [List.length_replicate, hcount]
    · rw [List.count_replicate_self]
    · intro content hcontent
      rw [OutStream.openFile_file?_self hunmade] at hcontent
      split_ifs at hcontent
      cases hcontent
      exact Assembled.empty blockSize source _
  · intro α program status files hprogram hinfo hcstr hheld hne hreceiving
    have hlt : blockCount blockSize source < 2 ^ 32 := by
      rw [← hcount]
      exact (info.getBlockCount order).toNat_lt
    have hblocks : ∀ block, message.getType order = MessageType.block.code →
        message.getMetadata order BlockInfo = .ok block →
        (block.getBlock order).toNat < blockCount blockSize source →
          message.getText order =
            .ok (slice blockSize source (block.getBlock order).toNat) := by
      intro block htype hblock
      have hof := Message.fileInfo?_of_block htype hblock
      rw [hinfo] at hof
      exact hcarries block htype hblock (Option.some.inj hof).symm
    obtain ⟨hfits, hpublished⟩ := @RecordProgram.receiving order env message source
      ⟨status, files, []⟩ α program hprogram hwrites hblocks hlt hcstr hheld hne hreceiving
    exact ⟨hfits, fun publication hmem => (hpublished publication hmem).resolve_left
      List.not_mem_nil⟩

/-- Whatever is delivered, in whatever order, the client publishes nothing under
the info of a file but the file, and that only with a path and all blocks. -/
theorem BlockClient.published_whole {order : ByteOrder} {info : FileInfo} {source : Bytes}
    {client : BlockClient} {deliveries : List Delivery}
    (hempty : client.syncSet = OrderedMap.empty) (htrace : client.trace = [])
    (hcount : (info.getBlockCount order).toNat = blockCount blockSize source)
    (hcarries : ∀ delivery ∈ deliveries,
      Delivery.Carries order info source delivery.message)
    (hreliable : ∀ delivery ∈ deliveries, delivery.env.Reliable)
    (hnames : NamesApart order client.files deliveries) :
    ∀ publication, ClientEvent.published info publication ∈
        (endState (deliveries.forM (deliver order) client)).trace →
      publication.Whole source :=
  published_only hempty htrace (fun delivery hmem => keepsFitting_of_carries hcount
    (hreliable delivery hmem).writes (hcarries delivery hmem)) hnames

def sampleClient : BlockClient :=
  BlockClient.create .little 0 0 7 5 FileStore.empty

/-- The only block of a file of three bytes, and then its announcement. -/
def sampleDeliveries : List Delivery :=
  [⟨⟨0, 0⟩, (Message.withText .little 9 MessageType.block.code
      (BlockInfo.ofBlock .little sampleFile 0) [1, 2, 3]).buffer,
    Environment.plain [116] true⟩,
  ⟨⟨0, 0⟩, (Message.withText .little 9 MessageType.info.code sampleFile [97]).buffer,
    Environment.plain [117] true⟩]

theorem sampleDeliveries_namesApart :
    BlockClient.NamesApart .little sampleClient.files sampleDeliveries := by
  apply BlockClient.NamesApart.of_announced
  · decide +kernel
  · exact fun _ _ => rfl
  · decide +kernel

theorem sampleDeliveries_carry : ∀ delivery ∈ sampleDeliveries,
    Delivery.Carries .little sampleFile [1, 2, 3] delivery.message := by
  intro delivery hmem block htype _ _ hlt
  simp only [sampleDeliveries, List.mem_cons, List.not_mem_nil, or_false] at hmem
  rcases hmem with rfl | rfl
  · have hzero : (block.getBlock .little).toNat = 0 := by
      have hone : blockCount blockSize [1, 2, 3] = 1 := by decide
      omega
    rw [hzero]
    decide +kernel
  · exact absurd htype (by decide +kernel)

theorem sampleDeliveries_published_whole :
    ClientEvent.published sampleFile ⟨[97], [true], [1, 2, 3]⟩ ∈
        (endState (sampleDeliveries.forM (BlockClient.deliver .little)
          sampleClient)).trace ∧
      (⟨[97], [true], [1, 2, 3]⟩ : Publication).Whole [1, 2, 3] := by
  have hmem : ClientEvent.published sampleFile ⟨[97], [true], [1, 2, 3]⟩ ∈
      (endState (sampleDeliveries.forM (BlockClient.deliver .little)
        sampleClient)).trace := by
    decide +kernel
  refine ⟨hmem, BlockClient.published_whole rfl rfl (by decide) sampleDeliveries_carry
    ?_ sampleDeliveries_namesApart _ hmem⟩
  intro delivery hdelivery
  simp only [sampleDeliveries, List.mem_cons, List.not_mem_nil, or_false] at hdelivery
  rcases hdelivery with rfl | rfl
  · exact ⟨rfl, rfl, rfl⟩
  · exact ⟨rfl, rfl, rfl⟩

end Multisync
