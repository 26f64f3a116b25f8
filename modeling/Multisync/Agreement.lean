import Multisync.ClosedNetwork
import Multisync.SparseAssembly
import Mathlib.Tactic

/-!
# Whatever is lost, nothing is wrong

Datagrams may be lost, come twice or in another order, and at a client every operation on
files may fail.  The temporary file of a record that was never refused a write is what
its marked blocks make, and under the path of the file there is what was there
before, or the whole file.
-/

namespace Multisync

open ByteLayout Effects BlockAssembly

namespace SyncStatus

/-- The record of a file that is to go to the path: as long as no write was refused, its
temporary file is what the marked blocks make. -/
structure Copying (destination source : Bytes) (status : SyncStatus) (files : FileStore Bytes) :
    Prop where
  path : status.path = [] ∨ status.path = destination
  cstr_temp : cstr status.temp = status.temp
  temp_ne : status.temp ≠ cstr destination
  length : status.blockArray.length = blockCount blockSize source
  remaining : status.remainingBlocks = status.blockArray.count false
  held : ∀ file, status.output.file = some file →
    files.directory status.temp = some file
  content : ∀ content, files.file? status.temp = some content →
    (status.output.failed = true ∧ status.remainingBlocks ≠ 0) ∨
      Sparse blockSize source {block | block ∈ markedBlocks status.blockArray} content

variable {order : ByteOrder} {env : Environment} {path source : Bytes}
  {status : SyncStatus} {files : FileStore Bytes}

theorem Copying.of_create {info : FileInfo} {address : Address} {files' : FileStore Bytes}
    (hcount : (info.getBlockCount order).toNat = blockCount blockSize source)
    (hfresh : files.directory (tempName env.tmpnam info) = none)
    (hne : tempName env.tmpnam info ≠ cstr path)
    (hcreate : create order env info address files = .ok (status, files')) :
    status.Copying path source files' := by
  obtain ⟨_, rfl, rfl⟩ := create_eq_ok hcreate
  refine ⟨Or.inl rfl, cstr_tempName _ _, hne, ?_, ?_, OutStream.openFile_held _ _ files, ?_⟩
  · simpa using hcount
  · simp
  · intro content hcontent
    rw [OutStream.openFile_file?_self hfresh] at hcontent
    split_ifs at hcontent
    cases hcontent
    refine Or.inr ?_
    simpa [markedBlocks_replicate_false] using Sparse.empty blockSize source

/-- The path of the file is not the temporary file. -/
theorem Copying.other (hcopying : status.Copying path source files) {file : ℕ}
    (hfile : status.output.file = some file) : files.directory (cstr path) ≠ some file :=
  fun hpath => hcopying.temp_ne
    (files.unique _ _ file (hcopying.held file hfile) hpath)

/-- All blocks are there: the temporary file is the file. -/
theorem Copying.content_eq (hcopying : status.Copying path source files)
    (hzero : status.remainingBlocks = 0) {content : Bytes}
    (hcontent : files.file? status.temp = some content) : content = source := by
  have hsparse := (hcopying.content content hcontent).resolve_left fun h => h.2 hzero
  have hmarked : ∀ k < source.length, k / blockSize ∈
      {block | block ∈ markedBlocks status.blockArray} := by
    intro k hk
    have hlt : k / blockSize < status.blockArray.length := by
      rw [hcopying.length]
      exact div_lt_blockCount (by decide) hk
    have hnone : false ∉ status.blockArray := by
      rw [← List.count_eq_zero, ← hcopying.remaining, hzero]
    rw [Set.mem_ofPred_eq, mem_markedBlocks, List.getElem?_eq_getElem hlt]
    cases hget : status.blockArray[k / blockSize] with
    | true => rfl
    | false => exact absurd (hget ▸ List.getElem_mem hlt) hnone
  apply hsparse.eq_source
  exact hmarked

/-- Writing the bytes of a block that is not marked, and marking it if that succeeds. -/
theorem Copying.wrote {state : StatusState} {block : ℕ}
    (hcopying : state.status.Copying path source state.files)
    (hmark : state.status.blockArray[block]? = some false)
    (hcount : blockCount blockSize source < 2 ^ 32) :
    let state' := SyncStatus.wrote env block (slice blockSize source block) state
    if state'.status.output.failed = true then
      state'.status.Copying path source state'.files
    else (marked block state').status.Copying path source state'.files := by
  intro state'
  have hlt : block < state.status.blockArray.length :=
    (List.getElem?_eq_some_iff.mp hmark).1
  have hlength := hcopying.length
  have hposition : blockSize * block % 2 ^ 64 = blockSize * block := by
    rw [blockSize]
    omega
  obtain ⟨hset, hpos⟩ := count_set_true hmark
  have hle : state.status.blockArray.count false ≤ state.status.blockArray.length :=
    List.count_le_length
  have hfile : state'.status.output.file = state.status.output.file :=
    SyncStatus.wrote_file env block _ state
  have hdirectory : state'.files.directory = state.files.directory := by
    simp [state', SyncStatus.wrote, OutStream.write_directory]
  have hheld : ∀ file, state'.status.output.file = some file →
      state'.files.directory state'.status.temp = some file := by
    rw [hfile, hdirectory]
    exact hcopying.held
  split_ifs with hfailed
  · refine ⟨hcopying.path, hcopying.cstr_temp, hcopying.temp_ne, hlength,
      hcopying.remaining, hheld, fun _ _ => Or.inl ⟨hfailed, ?_⟩⟩
    rw [show state'.status.remainingBlocks = state.status.remainingBlocks from rfl,
      hcopying.remaining]
    omega
  · obtain ⟨file, hopen, hgood, hfiles⟩ := OutStream.seekp_write_done
      (Bool.eq_false_iff.mpr hfailed)
    have hname := hcopying.held file hopen
    refine ⟨hcopying.path, hcopying.cstr_temp, hcopying.temp_ne, ?_, ?_, hheld, ?_⟩
    · exact List.length_set.trans hlength
    · show decrement state.status.remainingBlocks =
        (state.status.blockArray.set block true).count false
      rw [hset, hcopying.remaining, decrement_of_pos hpos (by omega)]
    · intro content hcontent
      have hfound : state'.files.file? state.status.temp = some content := hcontent
      rw [show state'.files = _ from hfiles, hposition,
        FileStore.file?_write_self _ hname] at hfound
      cases hfound
      refine Or.inr ?_
      show Sparse blockSize source
        {number | number ∈ markedBlocks (state.status.blockArray.set block true)} _
      rw [setOf_mem_markedBlocks_set hlt]
      apply Sparse.write _ (by decide)
      apply (hcopying.content _ _).resolve_left
      · rw [hgood]
        simp
      · rw [FileStore.file?, hname, Option.map_some]

/-- A block is written into the file that the record holds open. -/
theorem wrote_files (env : Environment) (block : ℕ) (payload : Bytes) (state : StatusState) :
    (wrote env block payload state).files = state.files ∨
      ∃ file position bytes, state.status.output.file = some file ∧
        (wrote env block payload state).files = state.files.write file position bytes := by
  unfold wrote
  rcases (state.status.output.seekp (blockSize * block % 2 ^ 64)).write_store payload
    env.writeLimit state.files with hsame | ⟨file, position, bytes, hopen, hwrite⟩
  · exact Or.inl hsame
  · rw [OutStream.seekp_file] at hopen
    exact Or.inr ⟨file, position, bytes, hopen, hwrite⟩

/-- A complete record puts nothing but the file under the path. -/
theorem Copying.published (hcopying : status.Copying path source files)
    (outcome : PublishOutcome) (hcomplete : status.Complete) :
    (SyncStatus.published outcome ⟨status, files, []⟩).files.file? (cstr path) =
        files.file? (cstr path) ∨
      (SyncStatus.published outcome ⟨status, files, []⟩).files.file? (cstr path) =
        some source := by
  have hpath := hcopying.path.resolve_left hcomplete.2
  unfold SyncStatus.published SyncStatus.renameTemp
  split_ifs with hrename
  · simp only [hcopying.cstr_temp, hpath]
    cases htemp : files.file? status.temp with
    | none => exact Or.inl rfl
    | some content =>
        rw [hcopying.content_eq hcomplete.1 htemp] at htemp
        exact Or.inr (FileStore.file?_rename_new _ _ htemp)
  · exact Or.inl rfl

end SyncStatus

namespace BlockClient

/-- Only this file has a record, which copies it; under its path there is what was there
first, or the file. -/
structure Copies (info : FileInfo) (destination source : Bytes) (old : Option Bytes)
    (client : BlockClient) : Prop where
  records : ∀ other status, client.syncSet.find? other = some status →
    other = info ∧ status.Copying destination source client.files
  destination : client.files.file? (cstr destination) = old ∨
    client.files.file? (cstr destination) = some source

variable {order : ByteOrder} {env : Environment} {message : Message} {address : Address}
  {info : FileInfo} {destination source : Bytes} {old : Option Bytes}
  {client : BlockClient} {status : SyncStatus}

theorem Copies.created {files : FileStore Bytes}
    (hclient : client.Copies info destination source old)
    (hcount : (info.getBlockCount order).toNat = blockCount blockSize source)
    (hfresh : client.files.directory (tempName env.tmpnam info) = none)
    (hne : tempName env.tmpnam info ≠ cstr destination)
    (hnone : client.syncSet.find? info = none)
    (hcreate : SyncStatus.create order env info address client.files = .ok (status, files)) :
    (client.created info status files).Copies info destination source old := by
  constructor
  · refine OrderedMap.forall_insert hnone (fun other found hother hfind => ?_) ?_
    · exact absurd (hclient.records other found hfind).1 hother
    · exact ⟨rfl, .of_create hcount hfresh hne hcreate⟩
  · obtain ⟨_, _, rfl⟩ := SyncStatus.create_eq_ok hcreate
    rw [BlockClient.created, OutStream.openFile_file?_ne hne.symm]
    exact hclient.destination

/-- What was written went into the temporary file. -/
theorem Copies.wrote {block : ℕ} (hclient : client.Copies info destination source old)
    (hfind : client.syncSet.find? info = some status) (payload : Bytes) :
    (SyncStatus.wrote env block payload ⟨status, client.files, []⟩).files.file?
        (cstr destination) = client.files.file? (cstr destination) := by
  rcases SyncStatus.wrote_files env block payload ⟨status, client.files, []⟩ with
    hsame | ⟨file, position, bytes, hopen, hwrite⟩
  · rw [hsame]
  · rw [hwrite]
    exact FileStore.file?_write_ne _ ((hclient.records info status hfind).2.other hopen) _ _

theorem Copies.putStatus {state : StatusState}
    (hclient : client.Copies info destination source old)
    (hfind : client.syncSet.find? info = some status)
    (hstate : state.status.Copying destination source state.files)
    (hsame : state.files.file? (cstr destination) =
      client.files.file? (cstr destination)) :
    (client.putStatus info state).Copies info destination source old := by
  constructor
  · refine OrderedMap.forall_replace hfind (fun other found hother hfound => ?_) ?_
    · exact absurd (hclient.records other found hfound).1 hother
    · exact ⟨rfl, hstate⟩
  · rw [BlockClient.putStatus, hsame]
    exact hclient.destination

/-- An announcement of the path, or a block with its bytes. -/
theorem Copies.worked {state : StatusState} {heardNow : FileMessage UInt8}
    (hclient : client.Copies info destination source old)
    (hcount : blockCount blockSize source < 2 ^ 32)
    (hbrings : Brings order info source message heardNow)
    (hpath : ∀ path, heardNow = .info path → path = destination)
    (hfind : client.syncSet.find? info = some status)
    (hworks : Works order env message ⟨status, client.files, []⟩ state) :
    (client.putStatus info state).Copies info destination source old := by
  have hcopying := (hclient.records info status hfind).2
  have hmessage := hbrings.heard 0
  cases hworks with
  | @announced text htype htext =>
      rw [Message.fileMessage?_of_info htype htext] at hmessage
      have htext := hpath text (Option.some.inj hmessage).symm
      apply hclient.putStatus hfind _ rfl
      exact ⟨Or.inr htext, hcopying.cstr_temp, hcopying.temp_ne, hcopying.length,
        hcopying.remaining, hcopying.held, hcopying.content⟩
  | @wrote block htype hblock =>
      rw [Message.fileMessage?_of_block htype hblock] at hmessage
      obtain ⟨hlt, hpayload⟩ := hbrings.block _ (Option.some.inj hmessage).symm
      rw [SyncStatus.writeBlock_apply]
      cases hmark : status.blockArray[(block.getBlock order).toNat]? with
      | none => exact hclient.putStatus hfind hcopying rfl
      | some mark =>
          cases mark with
          | true => exact hclient.putStatus hfind hcopying rfl
          | false =>
              have hwrote := @SyncStatus.Copying.wrote env destination source
                ⟨status, client.files, []⟩ _ hcopying hmark hcount
              have hsame := @Copies.wrote env info destination source old client status
                (block.getBlock order).toNat hclient hfind
                (slice blockSize source (block.getBlock order).toNat)
              simp only [hpayload]
              split_ifs with hfailed
              · simp only [if_pos hfailed] at hwrote
                exact hclient.putStatus hfind hwrote hsame
              · simp only [if_neg hfailed] at hwrote
                exact hclient.putStatus hfind hwrote hsame

theorem Copies.finished {outcome : PublishOutcome}
    (hclient : client.Copies info destination source old)
    (hfind : client.syncSet.find? info = some status) (hfinished : status.Finished) :
    ((client.publish outcome info status).erased info).Copies info destination source
      old := by
  obtain ⟨_, hzero, hpath⟩ := hfinished
  have hcopying := (hclient.records info status hfind).2
  have hdestination := hcopying.path.resolve_left hpath
  constructor
  · apply OrderedMap.forall_erase
    intro other found hother hfound
    rw [BlockClient.publish, BlockClient.putStatus, OrderedMap.find?_replace_ne hother] at hfound
    exact absurd (hclient.records other found hfound).1 hother
  · have hpublished : ((client.publish outcome info status).erased info).files =
        (SyncStatus.published outcome ⟨status, client.files, []⟩).files := rfl
    rw [hpublished]
    rcases hcopying.published outcome ⟨hzero, hpath⟩ with hsame | hsource
    · rw [hsame]
      exact hclient.destination
    · exact Or.inr hsource

/-- If there is no record yet, no file has this name and the file is not to get it. -/
def Fresh (name destination : Bytes) (client : BlockClient) : Prop :=
  (∀ info, client.syncSet.find? info = none) →
    client.files.directory name = none ∧ name ≠ cstr destination

theorem Copies.fresh {name : Bytes} (hclient : client.Copies info destination source old)
    (hfresh : client.Fresh name destination) (hnone : client.syncSet.find? info = none) :
    client.files.directory name = none ∧ name ≠ cstr destination := by
  apply hfresh
  intro other
  cases hfind : client.syncSet.find? other with
  | none => rfl
  | some status =>
      rw [(hclient.records other status hfind).1, hnone] at hfind
      contradiction

/-- The message is about the file. -/
theorem handle_copies {heardNow : FileMessage UInt8}
    (hcount : (info.getBlockCount order).toNat = blockCount blockSize source)
    (hquiet : message.getType order ≠ MessageType.sgoodbye.code)
    (hbrings : Brings order info source message heardNow)
    (hpath : ∀ path, heardNow = .info path → path = destination) :
    Triple (fun client => client.Copies info destination source old ∧
        client.Fresh (tempName env.tmpnam info) destination)
      (handle order env message address)
      (fun _ => Copies info destination source old)
      (fun _ => Copies info destination source old) := by
  have hlt : blockCount blockSize source < 2 ^ 32 := by
    rw [← hcount]
    exact (info.getBlockCount order).toNat_lt
  have hnamed : ∀ {found}, message.fileInfo? order = some found → found = info := by
    intro found hfound
    exact Option.some.inj (hfound.symm.trans hbrings.info)
  apply handle_triple_of_quiet hquiet fun _ hclient => hclient.1
  · intro found client status files hfound hclient hnone hcreate
    cases hnamed hfound
    obtain ⟨hfresh, hne⟩ := hclient.1.fresh hclient.2 hnone
    exact hclient.1.created hcount hfresh hne hnone hcreate
  · intro found client status state hfound hclient hfind hworks
    cases hnamed hfound
    exact hclient.worked hlt hbrings hpath hfind hworks
  · intro found client status hfound hclient hfind hfinished
    cases hnamed hfound
    exact hclient.finished hfind hfinished

end BlockClient

theorem ClientRun.step_of_triple {order : ByteOrder} {P Q : BlockClient → Prop}
    {run : ClientRun} {input : ClientInput} (hweak : ∀ client, P client → Q client)
    (hselect : Triple P (BlockClient.select order input) (fun _ => Q) fun _ => Q)
    (hrun : P run.client) : Q (run.step order input).client := by
  unfold ClientRun.step
  split
  · split
    · rw [client_ofResult]
      exact Triple.endState hselect hrun
    · exact hweak _ hrun
  · exact hweak _ hrun

/-! ## The network -/

/-- The server, and no other client than this one. -/
def Site.only {ι : Type} (site : Site ι) (i : ι) : Site Unit :=
  { site with
    clientOrder := fun _ => site.clientOrder i
    pid := fun _ => site.pid i
    clientId := fun _ => site.clientId i
    files := fun _ => site.files i
    clientIp := fun _ => site.clientIp i }

/-- The post is the announcement or a block of the source. -/
theorem mem_filePosts_of_sliced {source : Bytes} {posts : List Post} {post : Post}
    (hlong : blockCount blockSize source ≤ 2 ^ 22)
    (hsliced : Sliced source (blockCount blockSize source) posts)
    (hpost : post = .info ∨ post ∈ posts) :
    post ∈ filePosts source (blockCount blockSize source) := by
  cases post with
  | info => exact List.mem_cons_self
  | block number payload =>
      obtain ⟨hlt, hpayload⟩ := hsliced number payload (hpost.resolve_left (by simp))
      rw [Nat.mod_eq_of_lt (by omega)] at hpayload
      rw [hpayload]
      apply List.mem_cons_of_mem
      exact List.mem_map_of_mem (List.mem_range.mpr hlt)

namespace Network

variable {ι : Type} [DecidableEq ι] {site : Site ι} {source : Bytes} {net : Network ι}

/-- The device does not fail under the server, and a client without a record gets a name
for its temporary file that no file has and that is not the path. -/
def fresh (site : Site ι) : Conditions where
  serverInput := fun input => input.readError = false
  clientInput := fun client input =>
    client.Fresh (tempName input.env.tmpnam site.server.fileInfo) site.path

/-- The run of a server that reads the source. -/
def Slicing (site : Site ι) (source : Bytes) (run : ServerRun) : Prop :=
  Serving run ∧ run.Holds (BlockServer.SlicesAt site.serverOrder site.server source)
    (BlockServer.SlicedWithin site.serverOrder site.server source)

/-- The run of a client that copies the file. -/
def Copying (site : Site ι) (source : Bytes) (i : ι) (run : ClientRun) : Prop :=
  Listening site i run ∧ run.client.Copies (site.only i).readInfo site.path source
    ((site.files i).file? (cstr site.path))

/-- What travels, whichever client reads it. -/
def Travels (site : Site ι) (source bytes : Bytes) : Prop :=
  Typed spoken bytes ∧ ∀ i, (site.only i).Conveys source bytes

omit [DecidableEq ι] in
theorem Slicing.within {run : ServerRun} (hrun : Slicing site source run) :
    BlockServer.SlicedWithin site.serverOrder site.server source run.server := by
  have hslices := hrun.2
  unfold ServerRun.Holds at hslices
  split at hslices
  next phase _ =>
    cases phase with
    | serving block =>
        obtain ⟨posts, _, hslicing, _⟩ := hslices
        exact hslicing.within
    | draining =>
        obtain ⟨posts, hslicing⟩ := hslices
        exact hslicing.within
    | returned =>
        obtain ⟨posts, hslicing⟩ := hslices
        exact hslicing.within
  next => exact hslices

omit [DecidableEq ι] in
theorem Slicing.conveys {run : ServerRun} (hrun : Slicing site source run)
    (hserves : site.server.ServesFile site.serverOrder source)
    (hlong : blockCount blockSize source ≤ 2 ^ 22) :
    ∀ datagram ∈ run.server.socket.sent, Travels site source datagram.2 := by
  intro datagram hmem
  have hposted : datagram.2 ∈ run.server.posted :=
    List.mem_append_left _ (List.mem_map_of_mem hmem)
  refine ⟨(hrun.1.1 _ hposted).mono (by decide), fun i => ?_⟩
  obtain ⟨posts, hsliced, hwithin⟩ := hrun.within
  rw [BlockServer.total, hserves.count (by omega)] at hsliced
  obtain ⟨post, hpost, hbytes⟩ := hwithin _ hposted
  exact Or.inr ⟨post, mem_filePosts_of_sliced hlong hsliced hpost, hbytes⟩

omit [DecidableEq ι] in
theorem slicing_start (hserves : site.server.ServesFile site.serverOrder source)
    (hcount : blockCount blockSize source < 2 ^ 32) {ephemeral : UInt16}
    {openError : Option String} {input : ServerInput} (hread : input.readError = false) :
    Slicing site source
      (ServerRun.start site.serverOrder ephemeral openError input site.server) := by
  obtain ⟨hslicing, hgood⟩ := hserves.slicing
  exact ⟨serving_start ephemeral openError input,
    BlockServer.start_slices (hserves.whole hcount) hread hslicing hgood⟩

omit [DecidableEq ι] in
theorem Slicing.step {run : ServerRun} {input : ServerInput}
    (hrun : Slicing site source run)
    (hserves : site.server.ServesFile site.serverOrder source)
    (hcount : blockCount blockSize source < 2 ^ 32) (hread : input.readError = false) :
    Slicing site source (run.step site.serverOrder input) :=
  ⟨⟨ServerRun.step_keeps BlockServer.resume_announces hrun.1.1, hrun.1.2.step⟩,
    ServerRun.step_holds (fun phase _ hserver =>
      BlockServer.resume_slices (hserves.whole hcount) hread phase hserver) hrun.2⟩

omit [DecidableEq ι] in
/-- Every client takes the hello of every client. -/
theorem hello_hails (site : Site ι) (i j : ι) :
    (site.only j).Hails ((site.client i).helloMessage (site.clientOrder i)).buffer := by
  have himage := Message.length_metadataImage (site.clientOrder i) (site.client i).info
  have hform := (@BlockClient.helloMessage_wireForm (site.clientOrder i)
    (site.client i)).received (by
      rw [himage]
      decide)
  exact ⟨hform.framed (by decide) _, hform.buffer_ne_nil,
    fun order => Or.inl (hform.getType order)⟩

omit [DecidableEq ι] in
theorem Copying.conveys {i : ι} {run : ClientRun} (hrun : Copying site source i run) :
    ∀ datagram ∈ run.client.socket.sent, Travels site source datagram.2 := by
  intro datagram hmem
  obtain ⟨hello, _, hgreeting, hposted⟩ := hrun.1.posted
  have hbytes : datagram.2 ∈ hello := by
    rw [← hposted]
    exact List.mem_append_left _ (List.mem_map_of_mem hmem)
  rw [hgreeting _ hbytes]
  exact ⟨(BlockClient.helloMessage_wireForm (site.client i)).typed (by decide),
    fun j => Or.inl (hello_hails site i j)⟩

omit [DecidableEq ι] in
/-- Whatever travels, a client that reads it goes on copying. -/
theorem copies_step {i : ι} {run : ClientRun} {input : ClientInput}
    (hoffers : (site.only i).Offers source)
    (hlong : blockCount blockSize source ≤ 2 ^ 22)
    (hrun : Copying site source i run) (hinput : (fresh site).clientInput run.client input)
    (hbrought : Brought (Travels site source) input.arrival) :
    (run.step (site.clientOrder i) input).client.Copies (site.only i).readInfo site.path
      source ((site.files i).file? (cstr site.path)) := by
  have htemp : tempName input.env.tmpnam (site.only i).readInfo =
      tempName input.env.tmpnam site.server.fileInfo := by
    rw [tempName, tempName, Site.readInfo, FileInfo.digest_load]
    rfl
  have hfresh : run.client.Fresh (tempName input.env.tmpnam (site.only i).readInfo)
      site.path := by
    rw [htemp]
    exact hinput
  have hselect : Triple
      (fun client : BlockClient => client.Copies (site.only i).readInfo site.path source
          ((site.files i).file? (cstr site.path)) ∧
        client.Fresh (tempName input.env.tmpnam (site.only i).readInfo) site.path)
      (BlockClient.select (site.clientOrder i) input)
      (fun _ client => client.Copies (site.only i).readInfo site.path source
        ((site.files i).file? (cstr site.path)))
      (fun _ client => client.Copies (site.only i).readInfo site.path source
        ((site.files i).file? (cstr site.path))) := by
    apply BlockClient.select_triple_of_message
    · exact fun _ hclient => hclient.1
    · exact fun _ _ hclient => ⟨⟨hclient.1.records, hclient.1.destination⟩, hclient.2⟩
    · exact fun _ _ _ hclient => ⟨hclient.records, hclient.destination⟩
    · intro message sender hmessage
      obtain ⟨datagram, harrival, rfl⟩ := ClientInput.arrival_of_message hmessage
      obtain ⟨htyped, hconveys⟩ := hbrought datagram harrival
      rcases hconveys i with hhails | ⟨post, hpost, hbytes⟩
      · intro client hclient
        rw [BlockClient.handle_fromClient (hhails.fromClient _)]
        exact hclient.1
      · have hcarries := hoffers.carries hlong hpost
        rw [← hbytes] at hcarries
        apply BlockClient.handle_copies (hoffers.count hlong) (htyped.ne (by decide) _)
          hcarries.brings
        intro path hinfo
        cases post with
        | info =>
            cases hinfo
            rfl
        | block number payload => contradiction
  exact ClientRun.step_of_triple (fun _ hclient => hclient.1) hselect ⟨hrun.2, hfresh⟩

omit [DecidableEq ι] in
theorem contract_copying (hoffers : ∀ i, (site.only i).Offers source)
    (hserves : site.server.ServesFile site.serverOrder source)
    (hlong : blockCount blockSize source ≤ 2 ^ 22) :
    Contract site (fresh site) (Slicing site source) (Copying site source)
      (Travels site source) where
  serverStart ephemeral openError input hread := slicing_start hserves (by omega) hread
  serverStep run input hrun hread _ := hrun.step hserves (by omega) hread
  serverSent run hrun := hrun.conveys hserves hlong
  clientStart i ephemeral openError := by
    have hclosed := @contract_closed ι site (fresh site)
    refine ⟨hclosed.clientStart i ephemeral openError, ?_⟩
    rw [ClientRun.start, ClientRun.client_ofResult]
    apply (@BlockClient.start_keeps (site.clientOrder i)
      (BlockClient.Copies (site.only i).readInfo site.path source
        ((site.files i).file? (cstr site.path))) ephemeral openError
      fun _ _ _ hclient => ⟨hclient.records, hclient.destination⟩).endState
    refine ⟨fun info status hfind => ?_, Or.inl rfl⟩
    rw [Site.client, BlockClient.create, OrderedMap.find?_empty] at hfind
    contradiction
  clientStep i run input hrun hinput hbrought := by
    have hclosed := @contract_closed ι site (fresh site)
    refine ⟨hclosed.clientStep i run input hrun.1 hinput fun datagram harrival =>
      (hbrought datagram harrival).1, ?_⟩
    exact copies_step (hoffers i) hlong hrun hinput hbrought
  clientSent i run hrun := hrun.conveys

/-- Under the path of the file every client has what was there before, or the whole
file. -/
theorem Lossy.destination (hoffers : ∀ i, (site.only i).Offers source)
    (hlong : blockCount blockSize source ≤ 2 ^ 22)
    (hnet : Lossy site (fresh site) empty net) {i : ι} {run : ClientRun}
    (hrun : net.clients i = some run) :
    run.client.files.file? (cstr site.path) = (site.files i).file? (cstr site.path) ∨
      run.client.files.file? (cstr site.path) = some source := by
  have hcontract := contract_copying hoffers (hoffers i).servesFile hlong
  exact ((hcontract.lossy hnet).clients i run hrun).2.destination

/-- A client has records of the one file only, and as long as no write of a record was
refused its temporary file is what the marked blocks make, written in their order. -/
theorem Lossy.assembled (hoffers : ∀ i, (site.only i).Offers source)
    (hlong : blockCount blockSize source ≤ 2 ^ 22)
    (hnet : Lossy site (fresh site) empty net) {i : ι} {run : ClientRun}
    (hrun : net.clients i = some run) {info : FileInfo} {status : SyncStatus}
    (hfind : run.client.syncSet.find? info = some status) :
    info = (site.only i).readInfo ∧ (status.path = [] ∨ status.path = site.path) ∧
      status.remainingBlocks = status.blockArray.count false ∧
      (status.output.failed = false →
        ∀ content, run.client.files.file? status.temp = some content →
          content = assemble blockSize source (markedBlocks status.blockArray)) := by
  have hcontract := contract_copying hoffers (hoffers i).servesFile hlong
  obtain ⟨hinfo, hcopying⟩ :=
    ((hcontract.lossy hnet).clients i run hrun).2.records info status hfind
  refine ⟨hinfo, hcopying.path, hcopying.remaining, fun hgood content hcontent => ?_⟩
  have hsparse := (hcopying.content content hcontent).resolve_left (by simp [hgood])
  exact hsparse.eq_assemble (by decide) fun _ => Iff.rfl

/-! ## A block that comes twice -/

theorem lossy_serverSends {conditions : Conditions} {first net : Network Unit}
    (hnet : Lossy fileSite conditions first net) (hlive : net.serverSocket?.isSome)
    (hinput : conditions.serverInput writableServerInput) :
    Lossy fileSite conditions first net.serverSends := by
  obtain ⟨socket, hbind⟩ := Option.isSome_iff_exists.mp hlive
  obtain ⟨run, hrun, hsome⟩ := Option.bind_eq_some_iff.mp hbind
  have hsocket := Option.isSome_iff_exists.mpr ⟨socket, hsome⟩
  rw [serverSends, hrun]
  apply hnet.tail
  apply LossyStep.server writableServerInput hrun hsocket hinput
  intro datagram harrival
  contradiction

/-- The client reads the first datagram it was sent; the rest of the wait depends on it. -/
def clientTakes (input : Address × Bytes → ClientInput) (net : Network Unit) :
    Network Unit :=
  match net.clients (), net.clientInbox () with
  | some run, datagram :: _ => net.clientStep fileSite () run (input datagram)
  | _, _ => net

theorem lossy_clientTakes {conditions : Conditions} {first net : Network Unit}
    {input : Address × Bytes → ClientInput}
    (hreads : ∀ datagram, (input datagram).ready = .ok ⟨true, false⟩ ∧
      (input datagram).arrival = .ok datagram)
    (hnet : Lossy fileSite conditions first net) (hlive : (net.clientSocket? ()).isSome)
    (hinput : ∀ run datagram, net.clients () = some run →
      conditions.clientInput run.client (input datagram)) :
    Lossy fileSite conditions first (net.clientTakes input) := by
  obtain ⟨socket, hbind⟩ := Option.isSome_iff_exists.mp hlive
  obtain ⟨run, hrun, hsome⟩ := Option.bind_eq_some_iff.mp hbind
  have hsocket := Option.isSome_iff_exists.mpr ⟨socket, hsome⟩
  rw [clientTakes, hrun]
  cases hinbox : net.clientInbox () with
  | nil => exact hnet
  | cons datagram rest =>
      obtain ⟨hready, harrival⟩ := hreads datagram
      apply hnet.tail
      apply LossyStep.client () _ hrun hsocket (hinput run datagram hrun)
      intro other hother
      rw [harrival] at hother
      cases hother
      rw [hinbox]
      exact ⟨List.mem_cons_self, false, hready⟩

theorem lossy_clientReads {conditions : Conditions} {first net : Network Unit}
    {flag : Bool} (hnet : Lossy fileSite conditions first net)
    (hlive : (net.clientSocket? ()).isSome)
    (hinput : ∀ run datagram, net.clients () = some run →
      conditions.clientInput run.client (readingInput flag datagram)) :
    Lossy fileSite conditions first (net.clientReads flag) :=
  lossy_clientTakes (fun _ => ⟨rfl, rfl⟩) hnet hlive hinput

theorem fileSite_only_offers (i : Unit) : (fileSite.only i).Offers [1, 2, 3] :=
  ⟨fileSite_offers.opened, fileSite_offers.measured, fileSite_offers.path,
    fileSite_offers.path_le, fileSite_offers.port⟩

/-- The announcement and the block are on their way. -/
def sentNetwork : Network Unit :=
  (((oneClient fileSite 0).serverStart fileSite 40000 none
    writableServerInput).serverSends).serverSends

theorem lossy_sentNetwork : Lossy fileSite (fresh fileSite) empty sentNetwork := by
  have hclient : Lossy fileSite (fresh fileSite) empty (oneClient fileSite 0) :=
    .single (.startClient () 0 none rfl)
  have hstart := hclient.tail (.startServer 40000 none writableServerInput rfl rfl)
  have hinfo := lossy_serverSends hstart (by decide +kernel) rfl
  exact lossy_serverSends hinfo (by decide +kernel) rfl

/-- The block comes twice, and before the announcement. -/
def twiceNetwork : Network Unit :=
  { sentNetwork with
    clientInbox := fun i => (sentNetwork.clientInbox i).drop 1 ++
      (sentNetwork.clientInbox i).reverse }

theorem lossy_twiceNetwork : Lossy fileSite (fresh fileSite) empty twiceNetwork := by
  apply lossy_sentNetwork.tail
  apply LossyStep.redeliver
  · exact fun _ hmem => hmem
  · intro i datagram hmem
    rcases List.mem_append.mp hmem with hblock | hall
    · exact List.mem_of_mem_drop hblock
    · exact List.mem_reverse.mp hall

/-- The client reads the block twice. -/
def storedNetwork : Network Unit :=
  (twiceNetwork.clientReads true).clientReads true

/-- The name of the temporary file of the client of the three bytes. -/
def fileTemp : Bytes := tempName [116] fileSite.server.fileInfo

theorem fresh_of_record {net : Network Unit}
    (hrecord : (net.clients ()).map (fun run =>
      (run.client.syncSet.find? (fileSite.only ()).readInfo).isSome) = some true)
    {flag : Bool} {run : ClientRun} {datagram : Address × Bytes}
    (hrun : net.clients () = some run) :
    (fresh fileSite).clientInput run.client (readingInput flag datagram) := by
  intro hnone
  rw [hrun, Option.map_some, hnone] at hrecord
  contradiction

theorem fresh_twiceNetwork {run : ClientRun} (hrun : twiceNetwork.clients () = some run) :
    run.client.Fresh fileTemp fileSite.path := by
  intro _
  have hname : (twiceNetwork.clients ()).map (fun run =>
      run.client.files.directory fileTemp) = some none := by
    decide +kernel
  rw [hrun, Option.map_some] at hname
  exact ⟨Option.some.inj hname, show fileTemp ≠ cstr fileSite.path by decide +kernel⟩

theorem lossy_storedNetwork : Lossy fileSite (fresh fileSite) empty storedNetwork := by
  have hfirst : Lossy fileSite (fresh fileSite) empty (twiceNetwork.clientReads true) :=
    lossy_clientReads lossy_twiceNetwork (by decide +kernel) fun _ _ hrun =>
      fresh_twiceNetwork hrun
  exact lossy_clientReads hfirst (by decide +kernel) fun _ _ hrun =>
    fresh_of_record (by decide +kernel) hrun

/-- The block is there, and the path is not known. -/
theorem storedNetwork_assembled : ∃ run status,
    storedNetwork.clients () = some run ∧
      run.client.syncSet.find? (fileSite.only ()).readInfo = some status ∧
      (status.output.failed = false →
        ∀ content, run.client.files.file? status.temp = some content →
          content = assemble blockSize [1, 2, 3] (markedBlocks status.blockArray)) := by
  have hrecord : ((storedNetwork.clients ()).bind fun run =>
      run.client.syncSet.find? (fileSite.only ()).readInfo).isSome := by
    decide +kernel
  obtain ⟨status, hbind⟩ := Option.isSome_iff_exists.mp hrecord
  obtain ⟨run, hrun, hfind⟩ := Option.bind_eq_some_iff.mp hbind
  exact ⟨run, status, hrun, hfind, (lossy_storedNetwork.assembled
    fileSite_only_offers (by decide) hrun hfind).2.2.2⟩

/-- The client reads the announcement too. -/
def copiedNetwork : Network Unit := storedNetwork.clientReads true

theorem copiedNetwork_destination : ∃ run, copiedNetwork.clients () = some run ∧
    (run.client.files.file? (cstr fileSite.path) = none ∨
      run.client.files.file? (cstr fileSite.path) = some [1, 2, 3]) := by
  have hnet : Lossy fileSite (fresh fileSite) empty copiedNetwork :=
    lossy_clientReads lossy_storedNetwork (by decide +kernel) fun _ _ hrun =>
      fresh_of_record (by decide +kernel) hrun
  obtain ⟨run, hrun⟩ := Option.isSome_iff_exists.mp
    (show (copiedNetwork.clients ()).isSome by decide +kernel)
  exact ⟨run, hrun, hnet.destination fileSite_only_offers (by decide) hrun⟩

end Network

end Multisync
