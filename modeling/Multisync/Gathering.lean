import Multisync.Addressing
import Multisync.Histories
import Multisync.Publication
import Mathlib.Tactic

/-!
# One file, gathered

The announcement and the blocks of one file, each heard once and in any order, by a
client whose new record finds its flag set.  The temporary file agrees with the file on
every block that was heard, and with the last message it is put into its place.
-/

namespace Multisync

open ByteLayout Effects BlockAssembly

namespace SyncStatus

/-- The record stands for what was heard of the source, its flag is set and its
temporary file is open. -/
structure Gathers (source : Bytes) (heard : List (FileMessage UInt8))
    (status : SyncStatus) (files : FileStore Bytes) : Prop where
  mirrors : status.Mirrors (blockCount blockSize source) ⟨true, heard⟩
  intact : status.Intact (blockCount blockSize source)
  receiving : Receiving source status files
  cstr_temp : cstr status.temp = status.temp
  held : ∃ file, status.output.file = some file ∧
    files.directory status.temp = some file

variable {order : ByteOrder} {env : Environment} {message : Message} {source : Bytes}
  {heard : List (FileMessage UInt8)} {status : SyncStatus} {files : FileStore Bytes}

theorem Gathers.of_create {info : FileInfo} {address : Address}
    {files' : FileStore Bytes}
    (hcount : (info.getBlockCount order).toNat = blockCount blockSize source)
    (hopened : env.opened = true) (hflag : env.goodbyeReceived = true)
    (hcreate : create order env info address files = .ok (status, files')) :
    status.Gathers source [] files' := by
  have hmirrors := Mirrors.of_create hcreate
  have hintact := Intact.of_create hopened hcreate
  rw [hcount] at hmirrors hintact
  rw [hflag] at hmirrors
  obtain ⟨_, hstatus, hfiles⟩ := create_eq_ok hcreate
  have hself : files'.file? status.temp = some [] := by
    rw [hfiles, hstatus, hopened]
    exact FileStore.file?_create_self _ _
  refine ⟨hmirrors, hintact, ⟨hintact.length, hintact.remaining, fun content hcontent => ?_⟩,
    ?_, ?_⟩
  · rw [hself] at hcontent
    cases hcontent
    rw [hstatus, hcount]
    exact Assembled.empty blockSize source _
  · rw [hstatus]
    exact cstr_tempName _ _
  · have hheld := OutStream.openFile_held (tempName env.tmpnam info) env.opened files
    rw [hopened] at hheld
    rw [hfiles, hstatus, hopened]
    exact ⟨_, rfl, hheld _ rfl⟩

theorem Gathers.setPath (hgathers : status.Gathers source heard files) {path : Bytes}
    (hpath : cstr path = [] → path = []) :
    ({ status with path := path } : SyncStatus).Gathers source (heard ++ [.info path])
      files :=
  ⟨hgathers.mirrors.setPath hpath,
    ⟨hgathers.intact.length, hgathers.intact.remaining, hgathers.intact.writable⟩,
    ⟨hgathers.receiving.length, hgathers.receiving.remaining,
      hgathers.receiving.assembled⟩,
    hgathers.cstr_temp, hgathers.held⟩

/-- A block that carries its bytes is written, or was there. -/
theorem Gathers.writeBlock (hgathers : status.Gathers source heard files) {number : ℕ}
    (hwrites : env.writeLimit = none) (hcount : blockCount blockSize source < 2 ^ 32)
    (hlt : number < blockCount blockSize source)
    (htext : message.getText order = .ok (slice blockSize source number)) :
    ∃ state, SyncStatus.writeBlock order env number message ⟨status, files, []⟩ =
        .ok () state ∧ state.publications = [] ∧
      state.status.Gathers source (heard ++ [.block number]) state.files := by
  have hmark := hgathers.mirrors.blocks number hlt
  obtain ⟨file, hfile, hdirectory⟩ := hgathers.held
  by_cases hold : FileMessage.block number ∈ heard
  · rw [decide_eq_true hold] at hmark
    have hset : status.blockArray = status.blockArray.set number true := by
      obtain ⟨hlength, hget⟩ := List.getElem?_eq_some_iff.mp hmark
      conv_rhs => rw [← hget]
      exact (List.set_getElem_self hlength).symm
    refine ⟨⟨status, files, []⟩, ?_, rfl, hgathers.mirrors.block rfl hset rfl,
      hgathers.intact, hgathers.receiving, hgathers.cstr_temp, hgathers.held⟩
    rw [writeBlock_apply]
    simp only [hmark]
  · rw [decide_eq_false hold] at hmark
    obtain ⟨hok, hintact⟩ := @Intact.writeBlock order env message _
      ⟨status, files, []⟩ _ _ hgathers.intact (by omega) hwrites hmark htext
    have hgood : (wrote env number (slice blockSize source number)
        ⟨status, files, []⟩).status.output.failed = false := by
      rw [writeBlock_apply] at hok
      simp only [hmark, htext] at hok
      split_ifs at hok with hfailed
      exact Bool.eq_false_iff.mpr hfailed
    have hreceiving := @Receiving.wrote env source ⟨status, files, []⟩ number
      hgathers.receiving (fun other hother => by rw [← hother, hfile, hdirectory]) hwrites
      hmark hcount
    simp only [hgood, Bool.false_eq_true, if_false] at hreceiving
    refine ⟨_, hok, rfl, hgathers.mirrors.block rfl rfl rfl, hintact, hreceiving,
      hgathers.cstr_temp, file, ?_, ?_⟩
    · exact (SyncStatus.wrote_file env number _ _).trans hfile
    · simp only [marked, wrote, OutStream.write_directory]
      exact hdirectory

/-- A complete record is put into its place. -/
theorem Gathers.published (hgathers : status.Gathers source heard files)
    (hcomplete : status.Complete) :
    (∃ publication ∈ (published ⟨true, true⟩ ⟨status, files, []⟩).publications,
      publication.path = status.path ∧ publication.content = source) ∧
    (published ⟨true, true⟩ ⟨status, files, []⟩).files.file? (cstr status.path) =
      some source := by
  obtain ⟨file, _, hdirectory⟩ := hgathers.held
  have hcontent : files.file? status.temp = some source := by
    have hfound : files.file? status.temp = some (files.contents file) := by
      rw [FileStore.file?, hdirectory, Option.map_some]
    rw [hfound, hgathers.receiving.content_eq hcomplete.1 hfound]
  have hpath := hgathers.mirrors.cstr_path hcomplete
  have hfound : files.file? (cstr status.temp) = some source := by
    rw [hgathers.cstr_temp, hcontent]
  unfold SyncStatus.published renameTemp
  rw [if_pos ⟨rfl, hpath⟩]
  simp only [hfound]
  exact ⟨⟨_, List.mem_cons_self, rfl, rfl⟩, files.file?_rename_new _ hfound⟩

end SyncStatus

namespace BlockClient

/-- What the client has after what was heard of the file: nothing yet, a record, or the
file in its place. -/
inductive Gathered (info : FileInfo) (source : Bytes) (heard : List (FileMessage UInt8))
    (client : BlockClient) : Prop
  | waiting (hnone : client.syncSet.find? info = none) (hheard : heard = [])
  | gathering {status : SyncStatus} (hfind : client.syncSet.find? info = some status)
      (hgathers : status.Gathers source heard client.files)
      (hincomplete : ¬ Transfer.Complete (blockCount blockSize source) heard)
  | delivered (hcomplete : Transfer.Complete (blockCount blockSize source) heard)
      (hpublished : ∃ publication, .published info publication ∈ client.trace ∧
        publication.path = Transfer.path heard ∧ publication.content = source)
      (hfile : client.files.file? (cstr (Transfer.path heard)) = some source)

variable {order : ByteOrder} {env : Environment} {message : Message} {address : Address}
  {info : FileInfo} {source : Bytes} {heard : List (FileMessage UInt8)}
  {client : BlockClient} {status : SyncStatus}

theorem Gathered.of_sameRecords {client' : BlockClient}
    (hgathered : client.Gathered info source heard) (hsame : SameRecords client client') :
    client'.Gathered info source heard := by
  obtain ⟨socket, queue, rfl⟩ := hsame
  cases hgathered with
  | waiting hnone hheard => exact .waiting hnone hheard
  | gathering hfind hgathers hincomplete => exact .gathering hfind hgathers hincomplete
  | delivered hcomplete hpublished hfile => exact .delivered hcomplete hpublished hfile

/-- Before the last message there is a record, or one is made. -/
theorem Gathered.getSyncStatus (hgathered : client.Gathered info source heard)
    (hincomplete : ¬ Transfer.Complete (blockCount blockSize source) heard)
    (hcount : (info.getBlockCount order).toNat = blockCount blockSize source)
    (hnul : 0 ∈ info.digest) (hopened : env.opened = true)
    (hflag : env.goodbyeReceived = true) :
    ∃ mid status, BlockClient.getSyncStatus order env info address client = .ok () mid ∧
      mid.syncSet.find? info = some status ∧ status.Gathers source heard mid.files := by
  cases hgathered with
  | waiting hnone hheard =>
      obtain ⟨mid, hget⟩ := @getSyncStatus_returns order env address info client
        (Or.inr hnul)
      obtain ⟨status, hholding⟩ := Holding.of_getSyncStatus hget
      refine ⟨mid, status, hget, hholding.find?, ?_⟩
      cases hholding with
      | found hfind =>
          rw [hnone] at hfind
          contradiction
      | made _ hcreate =>
          rw [hheard]
          exact .of_create hcount hopened hflag hcreate
  | gathering hfind hgathers _ =>
      exact ⟨client, _, (Holding.found hfind).getSyncStatus, hfind, hgathers⟩
  | delivered hcomplete _ _ => exact absurd hcomplete hincomplete

/-- The last two lines of a handler put the file into its place if it is complete. -/
theorem finish_gathered (hfind : client.syncSet.find? info = some status)
    (hgathers : status.Gathers source heard client.files) :
    ∃ final, finish info ⟨true, true⟩ client = .ok () final ∧
      final.Gathered info source heard := by
  have hiff := hgathers.mirrors.complete_iff hgathers.intact
  by_cases hcomplete : status.Complete
  · obtain ⟨⟨publication, hmem, hpath, hcontent⟩, hfile⟩ := hgathers.published hcomplete
    have hrun : onStatus info (SyncStatus.syncComplete ⟨true, true⟩) client =
        .ok true (client.putStatus info
          (SyncStatus.published ⟨true, true⟩ ⟨status, client.files, []⟩)) := by
      apply onStatus_ok hfind
      rw [SyncStatus.syncComplete_apply]
      exact if_pos ⟨hgathers.mirrors.flag, hcomplete⟩
    refine ⟨_, by rw [finish, bind_of_ok hrun]; rfl, .delivered (hiff.mp hcomplete) ?_ ?_⟩
    · refine ⟨publication, ?_, hpath.trans hgathers.mirrors.path, hcontent⟩
      refine List.mem_append_left _ (List.mem_append_right _ ?_)
      exact List.mem_map_of_mem hmem
    · rw [← hgathers.mirrors.path]
      exact hfile
  · refine ⟨client, finish_of_not hfind fun hfinished => hcomplete hfinished.2, ?_⟩
    exact .gathering hfind hgathers fun h => hcomplete (hiff.mpr h)

/-- The next message about the file, with the bytes of its block if it is one. -/
structure Brings (order : ByteOrder) (info : FileInfo) (source : Bytes)
    (message : Message) (heardNow : FileMessage UInt8) : Prop where
  heard : ∀ id, message.fileMessage? order id = some heardNow
  info : message.fileInfo? order = some info
  announcement : ∀ path, heardNow = .info path → cstr path = [] → path = []
  block : ∀ number, heardNow = .block number → number < blockCount blockSize source ∧
    message.getText order = .ok (slice blockSize source number)
  goodbye : ∀ named, heardNow ≠ .goodbye named

/-- A call of the handlers gathers one message more. -/
theorem Gathered.handle {heardNow : FileMessage UInt8}
    (hgathered : client.Gathered info source heard)
    (hincomplete : ¬ Transfer.Complete (blockCount blockSize source) heard)
    (hcount : (info.getBlockCount order).toNat = blockCount blockSize source)
    (hnul : 0 ∈ info.digest) (hsucceeds : env.Succeeds) (hflag : env.goodbyeReceived = true)
    (hbrings : Brings order info source message heardNow) :
    ∃ final, BlockClient.handle order env message address client = .ok () final ∧
      final.Gathered info source (heard ++ [heardNow]) := by
  obtain ⟨mid, status, hget, hfind, hgathers⟩ := @Gathered.getSyncStatus order env address
    info source heard client hgathered hincomplete hcount hnul hsucceeds.opened hflag
  have hinfo := hbrings.info
  have hmessage := hbrings.heard 0
  have hlt : blockCount blockSize source < 2 ^ 32 := by
    rw [← hcount]
    exact (info.getBlockCount order).toNat_lt
  rcases Message.fileInfo?_cases hinfo with
    ⟨htype, hmetadata⟩ | ⟨htype, block, hmetadata, rfl⟩ | ⟨htype, hmetadata⟩
  · rw [Message.fileMessage?, if_pos htype] at hmessage
    obtain ⟨text, hsome, rfl⟩ := Option.map_eq_some_iff.mp hmessage
    have hset : SyncStatus.setPath text ⟨status, mid.files, []⟩ =
        .ok () ⟨{ status with path := text }, mid.files, []⟩ := rfl
    rw [handle_of_info htype hmetadata, bind_of_ok hget,
      ofResult_bind_of_ok (eq_ok_of_toOption hsome), bind_of_ok (onStatus_ok hfind hset),
      hsucceeds.first]
    exact finish_gathered (find?_putStatus_self hfind _)
      (hgathers.setPath (hbrings.announcement text rfl))
  · rw [Message.fileMessage?_of_block htype hmetadata] at hmessage
    cases hmessage
    obtain ⟨hnumber, htext⟩ := hbrings.block _ rfl
    obtain ⟨state, hwrite, _, hgathers'⟩ := hgathers.writeBlock hsucceeds.writes hlt hnumber
      htext
    rw [handle_of_block htype hmetadata, bind_of_ok hget,
      bind_of_ok (onStatus_ok hfind hwrite), hsucceeds.first]
    exact finish_gathered (find?_putStatus_self hfind _) hgathers'
  · rw [Message.fileMessage?_of_sgoodbye htype] at hmessage
    exact absurd (Option.some.inj hmessage).symm (hbrings.goodbye _)

/-- The message is one that a client sends. -/
def FromClient (order : ByteOrder) (message : Message) : Prop :=
  message.getType order = MessageType.chello.code ∨
    message.getType order = MessageType.cgoodbye.code

theorem FromClient.ne (hclient : FromClient order message) :
    message.getType order ≠ MessageType.info.code ∧
      message.getType order ≠ MessageType.block.code ∧
        message.getType order ≠ MessageType.sgoodbye.code := by
  rcases hclient with h | h
  · rw [h]
    decide
  · rw [h]
    decide

/-- A client has no handler for what a client sends. -/
theorem handle_fromClient (hclient : FromClient order message) :
    BlockClient.handle order env message address client = .ok () client := by
  obtain ⟨hinfo, hblock, hgoodbye⟩ := hclient.ne
  unfold BlockClient.handle
  rw [if_neg hinfo, if_neg hblock, if_neg hgoodbye]
  rfl

/-- The message can be taken; it comes from a client, or brings something of the file,
which was not complete. -/
structure Welcome (order : ByteOrder) (info : FileInfo) (source : Bytes)
    (heard : List (FileMessage UInt8)) (message : Message)
    (heardNow : Option (FileMessage UInt8)) : Prop where
  framed : message.Framed order
  nonempty : message.buffer ≠ []
  silent : heardNow = none → FromClient order message
  brings : ∀ new, heardNow = some new → Brings order info source message new ∧
    ¬ Transfer.Complete (blockCount blockSize source) heard

/-- What is assumed of a wait of the client: it ends well, and the operations on files
succeed. -/
structure Smooth (input : ClientInput) : Prop where
  succeeds : input.env.Succeeds
  send : input.sendError = none
  ready : ∃ ready, input.ready = .ok ready ∧
    (ready.readable = true → ∃ datagram, input.arrival = .ok datagram)

variable {initial : BlockClient} {hello : List Bytes} {input : ClientInput}

theorem sendFront_smooth (hsend : input.sendError = none) {P : BlockClient → Prop}
    (hsame : ∀ client socket queue, P client →
      P { client with socket := socket, messageQueue := queue }) :
    Triple (fun client => (Posted order initial hello client ∧ P client) ∧
        endpoint.messageQueue client ≠ [])
      (endpoint.sendFront order input.sendError)
      (fun _ client => Posted order initial hello client ∧ P client)
      (fun _ _ => False) := by
  rintro client ⟨⟨hposted, hclient⟩, hne⟩
  obtain ⟨socket, rest, hsent, hposted'⟩ := hposted.sendFront hne
  rw [hsend, hsent]
  exact ⟨hposted', hsame client socket rest hclient⟩

/-- A call of `select` that reads a welcome message, or none. -/
theorem select_gathered {heardNow : Option (FileMessage UInt8)}
    (hcount : (info.getBlockCount order).toNat = blockCount blockSize source)
    (hnul : 0 ∈ info.digest) (hsmooth : Smooth input)
    (hflag : input.env.goodbyeReceived = true)
    (hwelcome : ∀ message, input.message? = some message →
      Welcome order info source heard message heardNow)
    (hnothing : input.message? = none → heardNow = none) :
    Triple (fun client => Posted order initial hello client ∧
        client.Gathered info source heard)
      (select order input)
      (fun _ client => Posted order initial hello client ∧
        client.Gathered info source (heard ++ heardNow.toList))
      (fun _ _ => False) := by
  have hother : ∀ heard (client : BlockClient) socket queue,
      client.Gathered info source heard →
        ({ client with socket := socket, messageQueue := queue } :
          BlockClient).Gathered info source heard :=
    fun heard client socket queue hclient => hclient.of_sameRecords ⟨socket, queue, rfl⟩
  apply select_message
  · rintro client sender ⟨hposted, hclient⟩
    exact ⟨⟨hposted.id, hposted.info, hposted.destination, hposted.sent, hposted.posted,
      hposted.greeting⟩, hother heard client _ client.messageQueue hclient⟩
  · rintro message sender hmessage client ⟨hposted, hclient⟩
    have hkept := @handle_posted order initial hello input.env message sender client hposted
    have hwelcomed := hwelcome message hmessage
    cases heardNow with
    | none =>
        rw [handle_fromClient (hwelcomed.silent rfl)] at hkept ⊢
        simpa using And.intro hkept hclient
    | some new =>
        obtain ⟨hbrings, hincomplete⟩ := hwelcomed.brings new rfl
        obtain ⟨final, hok, hfinal⟩ := @Gathered.handle order input.env message sender info
          source heard client new hclient hincomplete hcount hnul hsmooth.succeeds hflag
          hbrings
        rw [hok] at hkept ⊢
        exact ⟨hkept, hfinal⟩
  · intro hreadable hreject fault client _
    obtain ⟨ready, hready, harrives⟩ := hsmooth.ready
    obtain ⟨datagram, harrival⟩ := harrives (hreadable ready hready)
    have hmessage : input.message? =
        some (Message.received receiveReserve datagram.2) := by
      rw [ClientInput.message?, hready, harrival]
      exact if_pos (hreadable ready hready)
    have hwelcomed := hwelcome _ hmessage
    exact hreject _ hmessage ⟨hwelcomed.nonempty, hwelcomed.framed⟩
  · rintro hnone client hclient
    rw [hnothing hnone]
    simpa using hclient
  · exact sendFront_smooth hsmooth.send (hother _)

end BlockClient

end Multisync
