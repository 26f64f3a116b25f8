import Multisync.Robustness
import Multisync.Transfer
import Mathlib.Tactic

/-!
# The handlers as the receiver of one file

A record of the client mirrors what was heard of its file since it was made.  A
handler that is given a sound message about the file returns, and does to the record
and to the number of answers what the receiver of the file does; it renames the
temporary file before it answers.
-/

namespace Multisync

open ByteLayout Effects

namespace Message

variable (order : ByteOrder)

/-- How often the list of the message names the client. -/
def named (id : UInt32) (message : Message) : ℕ :=
  (List.range ((message.getLength order).toNat / 4)).countP fun i =>
    (message.arrayElement order
      ⟨message.getOffset order, (message.getLength order).toNat / 4 * 4⟩ i).toOption =
        some id

/-- The message as the receiver of its file hears it. -/
def fileMessage? (id : UInt32) (message : Message) : Option (FileMessage UInt8) :=
  if message.getType order = MessageType.info.code then
    (message.getText order).toOption.map .info
  else if message.getType order = MessageType.block.code then
    (message.getMetadata order BlockInfo).toOption.map fun block =>
      .block (block.getBlock order).toNat
  else if message.getType order = MessageType.sgoodbye.code then
    some (.goodbye (message.named order id))
  else none

section Heard

variable {order : ByteOrder} {id : UInt32} {message : Message}

theorem fileMessage?_of_info {text : Bytes}
    (htype : message.getType order = MessageType.info.code)
    (htext : message.getText order = .ok text) :
    message.fileMessage? order id = some (.info text) := by
  simp [fileMessage?, htype, htext, Except.toOption]

theorem fileMessage?_of_block {block : BlockInfo}
    (htype : message.getType order = MessageType.block.code)
    (hmetadata : message.getMetadata order BlockInfo = .ok block) :
    message.fileMessage? order id = some (.block (block.getBlock order).toNat) := by
  simp [fileMessage?, htype, hmetadata, Except.toOption]

theorem fileMessage?_of_sgoodbye
    (htype : message.getType order = MessageType.sgoodbye.code) :
    message.fileMessage? order id = some (.goodbye (message.named order id)) := by
  simp [fileMessage?, htype]

end Heard

/-- A well-formed message whose path, if it has one, is one for the system too, whose
block number is below the number of blocks, and whose list is one of words. -/
structure Sound (message : Message) : Prop where
  wellFormed : message.WellFormed order BlockClient.needs
  path : message.getType order = MessageType.info.code → ∀ text,
    message.getText order = .ok text → cstr text = [] → text = []
  number : message.getType order = MessageType.block.code → ∀ block,
    message.getMetadata order BlockInfo = .ok block →
      block.getBlock order < block.fileInfo.getBlockCount order
  list : message.getType order = MessageType.sgoodbye.code →
    (message.getLength order).toNat % 4 = 0

end Message

/-- The record of a file with `count` blocks is that of the receiver. -/
structure SyncStatus.Mirrors (count : ℕ) (status : SyncStatus)
    (transfer : Transfer UInt8) : Prop where
  path : status.path = Transfer.path transfer.heard
  blocks : ∀ number < count, status.blockArray[number]? =
    some (decide (.block number ∈ transfer.heard))
  flag : status.goodbyeReceived = transfer.flag
  announced : ∀ path, .info path ∈ transfer.heard → cstr path = [] → path = []

namespace SyncStatus

variable {order : ByteOrder} {env : Environment} {count : ℕ} {status : SyncStatus}
  {transfer : Transfer UInt8}

theorem Mirrors.complete_iff (hmirrors : status.Mirrors count transfer)
    (hintact : status.Intact count) :
    status.Complete ↔ Transfer.Complete count transfer.heard := by
  have hmarks : status.remainingBlocks = 0 ↔
      ∀ number < count, .block number ∈ transfer.heard := by
    rw [hintact.remaining, List.count_eq_zero]
    constructor
    · intro hmarked number hlt
      by_contra hmissing
      apply hmarked
      rw [List.mem_iff_getElem?]
      exact ⟨number, by rw [hmirrors.blocks number hlt, decide_eq_false hmissing]⟩
    · intro hheard hmem
      obtain ⟨number, hnumber⟩ := List.mem_iff_getElem?.mp hmem
      have hlt : number < count := by
        rw [← hintact.length]
        exact (List.getElem?_eq_some_iff.mp hnumber).1
      rw [hmirrors.blocks number hlt, decide_eq_true (hheard number hlt)] at hnumber
      cases hnumber
  rw [Complete, hmarks, hmirrors.path]
  rfl

theorem Mirrors.cstr_path (hmirrors : status.Mirrors count transfer)
    (hcomplete : status.Complete) : cstr status.path ≠ [] := by
  intro hnil
  have hpath := hcomplete.2
  rw [hmirrors.path] at hnil hpath
  exact hpath (hmirrors.announced _ (Transfer.info_path_mem hpath) hnil)

theorem Mirrors.of_create {info : FileInfo} {address : Address}
    {files files' : FileStore Bytes}
    (hok : create order env info address files = .ok (status, files')) :
    status.Mirrors (info.getBlockCount order).toNat ⟨env.goodbyeReceived, []⟩ := by
  obtain ⟨_, rfl, _⟩ := create_eq_ok hok
  constructor
  · rfl
  · intro number hlt
    simp [hlt]
  · rfl
  · intro path hmem
    contradiction

theorem Mirrors.setPath (hmirrors : status.Mirrors count transfer) {path : Bytes}
    (hpath : cstr path = [] → path = []) :
    ({ status with path := path } : SyncStatus).Mirrors count
      ⟨transfer.flag, transfer.heard ++ [.info path]⟩ := by
  constructor
  · simp
  · intro number hlt
    simp [hmirrors.blocks number hlt]
  · exact hmirrors.flag
  · intro other hmem
    rcases List.mem_append.mp hmem with hold | hnew
    · exact hmirrors.announced other hold
    · cases List.mem_singleton.mp hnew
      exact hpath

theorem Mirrors.goodbye (hmirrors : status.Mirrors count transfer) (named : ℕ) :
    status.Mirrors count ⟨transfer.flag, transfer.heard ++ [.goodbye named]⟩ := by
  constructor
  · simpa using hmirrors.path
  · intro number hlt
    simp [hmirrors.blocks number hlt]
  · exact hmirrors.flag
  · intro path hmem
    exact hmirrors.announced path (by simpa using hmem)

/-- A block that is marked now, whether or not it was before. -/
theorem Mirrors.block (hmirrors : status.Mirrors count transfer) {number : ℕ}
    {marked : SyncStatus} (hpath : marked.path = status.path)
    (hblocks : marked.blockArray = status.blockArray.set number true)
    (hflag : marked.goodbyeReceived = status.goodbyeReceived) :
    marked.Mirrors count ⟨transfer.flag, transfer.heard ++ [.block number]⟩ := by
  constructor
  · rw [hpath, hmirrors.path, Transfer.path_concat_block]
  · intro other hlt
    rw [hblocks, List.getElem?_set]
    have hother := hmirrors.blocks other hlt
    by_cases heq : number = other
    · subst heq
      have hlength := (List.getElem?_eq_some_iff.mp hother).1
      simp [hlength]
    · have hne : other ≠ number := Ne.symm heq
      simp [heq, hne, hother]
  · rw [hflag, hmirrors.flag]
  · intro path hmem
    exact hmirrors.announced path (by simpa using hmem)

end SyncStatus

namespace BlockClient

/-- After the event `base` the temporary file was renamed to a path that was heard. -/
def Renamed (info : FileInfo) (base : ℕ) (heard : List (FileMessage UInt8))
    (client : BlockClient) : Prop :=
  ∃ publication, .published info publication ∈ client.trace.drop base ∧
    publication.path ≠ [] ∧ .info publication.path ∈ heard

/-- The number of answers for the file after the event `base`. -/
def answersSince (info : FileInfo) (base : ℕ) (client : BlockClient) : ℕ :=
  ((client.trace.drop base).filterMap ClientEvent.answer?).countP (·.1 = info)

/-- So many answers were given, none before the file was renamed, and until then the
record has its temporary file. -/
structure Reported (info : FileInfo) (base : ℕ) (heard : List (FileMessage UInt8))
    (answered : ℕ) (client : BlockClient) : Prop where
  base_le : base ≤ client.trace.length
  answers : client.answersSince info base = answered
  renamed : 0 < answered → client.Renamed info base heard
  temp : ∀ status, client.syncSet.find? info = some status →
    client.files.directory status.temp ≠ none ∨ client.Renamed info base heard

/-- The client has a record of the file that mirrors the receiver's. -/
structure Held (order : ByteOrder) (info : FileInfo) (base : ℕ)
    (heard : List (FileMessage UInt8)) (transfer : Transfer UInt8) (answered : ℕ)
    (status : SyncStatus) (client : BlockClient) : Prop where
  find : client.syncSet.find? info = some status
  intact : status.Intact (info.getBlockCount order).toNat
  mirrors : status.Mirrors (info.getBlockCount order).toNat transfer
  cstr_temp : cstr status.temp = status.temp
  among : ∀ message ∈ transfer.heard, message ∈ heard
  reported : client.Reported info base heard answered

/-- The client is where the receiver of the file is. -/
structure Tracks (order : ByteOrder) (info : FileInfo) (base : ℕ)
    (heard : List (FileMessage UInt8)) (progress : Transfer.Progress UInt8)
    (client : BlockClient) : Prop where
  record : Option.Rel (SyncStatus.Mirrors (info.getBlockCount order).toNat)
    (client.syncSet.find? info) progress.current
  among : ∀ transfer, progress.current = some transfer →
    ∀ message ∈ transfer.heard, message ∈ heard
  reported : client.Reported info base heard progress.answered

variable {order : ByteOrder} {env : Environment} {message : Message}
  {address : Address} {info : FileInfo} {base answered : ℕ}
  {heard : List (FileMessage UInt8)} {transfer : Transfer UInt8}
  {status : SyncStatus} {client : BlockClient}

theorem Renamed.extend (hrenamed : client.Renamed info base heard)
    {client' : BlockClient} {events : List ClientEvent}
    (htrace : client'.trace = client.trace ++ events) :
    client'.Renamed info base heard := by
  obtain ⟨publication, hmem, hpath⟩ := hrenamed
  refine ⟨publication, ?_, hpath⟩
  rw [htrace, List.drop_append]
  exact List.mem_append_left _ hmem

/-- Events that follow, with so many answers among them. -/
theorem Reported.extend (hreported : client.Reported info base heard answered)
    {client' : BlockClient} {events : List ClientEvent} {more : ℕ}
    (htrace : client'.trace = client.trace ++ events)
    (hmore : (events.filterMap ClientEvent.answer?).countP (·.1 = info) = more)
    (hrenamed : 0 < more → client'.Renamed info base heard)
    (htemp : ∀ status, client'.syncSet.find? info = some status →
      client'.files.directory status.temp ≠ none ∨ client'.Renamed info base heard) :
    client'.Reported info base heard (answered + more) := by
  constructor
  · rw [htrace, List.length_append]
    exact hreported.base_le.trans (Nat.le_add_right _ _)
  · rw [answersSince, htrace, List.drop_append_of_le_length hreported.base_le,
      List.filterMap_append, List.countP_append, hmore, ← hreported.answers]
    rfl
  · intro hpos
    rcases Nat.eq_zero_or_pos more with hzero | hmore
    · rw [hzero, Nat.add_zero] at hpos
      exact (hreported.renamed hpos).extend htrace
    · exact hrenamed hmore
  · exact htemp

/-- A client that looks the same to the file. -/
theorem Reported.of_same (hreported : client.Reported info base heard answered)
    {client' : BlockClient} (htrace : client'.trace = client.trace)
    (htemp : ∀ status, client'.syncSet.find? info = some status →
      client'.files.directory status.temp ≠ none ∨
        ∃ old, client.syncSet.find? info = some old ∧ old.temp = status.temp ∧
          client'.files.directory status.temp = client.files.directory status.temp) :
    client'.Reported info base heard answered := by
  have htrace' : client'.trace = client.trace ++ [] := by simp [htrace]
  refine @Reported.extend _ _ _ _ _ hreported client' [] 0 htrace' rfl
    (fun hpos => absurd hpos (lt_irrefl 0)) fun status hfind => ?_
  rcases htemp status hfind with hmade | ⟨old, hold, hsame, hdirectory⟩
  · exact Or.inl hmade
  · rcases hreported.temp old hold with hthere | hrenamed
    · rw [hdirectory, ← hsame]
      exact Or.inl hthere
    · exact Or.inr (hrenamed.extend htrace')

/-- A step on the record that publishes nothing. -/
theorem Held.putStatus
    (hheld : client.Held order info base heard transfer answered status)
    {transfer' : Transfer UInt8} {state : StatusState}
    (hintact : state.status.Intact (info.getBlockCount order).toNat)
    (hmirrors : state.status.Mirrors (info.getBlockCount order).toNat transfer')
    (hheard : ∀ message ∈ transfer'.heard, message ∈ heard)
    (htemp : state.status.temp = status.temp)
    (hdirectory : state.files.directory = client.files.directory)
    (hpublications : state.publications = []) :
    (client.putStatus info state).Held order info base heard transfer' answered
      state.status := by
  have hfind := find?_putStatus_self hheld.find state
  refine ⟨hfind, hintact, hmirrors, htemp ▸ hheld.cstr_temp, hheard, ?_⟩
  apply hheld.reported.of_same
  · simp [BlockClient.putStatus, hpublications]
  · intro found hfound
    rw [hfind] at hfound
    cases hfound
    refine Or.inr ⟨status, hheld.find, htemp.symm, ?_⟩
    rw [BlockClient.putStatus, hdirectory]

/-- Publishing a complete record renames its temporary file, unless that was done. -/
theorem Held.published
    (hheld : client.Held order info base heard transfer answered status)
    (hcomplete : status.Complete) {outcome : PublishOutcome}
    (houtcome : outcome = ⟨true, true⟩) {published : StatusState}
    (hpublished : published = SyncStatus.published outcome ⟨status, client.files, []⟩) :
    (client.putStatus info published).Held order info base heard transfer answered
        published.status ∧
      (client.putStatus info published).Renamed info base heard := by
  subst houtcome
  have hfind := find?_putStatus_self hheld.find published
  have hpublications := @SyncStatus.published_publications ⟨status, client.files, []⟩
    ⟨true, true⟩ hheld.cstr_temp
  rw [if_pos ⟨rfl, hheld.mirrors.cstr_path hcomplete⟩, ← hpublished] at hpublications
  have hpath : .info status.path ∈ heard := by
    apply hheld.among
    have hne := hcomplete.2
    rw [hheld.mirrors.path] at hne ⊢
    exact Transfer.info_path_mem hne
  have hrenamed : (client.putStatus info published).Renamed info base heard := by
    rcases hheld.reported.temp status hheld.find with hthere | hrenamed
    · obtain ⟨content, hcontent⟩ : ∃ content, client.files.file? status.temp =
          some content := by
        obtain ⟨file, hfile⟩ := Option.ne_none_iff_exists'.mp hthere
        exact ⟨_, by rw [FileStore.file?, hfile, Option.map_some]⟩
      refine ⟨⟨status.path, status.blockArray, content⟩, ?_, hcomplete.2, hpath⟩
      rw [BlockClient.putStatus, hpublications,
        List.drop_append_of_le_length hheld.reported.base_le, hcontent]
      simp
    · exact hrenamed.extend rfl
  have hintact := @SyncStatus.Intact.published _ ⟨status, client.files, []⟩ hheld.intact
    hcomplete ⟨true, true⟩
  rw [← hpublished] at hintact
  refine ⟨⟨hfind, hintact, ?_, ?_, hheld.among, ?_⟩, hrenamed⟩
  · rw [hpublished]
    constructor
    · simpa [SyncStatus.published] using hheld.mirrors.path
    · simpa [SyncStatus.published] using hheld.mirrors.blocks
    · simpa [SyncStatus.published] using hheld.mirrors.flag
    · exact hheld.mirrors.announced
  · rw [hpublished]
    simpa [SyncStatus.published] using hheld.cstr_temp
  · refine @Reported.extend _ _ _ _ _ hheld.reported _ _ 0 rfl ?_
      (fun hpos => absurd hpos (lt_irrefl 0)) fun _ _ => Or.inr hrenamed
    rw [List.countP_eq_zero]
    intro answer hanswer
    obtain ⟨event, hevent, hsome⟩ := List.mem_filterMap.mp hanswer
    obtain ⟨publication, _, rfl⟩ := List.mem_map.mp hevent
    contradiction

theorem Held.answer
    (hheld : client.Held order info base heard transfer answered status)
    (hrenamed : client.Renamed info base heard) :
    (client.answered order info).Held order info base heard transfer (answered + 1)
        status ∧
      (client.answered order info).Renamed info base heard := by
  have hrenamed' : (client.answered order info).Renamed info base heard :=
    hrenamed.extend rfl
  refine ⟨⟨hheld.find, hheld.intact, hheld.mirrors, hheld.cstr_temp, hheld.among, ?_⟩,
    hrenamed'⟩
  refine hheld.reported.extend rfl ?_ (fun _ => hrenamed') fun _ _ => Or.inr hrenamed'
  simp [hheld.find, ClientEvent.answer?]

theorem Held.setGoodbyeReceived
    (hheld : client.Held order info base heard transfer answered status) :
    ∃ final, onStatus info SyncStatus.setGoodbyeReceived client = .ok () final ∧
      final.Held order info base heard ⟨true, transfer.heard⟩ answered
        { status with goodbyeReceived := true } ∧
      final.trace = client.trace ∧ final.id = client.id := by
  have hok : SyncStatus.setGoodbyeReceived ⟨status, client.files, []⟩ = .ok ()
    ⟨{ status with goodbyeReceived := true }, client.files, []⟩ := rfl
  refine ⟨_, onStatus_ok hheld.find hok, ?_, by simp [BlockClient.putStatus], rfl⟩
  refine @Held.putStatus _ _ _ _ _ _ _ _ hheld ⟨true, transfer.heard⟩
    ⟨{ status with goodbyeReceived := true }, client.files, []⟩ ?_ ?_ hheld.among
    rfl rfl rfl
  · exact ⟨hheld.intact.length, hheld.intact.remaining, hheld.intact.writable⟩
  · exact ⟨hheld.mirrors.path, hheld.mirrors.blocks, rfl, hheld.mirrors.announced⟩

/-- The loop over the list of a goodbye answers as often as the list names the
client. -/
theorem Held.answerClients
    (hheld : client.Held order info base heard transfer answered status)
    (hrenamed : client.Renamed info base heard)
    (hinside : message.getOffset order + (message.getLength order).toNat / 4 * 4 ≤
      message.capacity) :
    ∃ final status', (List.range ((message.getLength order).toNat / 4)).forM
        (answerClient order info message
          ⟨message.getOffset order, (message.getLength order).toNat / 4 * 4⟩) client =
            .ok () final ∧
      final.Held order info base heard
        ⟨transfer.flag || decide (0 < message.named order client.id), transfer.heard⟩
        (answered + message.named order client.id) status' := by
  let clients : Extent :=
    ⟨message.getOffset order, (message.getLength order).toNat / 4 * 4⟩
  let names : ℕ → Bool := fun i =>
    (message.arrayElement order clients i).toOption = some client.id
  let I : List ℕ → BlockClient → Prop := fun done current =>
    current.id = client.id ∧ current.Renamed info base heard ∧ ∃ status',
      current.Held order info base heard
        ⟨transfer.flag || decide (0 < done.countP names), transfer.heard⟩
        (answered + done.countP names) status'
  have hloop : Triple (I []) ((List.range ((message.getLength order).toNat / 4)).forM
      (answerClient order info message clients))
      (fun _ => I (List.range ((message.getLength order).toNat / 4)))
      fun _ _ => False := by
    apply Triple.forM
    intro done i rest hsplit
    have hlt : i < (message.getLength order).toNat / 4 := by
      rw [← List.mem_range, hsplit]
      simp
    refine Triple.ofResult_bind (fun word hword => ?_) fun fault herror => ?_
    · rintro current ⟨hid, hcurrent, status', hheld'⟩
      simp only [bind_apply, get_apply]
      have hnames : names i = decide (word = client.id) := by
        simp only [names, hword]
        simp [Except.toOption]
      by_cases heq : word = current.id
      · obtain ⟨mid, hset, hmid, htrace, hmidId⟩ := hheld'.setGoodbyeReceived
        have hcount : (done ++ [i]).countP names = done.countP names + 1 := by
          rw [List.countP_append, List.countP_singleton, hnames, heq, hid]
          simp
        have hmidRenamed : mid.Renamed info base heard :=
          hcurrent.extend (by rw [htrace, List.append_nil])
        obtain ⟨hanswered, hrenamed'⟩ := hmid.answer hmidRenamed
        rw [if_pos heq, bind_of_ok hset]
        refine ⟨hmidId.trans hid, hrenamed', { status' with goodbyeReceived := true }, ?_⟩
        rw [hcount, decide_eq_true (Nat.succ_pos _), Bool.or_true]
        exact hanswered
      · rw [if_neg heq]
        have hcount : (done ++ [i]).countP names = done.countP names := by
          rw [List.countP_append, List.countP_singleton, hnames,
            decide_eq_false (fun h => heq (h.trans hid.symm))]
          simp
        refine ⟨hid, hcurrent, status', ?_⟩
        rw [hcount]
        exact hheld'
    · rw [Message.arrayElement, Message.fetch, if_pos (by simp only [clients]; omega)]
        at herror
      contradiction
  obtain ⟨_, final, hok, _, _, status', hfinal⟩ :=
    hloop.returns ⟨rfl, hrenamed, status, by simpa using hheld⟩
  exact ⟨final, status', hok, hfinal⟩

/-- At the end of a handler the record is given up if it is complete and its flag is
set, and its file has been renamed then. -/
theorem Held.finish
    (hheld : client.Held order info base heard transfer answered status)
    {outcome : PublishOutcome} (houtcome : outcome = ⟨true, true⟩) :
    ∃ final, finish info outcome client = .ok () final ∧
      final.Tracks order info base heard
        ⟨if Transfer.Complete (info.getBlockCount order).toNat transfer.heard ∧
            transfer.flag = true then none else some transfer, answered⟩ := by
  have hiff := hheld.mirrors.complete_iff hheld.intact
  have hflag := hheld.mirrors.flag
  by_cases hfinished : status.Finished
  · have hcomplete := hfinished.2
    obtain ⟨hpublished, hrenamed⟩ := hheld.published hcomplete houtcome rfl
    have hrun : onStatus info (SyncStatus.syncComplete outcome) client =
        .ok true (client.putStatus info
          (SyncStatus.published outcome ⟨status, client.files, []⟩)) := by
      apply onStatus_ok hheld.find
      rw [SyncStatus.syncComplete_apply]
      exact if_pos hfinished
    refine ⟨_, by rw [BlockClient.finish, bind_of_ok hrun]; rfl, ?_⟩
    rw [if_pos ⟨hiff.mp hcomplete, hflag ▸ hfinished.1⟩]
    constructor
    · simp only
      rw [OrderedMap.find?_erase_self]
      exact .none
    · intro transfer' hnone
      contradiction
    · refine @Reported.extend _ _ _ _ _ hpublished.reported _ [.erased info] 0 rfl rfl
        (fun hpos => absurd hpos (lt_irrefl 0)) fun status' hstatus' => ?_
      rw [OrderedMap.find?_erase_self] at hstatus'
      contradiction
  · refine ⟨client, finish_of_not hheld.find hfinished, ?_⟩
    rw [if_neg fun h => hfinished ⟨hflag.trans h.2, hiff.mpr h.1⟩]
    constructor
    · rw [hheld.find]
      exact .some hheld.mirrors
    · rintro _ ⟨⟩
      exact hheld.among
    · exact hheld.reported

/-- The record of the file, made if there is none. -/
theorem Tracks.getSyncStatus {progress : Transfer.Progress UInt8}
    (htracks : client.Tracks order info base heard progress)
    (hsettled : client.Settled order) (hopened : env.opened = true)
    (hnul : 0 ∈ info.digest)
    (hcstr : ∀ status, client.syncSet.find? info = some status →
      cstr status.temp = status.temp) :
    ∃ mid status, getSyncStatus order env info address client = .ok () mid ∧
      mid.id = client.id ∧
      mid.Held order info base heard
        (progress.current.getD ⟨env.goodbyeReceived, []⟩) progress.answered status := by
  rw [getSyncStatus_apply]
  rcases rel_cases htracks.record with
    ⟨hfind, hcurrent⟩ | ⟨status, transfer, hfind, hcurrent, hmirrors⟩
  · obtain ⟨⟨status, files⟩, hcreate⟩ :=
      SyncStatus.create_of_nul order env address hnul client.files
    have hself : (client.created info status files).syncSet.find? info =
        some status := OrderedMap.find?_insert_self status hfind
    obtain ⟨_, hstatus, hfiles⟩ := SyncStatus.create_eq_ok hcreate
    rw [hfind, hcurrent]
    refine ⟨client.created info status files, status, ?_, rfl, hself,
      .of_create hopened hcreate, .of_create hcreate, ?_, ?_, ?_⟩
    · simp only [hcreate]
    · rw [hstatus]
      exact cstr_tempName _ _
    · intro message hmem
      contradiction
    · refine @Reported.extend _ _ _ _ _ htracks.reported _ [.created info status.temp]
        0 rfl rfl (fun hpos => absurd hpos (lt_irrefl 0)) fun found hfound => ?_
      rw [hself] at hfound
      cases hfound
      left
      have hheld := OutStream.openFile_held (tempName env.tmpnam info) env.opened
        client.files
      rw [BlockClient.created, hfiles, hstatus]
      rw [hopened] at hheld ⊢
      rw [hheld _ rfl]
      exact Option.some_ne_none _
  · rw [hfind, hcurrent]
    exact ⟨client, status, rfl, rfl, hfind, hsettled.intact info status hfind, hmirrors,
      hcstr status hfind, htracks.among transfer hcurrent, htracks.reported⟩

theorem Held.hear_info
    (hheld : client.Held order info base heard transfer answered status)
    (hfirst : env.first = ⟨true, true⟩) {text : Bytes}
    (hpath : cstr text = [] → text = []) (hmem : .info text ∈ heard) :
    ∃ final, (onStatus info (SyncStatus.setPath text) >>= fun _ =>
        BlockClient.finish info env.first) client = .ok () final ∧
      final.Tracks order info base heard
        ⟨transfer.hear (info.getBlockCount order).toNat (.info text), answered⟩ := by
  have hset : SyncStatus.setPath text ⟨status, client.files, []⟩ =
      .ok () ⟨{ status with path := text }, client.files, []⟩ := rfl
  have hmid := @Held.putStatus _ _ _ _ _ _ _ _ hheld
    ⟨transfer.flag, transfer.heard ++ [.info text]⟩
    ⟨{ status with path := text }, client.files, []⟩
    ⟨hheld.intact.length, hheld.intact.remaining, hheld.intact.writable⟩
    (hheld.mirrors.setPath hpath) ?_ rfl rfl rfl
  · rw [bind_of_ok (onStatus_ok hheld.find hset)]
    have hfinal := hmid.finish hfirst
    simpa [Transfer.hear, Transfer.answers] using hfinal
  · intro message hmessage
    rcases List.mem_append.mp hmessage with hold | hnew
    · exact hheld.among message hold
    · rw [List.mem_singleton.mp hnew]
      exact hmem

theorem Held.hear_block
    (hheld : client.Held order info base heard transfer answered status)
    (hsucceeds : env.Succeeds) {number : ℕ}
    (hlt : number < (info.getBlockCount order).toNat)
    (hle : message.getOffset order ≤ message.buffer.length)
    (hmem : .block number ∈ heard) :
    ∃ final, (onStatus info (SyncStatus.writeBlock order env number message) >>= fun _ =>
        BlockClient.finish info env.first) client = .ok () final ∧
      final.Tracks order info base heard
        ⟨transfer.hear (info.getBlockCount order).toNat (.block number), answered⟩ := by
  have hcount := (info.getBlockCount order).toNat_lt
  have hamong : ∀ message ∈ transfer.heard ++ [FileMessage.block number],
      message ∈ heard := by
    intro message hmessage
    rcases List.mem_append.mp hmessage with hold | hnew
    · exact hheld.among message hold
    · rw [List.mem_singleton.mp hnew]
      exact hmem
  obtain ⟨mid, hwrite, status', hmid⟩ : ∃ mid,
      onStatus info (SyncStatus.writeBlock order env number message) client =
        .ok () mid ∧ ∃ status', mid.Held order info base heard
          ⟨transfer.flag, transfer.heard ++ [.block number]⟩ answered status' := by
    have hmark := hheld.mirrors.blocks number hlt
    by_cases hold : FileMessage.block number ∈ transfer.heard
    · rw [decide_eq_true hold] at hmark
      have hset : status.blockArray = status.blockArray.set number true := by
        obtain ⟨hlength, hget⟩ := List.getElem?_eq_some_iff.mp hmark
        conv_rhs => rw [← hget]
        exact (List.set_getElem_self hlength).symm
      exact ⟨client, writeBlock_of_marked hheld.find hmark, status, hheld.find,
        hheld.intact, hheld.mirrors.block rfl hset rfl, hheld.cstr_temp, hamong,
        hheld.reported⟩
    · rw [decide_eq_false hold] at hmark
      obtain ⟨hwritten, hintact⟩ := @SyncStatus.Intact.writeBlock order env message _
        ⟨status, client.files, []⟩ _ _ hheld.intact (by omega) hsucceeds.writes hmark
        (Message.getText_eq order hle)
      let written := SyncStatus.marked number (SyncStatus.wrote env number
        (message.buffer.drop (message.getOffset order)) ⟨status, client.files, []⟩)
      refine ⟨client.putStatus info written, onStatus_ok hheld.find hwritten,
        written.status, ?_⟩
      apply hheld.putStatus hintact (hheld.mirrors.block rfl rfl rfl) hamong rfl _ rfl
      exact OutStream.write_directory _ _ _ _
  rw [bind_of_ok hwrite]
  have hfinal := hmid.finish hsucceeds.first
  simpa [Transfer.hear, Transfer.answers] using hfinal

theorem Held.goodbye
    (hheld : client.Held order info base heard transfer answered status) {named : ℕ}
    (hmem : .goodbye named ∈ heard) :
    client.Held order info base heard
      ⟨transfer.flag, transfer.heard ++ [.goodbye named]⟩ answered status := by
  refine ⟨hheld.find, hheld.intact, hheld.mirrors.goodbye named, hheld.cstr_temp, ?_,
    hheld.reported⟩
  intro message hmessage
  rcases List.mem_append.mp hmessage with hold | hnew
  · exact hheld.among message hold
  · rw [List.mem_singleton.mp hnew]
    exact hmem

theorem Held.hear_goodbye
    (hheld : client.Held order info base heard transfer answered status)
    (hsucceeds : env.Succeeds)
    (hmod : (message.getLength order).toNat % 4 = 0)
    (hinside : message.getOffset order + (message.getLength order).toNat ≤
      message.capacity)
    (hmem : .goodbye (message.named order client.id) ∈ heard) :
    ∃ final, (onStatus info (SyncStatus.transferComplete env.first) >>= fun complete =>
        if complete then
          ofResult (message.arrayExtent order 4) >>= fun clients =>
            (List.range (clients.length / 4)).forM
              (answerClient order info message clients) >>= fun _ =>
                BlockClient.finish info env.second
        else BlockClient.finish info env.second) client = .ok () final ∧
      final.Tracks order info base heard
        ⟨transfer.hear (info.getBlockCount order).toNat
            (.goodbye (message.named order client.id)),
          answered + Transfer.answers (info.getBlockCount order).toNat transfer.heard
            (.goodbye (message.named order client.id))⟩ := by
  have hiff := hheld.mirrors.complete_iff hheld.intact
  have hconcat := @Transfer.complete_concat_goodbye _ (info.getBlockCount order).toNat
    transfer.heard (message.named order client.id)
  unfold Transfer.hear Transfer.answers
  by_cases hcomplete : status.Complete
  · obtain ⟨hpublished, hrenamed⟩ := hheld.published hcomplete hsucceeds.first rfl
    have hclients : message.arrayExtent order 4 = .ok ⟨message.getOffset order,
        (message.getLength order).toNat / 4 * 4⟩ := by
      rw [Message.arrayExtent, if_neg (not_not.mpr hmod)]
    have hwords := Nat.div_mul_le_self (message.getLength order).toNat 4
    obtain ⟨mid, status', hloop, hmid⟩ := @Held.answerClients order message info base
      answered heard transfer _ _ hpublished hrenamed (by omega)
    obtain ⟨final, hfinish, htracks⟩ := (hmid.goodbye hmem).finish hsucceeds.second
    refine ⟨final, ?_, ?_⟩
    · rw [bind_of_ok (transferComplete_of_complete hheld.find hcomplete), if_pos rfl,
        ofResult_bind_of_ok hclients]
      simp only [Nat.mul_div_cancel _ (Nat.succ_pos 3)]
      rw [bind_of_ok hloop]
      exact hfinish
    · have hheard := hiff.mp hcomplete
      have hafter := hconcat.mpr hheard
      have hnamed : (client.putStatus info (SyncStatus.published env.first
          ⟨status, client.files, []⟩)).id = client.id := rfl
      simp only [hnamed] at htracks
      simp only [hafter, hheard, true_and, if_true] at htracks ⊢
      by_cases hpos : 0 < message.named order client.id
      · simpa [hpos] using htracks
      · simpa [hpos] using htracks
  · have hnot : ¬ Transfer.Complete (info.getBlockCount order).toNat transfer.heard :=
      fun h => hcomplete (hiff.mpr h)
    rw [bind_of_ok (transferComplete_of_not hheld.find hcomplete),
      if_neg Bool.false_ne_true]
    have hfinal := (hheld.goodbye hmem).finish hsucceeds.second
    simp only [hconcat, hnot, false_and, if_false, Nat.add_zero] at hfinal ⊢
    exact hfinal

/-- A handler does to the record what the receiver of the file does. -/
theorem Tracks.handle {progress : Transfer.Progress UInt8} {heardNow : FileMessage UInt8}
    (htracks : client.Tracks order info base heard progress)
    (hsettled : client.Settled order) (hsucceeds : env.Succeeds) (hnul : 0 ∈ info.digest)
    (hcstr : ∀ status, client.syncSet.find? info = some status →
      cstr status.temp = status.temp)
    (hsound : message.Sound order) (hinfo : message.fileInfo? order = some info)
    (hmessage : message.fileMessage? order client.id = some heardNow)
    (hmem : heardNow ∈ heard) :
    ∃ final, BlockClient.handle order env message address client = .ok () final ∧
      final.Tracks order info base heard
        (Transfer.receive (info.getBlockCount order).toNat progress
          (env.goodbyeReceived, heardNow)) := by
  obtain ⟨mid, status, hget, hid, hheld⟩ :=
    @Tracks.getSyncStatus order env address info base heard client progress htracks
      hsettled hsucceeds.opened hnul hcstr
  have hconsistent := hsound.wellFormed.consistent
  have hoffset := hconsistent.offset_le
  rcases Message.fileInfo?_cases hinfo with
    ⟨htype, hmetadata⟩ | ⟨htype, block, hmetadata, rfl⟩ | ⟨htype, hmetadata⟩
  · have htext := Message.getText_eq order hoffset
    rw [Message.fileMessage?_of_info htype htext] at hmessage
    cases hmessage
    rw [handle_of_info htype hmetadata, bind_of_ok hget, ofResult_bind_of_ok htext]
    exact hheld.hear_info hsucceeds.first (hsound.path htype _ htext) hmem
  · rw [Message.fileMessage?_of_block htype hmetadata] at hmessage
    cases hmessage
    rw [handle_of_block htype hmetadata, bind_of_ok hget]
    exact hheld.hear_block hsucceeds
      (UInt32.lt_iff_toNat_lt.mp (hsound.number htype block hmetadata)) hoffset hmem
  · rw [Message.fileMessage?_of_sgoodbye htype] at hmessage
    cases hmessage
    have hinside := hconsistent.length
    have hsize := message.length_le
    rw [handle_of_sgoodbye htype hmetadata, bind_of_ok hget]
    rw [← hid] at hmem ⊢
    exact hheld.hear_goodbye hsucceeds (hsound.list htype) (by omega) hmem

end BlockClient

end Multisync
