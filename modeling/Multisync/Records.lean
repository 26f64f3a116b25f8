import Multisync.ClientRuns
import Mathlib.Tactic

/-!
# Records of different files

A program on the record of one file writes to no file but its temporary file,
and renames no other.  When the names of the temporary files are distinct, and
none of them is announced as a path, a message leaves the records of all other
files and the bytes they have written as they were.
-/

namespace Multisync

open ByteLayout Effects

/-- What may become of the files, with the file the output holds afterwards. -/
inductive FilesStep (status : SyncStatus) (files : FileStore Bytes) :
    Option ℕ → FileStore Bytes → Prop
  | kept : FilesStep status files status.output.file files
  | wrote {file : ℕ} (hfile : status.output.file = some file) (position : ℕ)
      (bytes : Bytes) :
      FilesStep status files (some file) (files.write file position bytes)
  | closed : FilesStep status files none files
  | renamed : FilesStep status files none
      (files.rename (cstr status.temp) (cstr status.path))

/-- What a program may do to a record and to the files. -/
structure RecordStep (state state' : StatusState) : Prop where
  temp : state'.status.temp = state.status.temp
  files : FilesStep state.status state.files state'.status.output.file state'.files

namespace SyncStatus

variable {order : ByteOrder} {env : Environment} {state : StatusState}

theorem wrote_recordStep (block : ℕ) (payload : Bytes) :
    RecordStep state (wrote env block payload state) := by
  refine ⟨rfl, ?_⟩
  have hfile := wrote_file env block payload state
  rcases (state.status.output.seekp (blockSize * block % 2 ^ 64)).write_store
    payload env.writeLimit state.files with hsame | ⟨file, position, bytes, hopen, hwrite⟩
  · rw [hfile]
    unfold wrote
    rw [hsame]
    exact .kept
  · rw [OutStream.seekp_file] at hopen
    rw [hfile, hopen]
    unfold wrote
    rw [hwrite]
    exact .wrote hopen position bytes

theorem published_recordStep (outcome : PublishOutcome) :
    RecordStep state (published outcome state) := by
  refine ⟨by simp [published], ?_⟩
  have hfile : (published outcome state).status.output.file = none := by
    simp [published]
  rw [hfile]
  rcases renameTemp_files outcome.renamed { state with status := { state.status with
      output := state.status.output.close outcome.closed } } with hsame | hrenamed
  · unfold published
    rw [hsame]
    exact .closed
  · unfold published
    rw [hrenamed]
    exact .renamed

end SyncStatus

/-- Every program the handlers run on a record makes such a step, and leaves the
path or sets it to the announced one. -/
theorem RecordProgram.recordStep {order : ByteOrder} {env : Environment}
    {message : Message} {α : Type} {program : EStateM Fault StatusState α}
    (hprogram : RecordProgram order env message program) (state : StatusState) :
    RecordStep state (endState (program state)) ∧
      ((endState (program state)).status.path = state.status.path ∨
        message.getType order = MessageType.info.code ∧
          message.getText order =
            .ok (endState (program state)).status.path) := by
  cases hprogram with
  | setPath htype htext => exact ⟨⟨rfl, .kept⟩, Or.inr ⟨htype, htext⟩⟩
  | @writeBlock block htype hblock =>
      rw [SyncStatus.writeBlock_apply]
      split
      · exact ⟨⟨rfl, .kept⟩, Or.inl rfl⟩
      · exact ⟨⟨rfl, .kept⟩, Or.inl rfl⟩
      · split
        · refine ⟨⟨rfl, ?_⟩, Or.inl rfl⟩
          simp only [endState_error, OutStream.seekp_file]
          exact .kept
        · next payload _ =>
            have hwrote := @SyncStatus.wrote_recordStep env state
              (block.getBlock order).toNat payload
            split
            · exact ⟨hwrote, Or.inl rfl⟩
            · exact ⟨⟨hwrote.temp, hwrote.files⟩, Or.inl rfl⟩
  | setGoodbyeReceived => exact ⟨⟨rfl, .kept⟩, Or.inl rfl⟩
  | transferComplete =>
      rw [SyncStatus.transferComplete_apply]
      split_ifs
      · exact ⟨SyncStatus.published_recordStep _, Or.inl (by simp [SyncStatus.published])⟩
      · exact ⟨⟨rfl, .kept⟩, Or.inl rfl⟩
  | syncComplete houtcome =>
      rw [SyncStatus.syncComplete_apply]
      split_ifs
      · exact ⟨SyncStatus.published_recordStep _, Or.inl (by simp [SyncStatus.published])⟩
      · exact ⟨⟨rfl, .kept⟩, Or.inl rfl⟩

/-- The temporary file of a record is one of `names` that is no longer pending,
its path is none of them, and the file it holds open has its temporary name. -/
structure Apart (names pending : List Bytes) (files : FileStore Bytes)
    (status : SyncStatus) : Prop where
  cstr_temp : cstr status.temp = status.temp
  temp_mem : status.temp ∈ names
  temp_used : status.temp ∉ pending
  path_notMem : cstr status.path ∉ names
  held : ∀ file, status.output.file = some file →
    files.directory status.temp = some file

/-- The records are apart: `names` are the temporary files of the whole run,
`pending` those that no record has used yet. -/
structure Separate (names pending : List Bytes) (client : BlockClient) : Prop where
  apart : ∀ info status, client.syncSet.find? info = some status →
    Apart names pending client.files status
  temp_injective : ∀ info status other status',
    client.syncSet.find? info = some status →
    client.syncSet.find? other = some status' →
      status.temp = status'.temp → info = other
  pending_mem : ∀ name ∈ pending, name ∈ names
  unmade : ∀ name ∈ pending, client.files.directory name = none

/-- Nothing has happened to the record of the file. -/
structure Untouched (info : FileInfo) (before after : BlockClient) : Prop where
  record : after.syncSet.find? info = before.syncSet.find? info
  directory : ∀ status, before.syncSet.find? info = some status →
    after.files.directory status.temp = before.files.directory status.temp
  file : ∀ status, before.syncSet.find? info = some status →
    after.files.file? status.temp = before.files.file? status.temp
  trace : ∃ events, after.trace = before.trace ++ events ∧
    ∀ event ∈ events, event.info ≠ info

theorem Untouched.refl (info : FileInfo) (client : BlockClient) :
    Untouched info client client :=
  ⟨rfl, fun _ _ => rfl, fun _ _ => rfl, [], by simp, by simp⟩

theorem Untouched.trans {info : FileInfo} {first second third : BlockClient}
    (h₁ : Untouched info first second) (h₂ : Untouched info second third) :
    Untouched info first third := by
  obtain ⟨events₁, htrace₁, hevents₁⟩ := h₁.trace
  obtain ⟨events₂, htrace₂, hevents₂⟩ := h₂.trace
  refine ⟨h₂.record.trans h₁.record, ?_, ?_, events₁ ++ events₂, ?_, ?_⟩
  · intro status hstatus
    rw [h₂.directory status (h₁.record.trans hstatus), h₁.directory status hstatus]
  · intro status hstatus
    rw [h₂.file status (h₁.record.trans hstatus), h₁.file status hstatus]
  · rw [htrace₂, htrace₁, List.append_assoc]
  · intro event hevent
    rcases List.mem_append.mp hevent with h | h
    · exact hevents₁ event h
    · exact hevents₂ event h

section Steps

variable {names pending : List Bytes} {client : BlockClient} {info : FileInfo}
  {status : SyncStatus} {state : StatusState}

/-- The files of a client after a step on one record, as another record's
temporary file sees them. -/
theorem FilesStep.other {files files' : FileStore Bytes} {open' : Option ℕ}
    (hstep : FilesStep status files open' files')
    (hheld : ∀ file, status.output.file = some file →
      files.directory (cstr status.temp) = some file)
    {name : Bytes} (htemp : name ≠ cstr status.temp)
    (hpath : name ≠ cstr status.path) :
    files'.directory name = files.directory name ∧
      files'.file? name = files.file? name := by
  cases hstep with
  | kept => exact ⟨rfl, rfl⟩
  | wrote hfile position bytes =>
      refine ⟨rfl, files.file?_write_ne ?_ position bytes⟩
      intro hname
      exact htemp (files.unique _ _ _ hname (hheld _ hfile))
  | closed => exact ⟨rfl, rfl⟩
  | renamed =>
      exact ⟨files.rename_directory_ne htemp hpath,
        files.file?_rename_ne htemp hpath⟩

/-- A step keeps the file that is still held open under its name. -/
theorem FilesStep.held {files files' : FileStore Bytes} {open' : Option ℕ}
    (hstep : FilesStep status files open' files')
    (hheld : ∀ file, status.output.file = some file →
      files.directory status.temp = some file) :
    ∀ file, open' = some file → files'.directory status.temp = some file := by
  intro file hopen
  cases hstep with
  | kept => exact hheld file hopen
  | wrote hfile position bytes =>
      cases hopen
      exact hheld _ hfile
  | closed => contradiction
  | renamed => contradiction

theorem Separate.other {other : FileInfo} {status' : SyncStatus}
    (hseparate : Separate names pending client)
    (hfind : client.syncSet.find? info = some status)
    (hother : client.syncSet.find? other = some status') (hne : other ≠ info)
    (hstep : FilesStep status client.files state.status.output.file state.files) :
    state.files.directory status'.temp = client.files.directory status'.temp ∧
      state.files.file? status'.temp = client.files.file? status'.temp := by
  have hapart := hseparate.apart info status hfind
  apply hstep.other
  · rw [hapart.cstr_temp]
    exact hapart.held
  · rw [hapart.cstr_temp]
    intro heq
    exact hne (hseparate.temp_injective _ _ _ _ hother hfind heq)
  · intro heq
    apply hapart.path_notMem
    rw [← heq]
    exact (hseparate.apart other status' hother).temp_mem

theorem Separate.of_empty (hempty : ∀ info, client.syncSet.find? info = none)
    (hmem : ∀ name ∈ pending, name ∈ names)
    (hunmade : ∀ name ∈ pending, client.files.directory name = none) :
    Separate names pending client := by
  refine ⟨fun info status hfind => ?_, fun info status other status' hfind => ?_, hmem, hunmade⟩
  · rw [hempty info] at hfind
    contradiction
  · rw [hempty info] at hfind
    contradiction

/-- A step on one record keeps the records apart. -/
theorem Separate.putStatus (hseparate : Separate names pending client)
    (hfind : client.syncSet.find? info = some status)
    (hstep : RecordStep ⟨status, client.files, []⟩ state)
    (hpath : cstr state.status.path ∉ names) :
    Separate names pending (client.putStatus info state) := by
  have hapart := hseparate.apart info status hfind
  have htemp : state.status.temp = status.temp := hstep.temp
  -- Every record keeps the name of its temporary file.
  have htemps : ∀ other status',
      (client.putStatus info state).syncSet.find? other = some status' →
      ∃ old, client.syncSet.find? other = some old ∧ old.temp = status'.temp := by
    refine OrderedMap.forall_replace hfind ?_ ?_
    · exact fun other found _ hother => ⟨found, hother, rfl⟩
    · exact ⟨status, hfind, htemp.symm⟩
  constructor
  · refine OrderedMap.forall_replace hfind ?_ ?_
    · intro other found hne hother
      have hold := hseparate.apart other found hother
      refine ⟨hold.cstr_temp, hold.temp_mem, hold.temp_used, hold.path_notMem, ?_⟩
      intro file hopen
      rw [← hold.held file hopen]
      exact (hseparate.other hfind hother hne hstep.files).1
    · constructor
      · rw [htemp]
        exact hapart.cstr_temp
      · rw [htemp]
        exact hapart.temp_mem
      · rw [htemp]
        exact hapart.temp_used
      · exact hpath
      · rw [htemp]
        exact hstep.files.held hapart.held
  · intro first status₁ second status₂ hfirst hsecond heq
    obtain ⟨old₁, hold₁, htemp₁⟩ := htemps first status₁ hfirst
    obtain ⟨old₂, hold₂, htemp₂⟩ := htemps second status₂ hsecond
    apply hseparate.temp_injective first old₁ second old₂ hold₁ hold₂
    rw [htemp₁, htemp₂, heq]
  · exact hseparate.pending_mem
  · intro name hname
    rw [← hseparate.unmade name hname]
    refine (hstep.files.other ?_ ?_ ?_).1
    · rw [hapart.cstr_temp]
      exact hapart.held
    · rw [hapart.cstr_temp]
      rintro rfl
      exact hapart.temp_used hname
    · rintro rfl
      exact hapart.path_notMem (hseparate.pending_mem _ hname)

/-- A step on one record leaves the records of the other files alone. -/
theorem Untouched.putStatus {other : FileInfo}
    (hseparate : Separate names pending client)
    (hfind : client.syncSet.find? info = some status)
    (hstep : RecordStep ⟨status, client.files, []⟩ state) (hne : other ≠ info) :
    Untouched other client (client.putStatus info state) := by
  constructor
  · exact OrderedMap.find?_replace_ne hne client.syncSet state.status
  · intro status' hother
    exact (hseparate.other hfind hother hne hstep.files).1
  · intro status' hother
    exact (hseparate.other hfind hother hne hstep.files).2
  · refine ⟨_, rfl, ?_⟩
    intro event hevent
    obtain ⟨publication, _, rfl⟩ := List.mem_map.mp hevent
    exact Ne.symm hne

/-- Making a record uses one of the pending names. -/
theorem Separate.created {order : ByteOrder} {env : Environment}
    {address : Address} {files : FileStore Bytes}
    (hseparate : Separate names (tempName env.tmpnam info :: pending) client)
    (hfresh : tempName env.tmpnam info ∉ pending) (hnil : [] ∉ names)
    (hnone : client.syncSet.find? info = none)
    (hcreate : SyncStatus.create order env info address client.files =
      .ok (status, files)) :
    Separate names pending (client.created info status files) := by
  obtain ⟨_, rfl, rfl⟩ := SyncStatus.create_eq_ok hcreate
  let name := tempName env.tmpnam info
  have hused : ∀ other status', client.syncSet.find? other = some status' →
      status'.temp ≠ name := by
    intro other status' hother heq
    have hold := (hseparate.apart other status' hother).temp_used
    rw [heq] at hold
    exact hold (by simp [name])
  constructor
  · refine OrderedMap.forall_insert hnone ?_ ?_
    · intro other found _ hother
      have hold := hseparate.apart other found hother
      refine ⟨hold.cstr_temp, hold.temp_mem, ?_, hold.path_notMem, ?_⟩
      · exact fun hmem => hold.temp_used (List.mem_cons_of_mem _ hmem)
      · intro file hopen
        rw [← hold.held file hopen]
        exact OutStream.openFile_directory_ne (hused other found hother) _ _
    · refine ⟨cstr_tempName _ _, hseparate.pending_mem _ (by simp), hfresh, ?_, ?_⟩
      · simpa [cstr] using hnil
      · exact OutStream.openFile_held name env.opened client.files
  · exact OrderedMap.injective_insert hnone hseparate.temp_injective hused
  · exact fun other hother => hseparate.pending_mem other (by simp [hother])
  · intro other hother
    have hne : other ≠ name := by
      rintro rfl
      exact hfresh hother
    rw [← hseparate.unmade other (by simp [hother])]
    exact OutStream.openFile_directory_ne hne _ _

theorem Untouched.created {order : ByteOrder} {env : Environment}
    {address : Address} {files : FileStore Bytes} {other : FileInfo}
    (hseparate : Separate names (tempName env.tmpnam info :: pending) client)
    (hcreate : SyncStatus.create order env info address client.files =
      .ok (status, files)) (hne : other ≠ info) :
    Untouched other client (client.created info status files) := by
  obtain ⟨_, rfl, rfl⟩ := SyncStatus.create_eq_ok hcreate
  have hused : ∀ status', client.syncSet.find? other = some status' →
      status'.temp ≠ tempName env.tmpnam info := by
    intro status' hother heq
    apply (hseparate.apart other status' hother).temp_used
    rw [heq]
    exact List.mem_cons_self
  constructor
  · exact OrderedMap.find?_insert_ne hne client.syncSet _
  · exact fun status' hother => OutStream.openFile_directory_ne (hused status' hother) _ _
  · exact fun status' hother => OutStream.openFile_file?_ne (hused status' hother) _ _
  · refine ⟨_, rfl, ?_⟩
    intro event hevent
    rw [List.mem_singleton.mp hevent]
    exact Ne.symm hne

theorem Separate.erased (hseparate : Separate names pending client)
    (info : FileInfo) : Separate names pending (client.erased info) := by
  have hothers : ∀ other status',
      (client.erased info).syncSet.find? other = some status' →
        client.syncSet.find? other = some status' := by
    exact OrderedMap.forall_erase fun _ _ _ hother => hother
  constructor
  · exact fun other status' hother => hseparate.apart other status' (hothers _ _ hother)
  · exact fun first status₁ second status₂ hfirst hsecond =>
      hseparate.temp_injective first status₁ second status₂ (hothers _ _ hfirst)
        (hothers _ _ hsecond)
  · exact hseparate.pending_mem
  · exact hseparate.unmade

theorem Untouched.erased {other : FileInfo} (hne : other ≠ info) :
    Untouched other client (client.erased info) := by
  constructor
  · exact OrderedMap.find?_erase_ne hne client.syncSet
  · exact fun _ _ => rfl
  · exact fun _ _ => rfl
  · refine ⟨_, rfl, ?_⟩
    intro event hevent
    rw [List.mem_singleton.mp hevent]
    exact Ne.symm hne

theorem Separate.heardFrom (hseparate : Separate names pending client)
    (sender : Address) : Separate names pending (client.heardFrom sender) :=
  ⟨hseparate.apart, hseparate.temp_injective, hseparate.pending_mem,
    hseparate.unmade⟩

theorem Untouched.heardFrom {other : FileInfo} (sender : Address) :
    Untouched other client (client.heardFrom sender) :=
  ⟨rfl, fun _ _ => rfl, fun _ _ => rfl, [], by simp [BlockClient.heardFrom], by simp⟩

theorem Separate.answered (hseparate : Separate names pending client)
    (order : ByteOrder) (info : FileInfo) :
    Separate names pending (client.answered order info) :=
  ⟨hseparate.apart, hseparate.temp_injective, hseparate.pending_mem,
    hseparate.unmade⟩

theorem Untouched.answered {other : FileInfo} (order : ByteOrder)
    (hne : other ≠ info) :
    Untouched other client (client.answered order info) := by
  refine ⟨rfl, fun _ _ => rfl, fun _ _ => rfl, _, rfl, ?_⟩
  intro event hevent
  obtain ⟨status, _, rfl⟩ := Option.map_eq_some_iff.mp (Option.mem_toList.mp hevent)
  exact Ne.symm hne

end Steps

theorem Separate.weaken {names pending pending' : List Bytes}
    {client : BlockClient} (hseparate : Separate names pending client)
    (hsubset : ∀ name ∈ pending', name ∈ pending) :
    Separate names pending' client := by
  constructor
  · intro info status hfind
    have hapart := hseparate.apart info status hfind
    refine ⟨hapart.cstr_temp, hapart.temp_mem, ?_, hapart.path_notMem, hapart.held⟩
    exact fun hmem => hapart.temp_used (hsubset _ hmem)
  · exact hseparate.temp_injective
  · exact fun name hname => hseparate.pending_mem name (hsubset name hname)
  · exact fun name hname => hseparate.unmade name (hsubset name hname)

/-- The name of the temporary file, should the message make a record. -/
def Message.tempFile? (order : ByteOrder) (tmpnam : Bytes) (message : Message) :
    Option Bytes :=
  (message.fileInfo? order).map (tempName tmpnam)

/-- A datagram that reaches the client, and what its handler meets. -/
structure Delivery where
  sender : Address
  datagram : Bytes
  env : Environment
  deriving DecidableEq

namespace Delivery

def message (delivery : Delivery) : Message :=
  Message.received receiveReserve delivery.datagram

/-- The wait of the client ends with the datagram, and nothing can be sent. -/
def input (delivery : Delivery) : ClientInput where
  ready := .ok ⟨true, false⟩
  arrival := .ok (delivery.sender, delivery.datagram)
  env := delivery.env
  sendError := none

variable (order : ByteOrder)

def fileInfo? (delivery : Delivery) : Option FileInfo :=
  delivery.message.fileInfo? order

def tempFile? (delivery : Delivery) : Option Bytes :=
  delivery.message.tempFile? order delivery.env.tmpnam

def Announces (delivery : Delivery) (text : Bytes) : Prop :=
  delivery.message.getType order = MessageType.info.code ∧
    delivery.message.getText order = .ok text

/-- The path the message announces. -/
def announced? (delivery : Delivery) : Option Bytes :=
  if delivery.message.getType order = MessageType.info.code then
    (delivery.message.getText order).toOption
  else none

variable {order}

theorem Announces.announced? {delivery : Delivery} {text : Bytes}
    (hannounces : delivery.Announces order text) :
    delivery.announced? order = some text := by
  rw [Delivery.announced?, if_pos hannounces.1, hannounces.2]
  rfl

end Delivery

namespace BlockClient

variable {order : ByteOrder} {names pending : List Bytes}

/-- A message keeps the records apart.  So does it keep what making a record,
a step on one, an answer and an erasure keep while the records are apart. -/
theorem handle_separate {env : Environment} {message : Message}
    {address : Address} {I : BlockClient → Prop} (hnil : [] ∉ names)
    (hannounced : ∀ text, message.getType order = MessageType.info.code →
      message.getText order = .ok text → cstr text ∉ names)
    (hfresh : ∀ name ∈ message.tempFile? order env.tmpnam, name ∉ pending)
    (hcreated : ∀ client info status files,
      Separate names (tempName env.tmpnam info :: pending) client → I client →
      message.fileInfo? order = some info → client.syncSet.find? info = none →
      SyncStatus.create order env info address client.files = .ok (status, files) →
        I (client.created info status files))
    (hrecord : ∀ client info status (α : Type) (program : EStateM Fault StatusState α),
      Separate names pending client → I client →
      message.fileInfo? order = some info →
      client.syncSet.find? info = some status →
      RecordProgram order env message program →
        I (client.putStatus info (endState (program ⟨status, client.files, []⟩))))
    (hanswered : ∀ client info, I client → message.fileInfo? order = some info →
      I (client.answered order info))
    (herased : ∀ client info, I client → message.fileInfo? order = some info →
      I (client.erased info)) :
    Triple (fun client => Separate names
        ((message.tempFile? order env.tmpnam).toList ++ pending) client ∧ I client)
      (handle order env message address)
      (fun _ client => Separate names pending client ∧ I client)
      (fun _ client => Separate names pending client ∧ I client) := by
  apply handle_steps
  · exact fun client hclient =>
      ⟨hclient.1.weaken fun name hname => List.mem_append_right _ hname, hclient.2⟩
  · rintro client info status files ⟨hclient, hI⟩ hinfo hfind hcreate
    have hname : message.tempFile? order env.tmpnam =
        some (tempName env.tmpnam info) := by
      rw [Message.tempFile?, hinfo, Option.map_some]
    rw [hname] at hclient
    exact ⟨hclient.created (hfresh _ hname) hnil hfind hcreate,
      hcreated client info status files hclient hI hinfo hfind hcreate⟩
  · rintro client info status α program ⟨hclient, hI⟩ hinfo hfind hprogram
    obtain ⟨hstep, hpath⟩ := hprogram.recordStep ⟨status, client.files, []⟩
    refine ⟨hclient.putStatus hfind hstep ?_,
      hrecord client info status α program hclient hI hinfo hfind hprogram⟩
    rcases hpath with hsame | ⟨htype, htext⟩
    · rw [hsame]
      exact (hclient.apart info status hfind).path_notMem
    · exact hannounced _ htype htext
  · exact fun client info hclient hinfo =>
      ⟨hclient.1.answered order info, hanswered client info hclient.2 hinfo⟩
  · exact fun client info hclient hinfo =>
      ⟨hclient.1.erased info, herased client info hclient.2 hinfo⟩

/-- A message touches only the record of its file. -/
theorem handle_untouched {env : Environment} {message : Message}
    {address : Address} {before : BlockClient} {other : FileInfo} (hnil : [] ∉ names)
    (hannounced : ∀ text, message.getType order = MessageType.info.code →
      message.getText order = .ok text → cstr text ∉ names)
    (hfresh : ∀ name ∈ message.tempFile? order env.tmpnam, name ∉ pending)
    (hother : message.fileInfo? order ≠ some other) :
    Triple (fun client => Separate names
        ((message.tempFile? order env.tmpnam).toList ++ pending) client ∧
          Untouched other before client)
      (handle order env message address)
      (fun _ client => Separate names pending client ∧ Untouched other before client)
      (fun _ client => Separate names pending client ∧
        Untouched other before client) := by
  have hne : ∀ info, message.fileInfo? order = some info → other ≠ info := by
    rintro info hinfo rfl
    exact hother hinfo
  apply handle_separate hnil hannounced hfresh
  · exact fun client info status files hclient hbefore hinfo _ hcreate =>
      hbefore.trans (Untouched.created hclient hcreate (hne info hinfo))
  · exact fun client info status α program hclient hbefore hinfo hfind hprogram =>
      hbefore.trans (Untouched.putStatus hclient hfind (hprogram.recordStep _).1
        (hne info hinfo))
  · exact fun client info hbefore hinfo =>
      hbefore.trans (Untouched.answered order (hne info hinfo))
  · exact fun client info hbefore hinfo =>
      hbefore.trans (Untouched.erased (hne info hinfo))

/-- Receiving and handling one datagram, nothing being sent. -/
def deliver (order : ByteOrder) (delivery : Delivery) :
    EStateM Fault BlockClient Unit :=
  processMessage order delivery.input

/-- A datagram the check accepts goes to its handler; another one throws. -/
theorem deliver_apply (delivery : Delivery) (client : BlockClient) :
    deliver order delivery client =
      if delivery.datagram = [] then
        .error .receivedZeroBytes (client.heardFrom delivery.sender)
      else if delivery.message.Framed order then
        handle order delivery.env delivery.message delivery.sender
          (client.heardFrom delivery.sender)
      else .error .invalidPacketLength (client.heardFrom delivery.sender) := by
  have hreceive := BlockSocket.receive_datagram order receiveReserve delivery.sender
    delivery.datagram client.socket
  have hfailed := fun fault socket =>
    @processMessage_of_failed order delivery.input client fault socket
  have hreceived := fun socket =>
    @processMessage_of_received order delivery.input client delivery.message socket
  simp only [Delivery.input] at hfailed hreceived
  simp only [deliver, Delivery.input, heardFrom]
  by_cases hnil : delivery.datagram = []
  · rw [if_pos hnil] at hreceive ⊢
    exact hfailed _ _ hreceive
  · rw [if_neg hnil] at hreceive ⊢
    change _ = if delivery.message.Framed order then _ else _ at hreceive
    by_cases hframed : delivery.message.Framed order
    · rw [if_pos hframed] at hreceive ⊢
      rw [hreceived _ hreceive]
    · rw [if_neg hframed] at hreceive ⊢
      exact hfailed _ _ hreceive

/-- What the handler of a delivery keeps, the delivery keeps. -/
theorem deliver_triple {delivery : Delivery} {P Q : BlockClient → Prop}
    (hhandle : Triple P
      (handle order delivery.env delivery.message delivery.sender)
      (fun _ => Q) fun _ => Q)
    (hheard : ∀ client sender, P client → P (client.heardFrom sender))
    (hskip : ∀ client, P client → Q client) :
    Triple P (deliver order delivery) (fun _ => Q) fun _ => Q := by
  intro client hclient
  have hclient' := hheard client delivery.sender hclient
  rw [deliver_apply]
  split_ifs
  · exact hskip _ hclient'
  · exact hhandle _ hclient'
  · exact hskip _ hclient'

/-- The temporary files a run may make, one for each message about a file. -/
def tempFiles (order : ByteOrder) (deliveries : List Delivery) : List Bytes :=
  deliveries.filterMap (Delivery.tempFile? order)

/-- What is assumed of the names of a run: those of the temporary files are
distinct and not in use, and no announced path is one of them. -/
structure NamesApart (order : ByteOrder) (files : FileStore Bytes)
    (deliveries : List Delivery) : Prop where
  nodup : (tempFiles order deliveries).Nodup
  unmade : ∀ name ∈ tempFiles order deliveries, files.directory name = none
  announced : ∀ delivery ∈ deliveries, ∀ text, delivery.Announces order text →
    cstr text ∉ tempFiles order deliveries

theorem NamesApart.of_announced {files : FileStore Bytes} {deliveries : List Delivery}
    (hnodup : (tempFiles order deliveries).Nodup)
    (hunmade : ∀ name ∈ tempFiles order deliveries, files.directory name = none)
    (hannounced : ∀ delivery ∈ deliveries, ∀ text ∈ delivery.announced? order,
      cstr text ∉ tempFiles order deliveries) :
    NamesApart order files deliveries :=
  ⟨hnodup, hunmade, fun delivery hmem text hannounces =>
    hannounced delivery hmem text hannounces.announced?⟩

theorem tempFiles_append (first second : List Delivery) :
    tempFiles order (first ++ second) =
      tempFiles order first ++ tempFiles order second :=
  List.filterMap_append

theorem tempFiles_cons (delivery : Delivery) (rest : List Delivery) :
    tempFiles order (delivery :: rest) =
      (delivery.tempFile? order).toList ++ tempFiles order rest := by
  unfold tempFiles
  cases hname : delivery.tempFile? order with
  | none => simp [hname]
  | some name => simp [hname]

theorem nil_notMem_tempFiles (deliveries : List Delivery) :
    [] ∉ tempFiles order deliveries := by
  intro hmem
  obtain ⟨delivery, _, hname⟩ := List.mem_filterMap.mp hmem
  obtain ⟨info, _, hnil⟩ := Option.map_eq_some_iff.mp hname
  simp [tempName, tempSuffix] at hnil

/-- Without records the files are apart. -/
theorem NamesApart.separate {client : BlockClient} {deliveries : List Delivery}
    (hnames : NamesApart order client.files deliveries)
    (hempty : ∀ info, client.syncSet.find? info = none) :
    Separate (tempFiles order deliveries) (tempFiles order deliveries) client :=
  .of_empty hempty (fun _ hname => hname) hnames.unmade

/-- A run keeps the records apart, and a property of what was delivered that
each delivery keeps while they are. -/
theorem deliveries_triple {deliveries : List Delivery} {client : BlockClient}
    {I : List Delivery → BlockClient → Prop} {E : BlockClient → Prop}
    (hnames : NamesApart order client.files deliveries)
    (hempty : ∀ info, client.syncSet.find? info = none) (hclient : I [] client)
    (hdeliver : ∀ before delivery after,
      deliveries = before ++ delivery :: after →
      (∀ text, delivery.Announces order text →
        cstr text ∉ tempFiles order deliveries) →
      (∀ name ∈ delivery.tempFile? order, name ∉ tempFiles order after) →
      Triple
        (fun current => Separate (tempFiles order deliveries)
          ((delivery.tempFile? order).toList ++ tempFiles order after) current ∧
            I before current)
        (deliver order delivery)
        (fun _ current => Separate (tempFiles order deliveries)
          (tempFiles order after) current ∧ I (before ++ [delivery]) current)
        (fun _ => E)) :
    Triple (fun current => current = client) (deliveries.forM (deliver order))
      (fun _ final =>
        Separate (tempFiles order deliveries) [] final ∧ I deliveries final)
      (fun _ => E) := by
  let J : List Delivery → BlockClient → Prop := fun before current =>
    Separate (tempFiles order deliveries)
      (tempFiles order (deliveries.drop before.length)) current ∧ I before current
  have hrun : Triple (J []) (deliveries.forM (deliver order)) (fun _ => J deliveries)
      (fun _ => E) := by
    apply Triple.forM
    intro before delivery after heq
    have hnodup := hnames.nodup
    rw [heq, tempFiles_append, tempFiles_cons] at hnodup
    have hrest : deliveries.drop before.length = delivery :: after := by
      rw [heq, List.drop_left]
    have hnext : deliveries.drop (before ++ [delivery]).length = after := by
      have hsplit : deliveries = (before ++ [delivery]) ++ after := by simp [heq]
      rw [hsplit, List.drop_left]
    simp only [J, hrest, hnext, tempFiles_cons]
    apply hdeliver before delivery after heq
    · exact hnames.announced delivery (by simp [heq])
    · intro name hname hmem
      have hdisjoint := (List.nodup_append.mp (List.nodup_append.mp hnodup).2.1).2.2
      exact hdisjoint name (Option.mem_toList.mpr hname) name hmem rfl
  apply hrun.weaken
  · rintro current rfl
    exact ⟨hnames.separate hempty, hclient⟩
  · intro _ final hfinal
    simp only [J, List.drop_length] at hfinal
    exact hfinal
  · exact fun _ _ h => h

end BlockClient

end Multisync
