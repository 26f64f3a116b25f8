import Multisync.Addressing
import Multisync.Records
import Multisync.TransferRefinement
import Mathlib.Tactic

/-!
# Completion of a transfer

From a client that has no record of a file, any messages about the file and about
others may follow.  This says exactly when the file is renamed to an announced path
and the goodbye of the server is answered.
-/

namespace Multisync

open ByteLayout Effects

/-- The temporary files of the records are distinct, and none of them is pending. -/
structure Temps (pending : List Bytes) (client : BlockClient) : Prop where
  cstr_temp : ∀ info status, client.syncSet.find? info = some status →
    cstr status.temp = status.temp
  temp_used : ∀ info status, client.syncSet.find? info = some status →
    status.temp ∉ pending
  temp_injective : ∀ info status other status',
    client.syncSet.find? info = some status →
    client.syncSet.find? other = some status' →
      status.temp = status'.temp → info = other

namespace Temps

variable {order : ByteOrder} {pending : List Bytes} {client : BlockClient}
  {info : FileInfo} {status : SyncStatus}

/-- Every record of the one client has a record of the same name in the other. -/
theorem of_temps {client' : BlockClient} (htemps : Temps pending client)
    (hsame : ∀ other status', client'.syncSet.find? other = some status' →
      ∃ old, client.syncSet.find? other = some old ∧ old.temp = status'.temp) :
    Temps pending client' := by
  constructor
  · intro other status' hother
    obtain ⟨old, hold, htemp⟩ := hsame other status' hother
    rw [← htemp]
    exact htemps.cstr_temp other old hold
  · intro other status' hother
    obtain ⟨old, hold, htemp⟩ := hsame other status' hother
    rw [← htemp]
    exact htemps.temp_used other old hold
  · intro first status₁ second status₂ hfirst hsecond heq
    obtain ⟨old₁, hold₁, htemp₁⟩ := hsame first status₁ hfirst
    obtain ⟨old₂, hold₂, htemp₂⟩ := hsame second status₂ hsecond
    apply htemps.temp_injective first old₁ second old₂ hold₁ hold₂
    rw [htemp₁, htemp₂, heq]

theorem of_syncSet {client' : BlockClient} (htemps : Temps pending client)
    (hsame : client'.syncSet = client.syncSet) : Temps pending client' := by
  apply htemps.of_temps
  intro other status' hother
  rw [hsame] at hother
  exact ⟨status', hother, rfl⟩

theorem putStatus (htemps : Temps pending client)
    (hfind : client.syncSet.find? info = some status) {state : StatusState}
    (htemp : state.status.temp = status.temp) :
    Temps pending (client.putStatus info state) := by
  apply htemps.of_temps
  refine OrderedMap.forall_replace hfind ?_ ?_
  · exact fun other found _ hother => ⟨found, hother, rfl⟩
  · exact ⟨status, hfind, htemp.symm⟩

theorem erased (htemps : Temps pending client) (info : FileInfo) :
    Temps pending (client.erased info) := by
  apply htemps.of_temps
  exact OrderedMap.forall_erase fun other found _ hother => ⟨found, hother, rfl⟩

theorem weaken (htemps : Temps pending client) {pending' : List Bytes}
    (hsubset : ∀ name ∈ pending', name ∈ pending) : Temps pending' client :=
  ⟨htemps.cstr_temp, fun info status hfind hmem =>
    htemps.temp_used info status hfind (hsubset _ hmem), htemps.temp_injective⟩

theorem created {env : Environment} {address : Address} {files : FileStore Bytes}
    (htemps : Temps (tempName env.tmpnam info :: pending) client)
    (hfresh : tempName env.tmpnam info ∉ pending)
    (hnone : client.syncSet.find? info = none)
    (hcreate : SyncStatus.create order env info address client.files =
      .ok (status, files)) :
    Temps pending (client.created info status files) := by
  obtain ⟨_, hstatus, _⟩ := SyncStatus.create_eq_ok hcreate
  have htemp : status.temp = tempName env.tmpnam info := by rw [hstatus]
  have hused : ∀ other status', client.syncSet.find? other = some status' →
      status'.temp ≠ status.temp := by
    intro other status' hother heq
    apply htemps.temp_used other status' hother
    rw [heq, htemp]
    exact List.mem_cons_self
  constructor
  · refine OrderedMap.forall_insert hnone ?_ ?_
    · exact fun other found _ => htemps.cstr_temp other found
    · rw [htemp]
      exact cstr_tempName _ _
  · refine OrderedMap.forall_insert hnone ?_ ?_
    · exact fun other found _ hother hmem =>
        htemps.temp_used other found hother (List.mem_cons_of_mem _ hmem)
    · rw [htemp]
      exact hfresh
  · exact OrderedMap.injective_insert hnone htemps.temp_injective hused

end Temps

namespace BlockClient

variable {order : ByteOrder} {env : Environment} {message : Message}
  {address : Address} {pending : List Bytes} {info : FileInfo} {base : ℕ}
  {heard : List (FileMessage UInt8)} {progress : Transfer.Progress UInt8}
  {client : BlockClient}

theorem handle_temps {I : BlockClient → Prop}
    (hfresh : ∀ name ∈ message.tempFile? order env.tmpnam, name ∉ pending)
    (hcreated : ∀ client info status files,
      Temps (tempName env.tmpnam info :: pending) client → I client →
      message.fileInfo? order = some info → client.syncSet.find? info = none →
      SyncStatus.create order env info address client.files = .ok (status, files) →
        I (client.created info status files))
    (hrecord : ∀ client info status (α : Type) (program : EStateM Fault StatusState α),
      Temps pending client → I client → message.fileInfo? order = some info →
      client.syncSet.find? info = some status →
      RecordProgram order env message program →
        I (client.putStatus info (endState (program ⟨status, client.files, []⟩))))
    (hanswered : ∀ client info, I client → message.fileInfo? order = some info →
      I (client.answered order info))
    (herased : ∀ client info, I client → message.fileInfo? order = some info →
      I (client.erased info)) :
    Triple (fun client => Temps ((message.tempFile? order env.tmpnam).toList ++ pending)
        client ∧ I client)
      (handle order env message address)
      (fun _ client => Temps pending client ∧ I client)
      (fun _ client => Temps pending client ∧ I client) := by
  apply handle_steps
  · exact fun client hclient =>
      ⟨hclient.1.weaken fun name hname => List.mem_append_right _ hname, hclient.2⟩
  · rintro client info status files ⟨hclient, hI⟩ hinfo hfind hcreate
    have hname : message.tempFile? order env.tmpnam =
        some (tempName env.tmpnam info) := by
      rw [Message.tempFile?, hinfo, Option.map_some]
    rw [hname] at hclient
    exact ⟨hclient.created (hfresh _ hname) hfind hcreate,
      hcreated client info status files hclient hI hinfo hfind hcreate⟩
  · rintro client info status α program ⟨hclient, hI⟩ hinfo hfind hprogram
    obtain ⟨hstep, _⟩ := hprogram.recordStep ⟨status, client.files, []⟩
    exact ⟨hclient.putStatus hfind hstep.temp,
      hrecord client info status α program hclient hI hinfo hfind hprogram⟩
  · exact fun client info hclient hinfo =>
      ⟨hclient.1.of_syncSet rfl, hanswered client info hclient.2 hinfo⟩
  · exact fun client info hclient hinfo =>
      ⟨hclient.1.erased info, herased client info hclient.2 hinfo⟩

/-- Nothing has happened to the record, and its temporary file is still there if it
was. -/
theorem Tracks.of_other (htracks : client.Tracks order info base heard progress)
    {client' : BlockClient} {events : List ClientEvent}
    (hrecord : client'.syncSet.find? info = client.syncSet.find? info)
    (htrace : client'.trace = client.trace ++ events)
    (hothers : ∀ event ∈ events, event.info ≠ info)
    (hdirectory : ∀ status, client.syncSet.find? info = some status →
      client.files.directory status.temp ≠ none →
        client'.files.directory status.temp ≠ none) :
    client'.Tracks order info base heard progress := by
  refine ⟨hrecord ▸ htracks.record, htracks.among, ?_⟩
  refine @Reported.extend _ _ _ _ _ htracks.reported client' events 0 htrace ?_
    (fun hpos => absurd hpos (lt_irrefl 0)) fun status hstatus => ?_
  · rw [List.countP_eq_zero]
    intro answer hanswer
    obtain ⟨event, hevent, hsome⟩ := List.mem_filterMap.mp hanswer
    have hother := hothers event hevent
    cases event with
    | answered other serverAddress =>
        cases hsome
        simpa [ClientEvent.info] using hother
    | created other temp => contradiction
    | published other publication => contradiction
    | erased other => contradiction
  · rw [hrecord] at hstatus
    rcases htracks.reported.temp status hstatus with hthere | hrenamed
    · exact Or.inl (hdirectory status hstatus hthere)
    · exact Or.inr (hrenamed.extend htrace)

end BlockClient

/-- A renaming or a write leaves every other name that was there. -/
theorem FilesStep.directory_ne_none {status : SyncStatus} {files files' : FileStore Bytes}
    {open' : Option ℕ} (hstep : FilesStep status files open' files') {name : Bytes}
    (hne : name ≠ cstr status.temp) (hthere : files.directory name ≠ none) :
    files'.directory name ≠ none := by
  cases hstep with
  | kept => exact hthere
  | wrote hfile position bytes => exact hthere
  | closed => exact hthere
  | renamed =>
      by_cases hpath : name = cstr status.path
      · subst hpath
        cases hold : files.directory (cstr status.temp) with
        | none =>
            rw [files.rename_of_none _ hold]
            exact hthere
        | some file =>
            rw [files.rename_directory_new hold]
            exact Option.some_ne_none _
      · rw [files.rename_directory_ne hne hpath]
        exact hthere

namespace BlockClient

variable {order : ByteOrder} {env : Environment} {message : Message}
  {address : Address} {pending : List Bytes} {info : FileInfo} {base : ℕ}
  {heard : List (FileMessage UInt8)} {progress : Transfer.Progress UInt8}

/-- A message about another file leaves the client where it was. -/
theorem handle_other
    (hfresh : ∀ name ∈ message.tempFile? order env.tmpnam, name ∉ pending)
    (hother : message.fileInfo? order ≠ some info) :
    Triple (fun client => Temps ((message.tempFile? order env.tmpnam).toList ++ pending)
        client ∧ client.Tracks order info base heard progress)
      (handle order env message address)
      (fun _ client => Temps pending client ∧
        client.Tracks order info base heard progress)
      (fun _ client => Temps pending client ∧
        client.Tracks order info base heard progress) := by
  have hne : ∀ other, message.fileInfo? order = some other → info ≠ other := by
    rintro other hinfo rfl
    exact hother hinfo
  apply handle_temps hfresh
  · intro client other status files htemps htracks hinfo hnone hcreate
    obtain ⟨_, hstatus, hfiles⟩ := SyncStatus.create_eq_ok hcreate
    refine @Tracks.of_other order info base heard progress client htracks _
      [.created other status.temp] (OrderedMap.find?_insert_ne (hne other hinfo) _ _) rfl
      ?_ ?_
    · intro event hevent
      rw [List.mem_singleton.mp hevent]
      exact (hne other hinfo).symm
    · intro status' hstatus' hthere
      rw [BlockClient.created, hfiles, OutStream.openFile_directory_ne]
      · exact hthere
      · intro heq
        apply htemps.temp_used info status' hstatus'
        rw [heq]
        exact List.mem_cons_self
  · intro client other status α program htemps htracks hinfo hfind hprogram
    obtain ⟨hstep, _⟩ := hprogram.recordStep ⟨status, client.files, []⟩
    refine @Tracks.of_other order info base heard progress client htracks _ _
      (OrderedMap.find?_replace_ne (hne other hinfo) _ _) rfl ?_ ?_
    · intro event hevent
      obtain ⟨publication, _, rfl⟩ := List.mem_map.mp hevent
      exact (hne other hinfo).symm
    · intro status' hstatus' hthere
      refine hstep.files.directory_ne_none ?_ hthere
      rw [htemps.cstr_temp other status hfind]
      intro heq
      exact hne other hinfo (htemps.temp_injective _ _ _ _ hstatus' hfind heq)
  · intro client other htracks hinfo
    refine @Tracks.of_other order info base heard progress client htracks _ _ rfl rfl ?_
      fun _ _ hthere => hthere
    intro event hevent
    obtain ⟨status, _, rfl⟩ := Option.map_eq_some_iff.mp (Option.mem_toList.mp hevent)
    exact (hne other hinfo).symm
  · intro client other htracks hinfo
    refine @Tracks.of_other order info base heard progress client htracks _
      [.erased other] (OrderedMap.find?_erase_ne (hne other hinfo) _) rfl ?_
      fun _ _ hthere => hthere
    intro event hevent
    rw [List.mem_singleton.mp hevent]
    exact (hne other hinfo).symm

end BlockClient

namespace ClientInput

variable (order : ByteOrder)

def fileInfo? (input : ClientInput) : Option FileInfo :=
  input.message?.bind (Message.fileInfo? order)

def tempFile? (input : ClientInput) : Option Bytes :=
  input.message?.bind (Message.tempFile? order input.env.tmpnam)

/-- What the receiver of the file hears, with the flag of the record it would make. -/
def heard? (id : UInt32) (info : FileInfo) (input : ClientInput) :
    Option (Bool × FileMessage UInt8) :=
  if input.fileInfo? order = some info then
    (input.message?.bind (Message.fileMessage? order id)).map
      fun heard => (input.env.goodbyeReceived, heard)
  else none

end ClientInput

/-- A consistent message is framed. -/
theorem Message.Consistent.framed {order : ByteOrder} {message : Message}
    (hconsistent : message.Consistent order) : message.Framed order := by
  have hoffset := hconsistent.offset_le
  rw [Message.framed_iff, hconsistent.length]
  congr 1
  omega

/-- A sound message about a file is heard. -/
theorem Message.Sound.fileMessage? {order : ByteOrder} {id : UInt32} {message : Message}
    {info : FileInfo} (hsound : message.Sound order)
    (hinfo : message.fileInfo? order = some info) :
    ∃ heard, message.fileMessage? order id = some heard := by
  have htext := Message.getText_eq order hsound.wellFormed.consistent.offset_le
  rcases Message.fileInfo?_cases hinfo with
    ⟨htype, _⟩ | ⟨htype, block, hmetadata, _⟩ | ⟨htype, _⟩
  · exact ⟨_, Message.fileMessage?_of_info htype htext⟩
  · exact ⟨_, Message.fileMessage?_of_block htype hmetadata⟩
  · exact ⟨_, Message.fileMessage?_of_sgoodbye htype⟩

namespace BlockClient

variable {order : ByteOrder} {info : FileInfo} {base : ℕ} {initial : BlockClient}
  {hello : List Bytes} {pending : List Bytes}
  {entries : List (Bool × FileMessage UInt8)} {client : BlockClient}

/-- All that holds of a client that has heard the entries of the file. -/
structure Following (order : ByteOrder) (info : FileInfo) (base : ℕ)
    (initial : BlockClient) (hello : List Bytes) (pending : List Bytes)
    (entries : List (Bool × FileMessage UInt8)) (client : BlockClient) : Prop where
  temps : Temps pending client
  settled : client.Settled order
  posted : initial.Posted order hello client
  tracks : client.Tracks order info base (entries.map Prod.snd)
    (Transfer.run (info.getBlockCount order).toNat entries)

theorem Renamed.mono {heard heard' : List (FileMessage UInt8)}
    (hrenamed : client.Renamed info base heard)
    (hsubset : ∀ message ∈ heard, message ∈ heard') :
    client.Renamed info base heard' := by
  obtain ⟨publication, hmem, hne, hpath⟩ := hrenamed
  exact ⟨publication, hmem, hne, hsubset _ hpath⟩

theorem Tracks.mono {heard heard' : List (FileMessage UInt8)}
    {progress : Transfer.Progress UInt8}
    (htracks : client.Tracks order info base heard progress)
    (hsubset : ∀ message ∈ heard, message ∈ heard') :
    client.Tracks order info base heard' progress := by
  refine ⟨htracks.record, ?_, htracks.reported.base_le, htracks.reported.answers, ?_, ?_⟩
  · exact fun transfer htransfer message hmem =>
      hsubset message (htracks.among transfer htransfer message hmem)
  · exact fun hpos => (htracks.reported.renamed hpos).mono hsubset
  · exact fun status hstatus =>
      (htracks.reported.temp status hstatus).imp_right fun h => h.mono hsubset

/-- The socket and the queue may change. -/
theorem Following.of_records
    (hclient : Following order info base initial hello pending entries client)
    {client' : BlockClient} (hsyncSet : client'.syncSet = client.syncSet)
    (hfiles : client'.files = client.files) (htrace : client'.trace = client.trace)
    (hposted : initial.Posted order hello client') :
    Following order info base initial hello pending entries client' := by
  refine ⟨hclient.temps.of_syncSet hsyncSet, ⟨?_, ?_⟩, hposted, ?_⟩
  · intro other status hfind
    rw [hsyncSet] at hfind
    exact hclient.settled.intact other status hfind
  · intro other status hfind
    rw [hsyncSet] at hfind
    exact hclient.settled.unfinished other status hfind
  · apply hclient.tracks.of_other (by rw [hsyncSet])
      (show client'.trace = client.trace ++ [] by rw [htrace, List.append_nil])
    · intro event hevent
      contradiction
    · intro status _ hthere
      rwa [hfiles]

/-- One message that was received. -/
theorem handle_following {env : Environment} {message : Message} {address : Address}
    {heard? : Option (FileMessage UInt8)} (hsucceeds : env.Succeeds)
    (hnul : 0 ∈ info.digest)
    (hfresh : ∀ name ∈ message.tempFile? order env.tmpnam, name ∉ pending)
    (hsound : message.fileInfo? order = some info → message.Sound order)
    (hheard : heard? = if message.fileInfo? order = some info then
      message.fileMessage? order initial.id else none) :
    Triple (Following order info base initial hello
        ((message.tempFile? order env.tmpnam).toList ++ pending) entries)
      (handle order env message address)
      (fun _ => Following order info base initial hello pending
        (entries ++ (heard?.map fun heard => (env.goodbyeReceived, heard)).toList))
      (fun _ _ => message.fileInfo? order ≠ some info) := by
  intro client hclient
  by_cases hinfo : message.fileInfo? order = some info
  · rw [if_pos hinfo] at hheard
    obtain ⟨heardNow, hmessage⟩ := @Message.Sound.fileMessage? order initial.id message
      info (hsound hinfo) hinfo
    rw [hmessage] at hheard
    subst hheard
    have htracks := @Tracks.mono order info base client _ ((entries ++
      [(env.goodbyeReceived, heardNow)]).map Prod.snd) _ hclient.tracks fun other hmem => by
        rw [List.map_append]
        exact List.mem_append_left _ hmem
    obtain ⟨final, hok, hfinal⟩ := @Tracks.handle order env message address info base _
      client _ heardNow htracks hclient.settled hsucceeds hnul
      (fun status hstatus => hclient.temps.cstr_temp info status hstatus) (hsound hinfo)
      hinfo (by rw [hclient.posted.id]; exact hmessage) (by simp)
    have htemps := (@handle_temps order env message address pending (fun _ => True) hfresh
      (fun _ _ _ _ _ _ _ _ _ => trivial) (fun _ _ _ _ _ _ _ _ _ _ => trivial)
      (fun _ _ _ _ => trivial) fun _ _ _ _ => trivial).ok ⟨hclient.temps, trivial⟩ hok
    have hsettled := (handle_settled hsucceeds).ok hclient.settled hok
    have hposted := handle_posted.ok hclient.posted hok
    rw [hok]
    refine ⟨htemps.1, hsettled, hposted, ?_⟩
    rw [Option.map_some, Option.toList_some, Transfer.run_concat]
    exact hfinal
  · rw [if_neg hinfo] at hheard
    subst hheard
    have hother := @handle_other order env message address pending info base
      (entries.map Prod.snd) (Transfer.run (info.getBlockCount order).toNat entries)
      hfresh hinfo
    cases hrun : handle order env message address client with
    | error fault final => exact hinfo
    | ok value final =>
        obtain ⟨htemps, htracks⟩ := hother.ok ⟨hclient.temps, hclient.tracks⟩ hrun
        refine ⟨htemps, (handle_settled hsucceeds).ok hclient.settled hrun,
          handle_posted.ok hclient.posted hrun, ?_⟩
        simpa using htracks

theorem sendFront_following {sendError : Option String} (hsend : sendError = none) :
    Triple
      (fun client => Following order info base initial hello pending entries client ∧
        endpoint.messageQueue client ≠ [])
      (endpoint.sendFront order sendError)
      (fun _ => Following order info base initial hello pending entries)
      (fun _ _ => False) := by
  rintro client ⟨hclient, hne⟩
  subst hsend
  obtain ⟨socket, rest, hsent, hposted⟩ := hclient.posted.sendFront hne
  rw [hsent]
  exact hclient.of_records rfl rfl rfl hposted

/-- One call of `select`; a message about the file cannot end the client. -/
theorem select_following {input : ClientInput} (hsucceeds : input.env.Succeeds)
    (hnul : 0 ∈ info.digest) (hsend : input.sendError = none)
    (hfresh : ∀ name ∈ input.tempFile? order, name ∉ pending)
    (hsound : ∀ message, input.message? = some message →
      message.fileInfo? order = some info → message.Sound order) :
    Triple (Following order info base initial hello
        ((input.tempFile? order).toList ++ pending) entries)
      (select order input)
      (fun _ => Following order info base initial hello pending
        (entries ++ (input.heard? order initial.id info).toList))
      (fun _ _ => input.fileInfo? order ≠ some info) := by
  apply select_message
  · intro client sender hclient
    have hposted := hclient.posted
    exact hclient.of_records rfl rfl rfl ⟨hposted.id, hposted.info,
      hposted.destination, hposted.sent, hposted.posted, hposted.greeting⟩
  · intro message sender hmessage
    have hinfo : input.fileInfo? order = message.fileInfo? order := by
      rw [ClientInput.fileInfo?, hmessage, Option.bind_some]
    have htemp : input.tempFile? order = message.tempFile? order input.env.tmpnam := by
      rw [ClientInput.tempFile?, hmessage, Option.bind_some]
    have hheard : input.heard? order initial.id info =
        (if message.fileInfo? order = some info then
          message.fileMessage? order initial.id else none).map fun heard =>
            (input.env.goodbyeReceived, heard) := by
      rw [ClientInput.heard?, hinfo, hmessage, Option.bind_some]
      split_ifs <;> rfl
    rw [hinfo, hheard, htemp]
    exact handle_following hsucceeds hnul (htemp ▸ hfresh) (hsound message hmessage) rfl
  · intro _ hreject fault client hclient hinfo
    obtain ⟨message, hmessage, hsome⟩ := Option.bind_eq_some_iff.mp hinfo
    have hconsistent := (hsound message hmessage hsome).wellFormed.consistent
    refine hreject message hmessage ⟨fun hnil => ?_, hconsistent.framed⟩
    have hheader := hconsistent.header
    rw [hnil] at hheader
    contradiction
  · intro hnone client hclient
    have htemp : input.tempFile? order = none := by
      rw [ClientInput.tempFile?, hnone, Option.bind_none]
    have hheard : input.heard? order initial.id info = none := by
      rw [ClientInput.heard?, hnone]
      split_ifs <;> rfl
    rw [htemp] at hclient
    rw [hheard]
    simpa using hclient
  · exact (sendFront_following hsend).weaken (fun _ h => h) (fun _ _ h => h)
      fun _ _ h => h.elim

/-- One call of `select` uses the name of its message. -/
theorem select_temps {input : ClientInput}
    (hfresh : ∀ name ∈ input.tempFile? order, name ∉ pending) :
    Triple (Temps ((input.tempFile? order).toList ++ pending)) (select order input)
      (fun _ => Temps pending) (fun _ _ => True) := by
  apply select_message
  · exact fun client sender hclient => hclient.of_syncSet rfl
  · intro message sender hmessage
    have htemp : input.tempFile? order = message.tempFile? order input.env.tmpnam := by
      rw [ClientInput.tempFile?, hmessage, Option.bind_some]
    rw [htemp] at hfresh ⊢
    have hhandle := @handle_temps order input.env message sender pending (fun _ => True)
      hfresh (fun _ _ _ _ _ _ _ _ _ => trivial) (fun _ _ _ _ _ _ _ _ _ _ => trivial)
      (fun _ _ _ _ => trivial) fun _ _ _ _ => trivial
    exact hhandle.weaken (fun _ h => ⟨h, trivial⟩) (fun _ _ h => h.1) fun _ _ _ => trivial
  · exact fun _ _ _ _ _ => trivial
  · intro _ client hclient
    exact hclient.weaken fun name hname => List.mem_append_right _ hname
  · rintro client ⟨hclient, hne⟩
    obtain ⟨message, rest, hqueue⟩ := List.exists_cons_of_ne_nil hne
    rw [Endpoint.sendFront_of_cons hqueue]
    cases BlockSocket.send order message input.sendError (endpoint.socket client) with
    | ok value socket => exact hclient.of_syncSet rfl
    | error fault socket => exact trivial

end BlockClient

namespace ClientRun

variable {order : ByteOrder} {info : FileInfo} {base : ℕ} {initial : BlockClient}
  {hello : List Bytes} {run : ClientRun}

theorem steps_cons (input : ClientInput) (inputs : List ClientInput) :
    run.steps order (input :: inputs) = (run.step order input).steps order inputs := rfl

/-- A client that has thrown does nothing more. -/
theorem steps_of_fault (hfault : run.fault ≠ none) (inputs : List ClientInput) :
    run.steps order inputs = run := by
  induction inputs with
  | nil => rfl
  | cons input inputs ih =>
      obtain ⟨fault, hsome⟩ := Option.ne_none_iff_exists'.mp hfault
      have hstep : run.step order input = run := by
        rw [ClientRun.step, hsome]
      rw [steps_cons, hstep, ih]

/-- The wait goes on, and nothing is read, or `select` runs. -/
theorem step_cases (hfault : run.fault = none) (input : ClientInput) :
    run.step order input = run ∧ input.message? = none ∨
      run.step order input = ofResult (BlockClient.select order input run.client) := by
  rw [ClientRun.step, hfault]
  by_cases hwakes : BlockClient.endpoint.Wakes input.ready run.client
  · exact Or.inr (if_pos hwakes)
  · refine Or.inl ⟨if_neg hwakes, ?_⟩
    unfold ClientInput.message?
    cases hready : input.ready with
    | error error => rfl
    | ok ready =>
        cases input.arrival with
        | error error => rfl
        | ok arrival =>
            apply if_neg
            intro hreadable
            apply hwakes
            rw [hready]
            simp [Endpoint.Wakes, Ready.wakes, hreadable]

/-- The temporary files the run may make, one for each message about a file. -/
def tempFiles (order : ByteOrder) (inputs : List ClientInput) : List Bytes :=
  inputs.filterMap (ClientInput.tempFile? order)

theorem tempFiles_cons (input : ClientInput) (rest : List ClientInput) :
    tempFiles order (input :: rest) =
      (input.tempFile? order).toList ++ tempFiles order rest := by
  unfold tempFiles
  cases hname : input.tempFile? order with
  | none => simp [hname]
  | some name => simp [hname]

theorem tempFiles_fresh {input : ClientInput} {rest : List ClientInput}
    (hnodup : (tempFiles order (input :: rest)).Nodup) :
    (∀ name ∈ input.tempFile? order, name ∉ tempFiles order rest) ∧
      (tempFiles order rest).Nodup := by
  rw [tempFiles_cons] at hnodup
  have hsplit := List.nodup_append.mp hnodup
  exact ⟨fun name hname hmem => hsplit.2.2 name (Option.mem_toList.mpr hname) name hmem
    rfl, hsplit.2.1⟩

/-- Each call of `select` uses the name of its message. -/
theorem steps_temps {before inputs : List ClientInput}
    (hnodup : (tempFiles order (before ++ inputs)).Nodup)
    (hrun : run.fault = none → Temps (tempFiles order (before ++ inputs)) run.client) :
    (run.steps order before).fault = none →
      Temps (tempFiles order inputs) (run.steps order before).client := by
  induction before generalizing run with
  | nil => exact hrun
  | cons input before ih =>
      rw [List.cons_append] at hnodup
      obtain ⟨hfresh, hnodup'⟩ := tempFiles_fresh hnodup
      apply ih hnodup'
      intro hfault
      have hfault' : run.fault = none := by
        by_contra hne
        have hsame := @steps_of_fault order run hne [input]
        rw [steps_cons] at hsame
        exact hne (hsame ▸ hfault)
      have hclient := hrun hfault'
      rw [List.cons_append, tempFiles_cons] at hclient
      rcases step_cases hfault' input with ⟨hsame, hnone⟩ | hselect
      · rw [hsame]
        exact hclient.weaken fun name hname => List.mem_append_right _ hname
      · rw [hselect] at hfault ⊢
        cases hresult : BlockClient.select order input run.client with
        | ok value client =>
            exact (BlockClient.select_temps hfresh).ok hclient hresult
        | error fault client =>
            rw [hresult] at hfault
            contradiction

/-- A run that no other message ends goes on, and follows what is heard. -/
theorem steps_following {entries : List (Bool × FileMessage UInt8)}
    {inputs : List ClientInput} (hfault : run.fault = none)
    (hclient : BlockClient.Following order info base initial hello
      (tempFiles order inputs) entries run.client)
    (hnul : 0 ∈ info.digest) (hnodup : (tempFiles order inputs).Nodup)
    (hsucceed : ∀ input ∈ inputs, input.env.Succeeds)
    (hsend : ∀ input ∈ inputs, input.sendError = none)
    (hsound : ∀ input ∈ inputs, ∀ message, input.message? = some message →
      message.fileInfo? order = some info → message.Sound order)
    (hothers : ∀ first input rest, inputs = first ++ input :: rest →
      input.fileInfo? order ≠ some info → (run.steps order first).fault = none →
        (run.steps order (first ++ [input])).fault = none) :
    (run.steps order inputs).fault = none ∧
      BlockClient.Following order info base initial hello []
        (entries ++ inputs.filterMap (ClientInput.heard? order initial.id info))
        (run.steps order inputs).client := by
  induction inputs generalizing run entries with
  | nil =>
      rw [List.filterMap_nil, List.append_nil]
      exact ⟨hfault, hclient⟩
  | cons input inputs ih =>
      obtain ⟨hfresh, hnodup'⟩ := tempFiles_fresh hnodup
      rw [tempFiles_cons] at hclient
      have hstep : (run.step order input).fault = none ∧
          BlockClient.Following order info base initial hello (tempFiles order inputs)
            (entries ++ (input.heard? order initial.id info).toList)
            (run.step order input).client := by
        have hselect := @BlockClient.select_following order info base initial hello
          (tempFiles order inputs) entries input (hsucceed input List.mem_cons_self) hnul
          (hsend input List.mem_cons_self) hfresh (hsound input List.mem_cons_self)
        rcases step_cases hfault input with ⟨hsame, hnone⟩ | hselected
        · have htemp : input.tempFile? order = none := by
            rw [ClientInput.tempFile?, hnone, Option.bind_none]
          have hheard : input.heard? order initial.id info = none := by
            rw [ClientInput.heard?, hnone]
            split_ifs <;> rfl
          rw [htemp] at hclient
          rw [hsame, hheard]
          exact ⟨hfault, by simpa using hclient⟩
        · rw [hselected]
          cases hresult : BlockClient.select order input run.client with
          | ok value client => exact ⟨rfl, hselect.ok hclient hresult⟩
          | error fault client =>
              have hother := hselect.error hclient hresult
              have hgoes := hothers [] input inputs rfl hother hfault
              rw [List.nil_append, steps_cons, hselected, hresult] at hgoes
              contradiction
      have hrest := ih hstep.1 hstep.2 hnodup'
        (fun other hother => hsucceed other (List.mem_cons_of_mem _ hother))
        (fun other hother => hsend other (List.mem_cons_of_mem _ hother))
        (fun other hother => hsound other (List.mem_cons_of_mem _ hother))
        (fun first other rest hsplit =>
          hothers (input :: first) other rest (by rw [hsplit]; rfl))
      refine ⟨hrest.1, ?_⟩
      have hentries : (input :: inputs).filterMap
          (ClientInput.heard? order initial.id info) =
            (input.heard? order initial.id info).toList ++
              inputs.filterMap (ClientInput.heard? order initial.id info) := by
        cases hheard : input.heard? order initial.id info with
        | none => simp [hheard]
        | some entry => simp [hheard]
      rw [hentries, ← List.append_assoc]
      exact hrest.2

end ClientRun

/-- The client goes on, the file was renamed to an announced path after `start`, a
goodbye was queued for it, and what was queued is in the queue or was sent. -/
structure Completed (order : ByteOrder) (info : FileInfo) (start : BlockClient)
    (heard : List (FileMessage UInt8)) (final : ClientRun) : Prop where
  running : final.fault = none
  renamed : final.client.Renamed info start.trace.length heard
  answered : ∃ serverAddress, .answered info serverAddress ∈
    final.client.trace.drop start.trace.length
  posted : final.client.socket.sent.map Prod.snd ++
      final.client.messageQueue.map Message.buffer =
    (start.helloMessage order).buffer ::
      final.client.answers.map fun _ => (start.goodbyeMessage order).buffer

/-- The file was offered in full: a path, every block, and a goodbye that names the
client. -/
def Offered (count : ℕ) (heard : List (FileMessage UInt8)) : Prop :=
  (∃ path, path ≠ [] ∧ .info path ∈ heard) ∧
  (∀ number < count, .block number ∈ heard) ∧
  ∃ named, 0 < named ∧ .goodbye named ∈ heard

theorem BlockClient.answersSince_pos {info : FileInfo} {base : ℕ}
    {client : BlockClient} (hpos : 0 < client.answersSince info base) :
    ∃ serverAddress, .answered info serverAddress ∈ client.trace.drop base := by
  obtain ⟨⟨other, serverAddress⟩, hanswer, hinfo⟩ := List.countP_pos_iff.mp hpos
  obtain ⟨event, hevent, hsome⟩ := List.mem_filterMap.mp hanswer
  have hother : other = info := by simpa using hinfo
  subst hother
  refine ⟨serverAddress, ?_⟩
  cases event with
  | answered => cases hsome; exact hevent
  | created => contradiction
  | published => contradiction
  | erased => contradiction

theorem BlockClient.answersSince_of_mem {info : FileInfo} {base : ℕ}
    {client : BlockClient} {serverAddress : Address}
    (hmem : .answered info serverAddress ∈ client.trace.drop base) :
    0 < client.answersSince info base := by
  apply List.countP_pos_iff.mpr
  exact ⟨(info, serverAddress), List.mem_filterMap.mpr ⟨_, hmem, rfl⟩, by simp⟩

/-- A client that has no record of the file is where its receiver begins. -/
theorem BlockClient.Tracks.of_none {order : ByteOrder} {info : FileInfo}
    {client : BlockClient} (hnone : client.syncSet.find? info = none) :
    client.Tracks order info client.trace.length []
      (Transfer.run (info.getBlockCount order).toNat []) := by
  refine ⟨?_, ?_, le_refl _, ?_, ?_, ?_⟩
  · rw [hnone]
    exact .none
  · intro transfer hsome
    contradiction
  · rw [BlockClient.answersSince, List.drop_length]
    rfl
  · intro hpos
    contradiction
  · intro status hfind
    rw [hnone] at hfind
    contradiction

/-- A run goes on only if the socket could be opened. -/
theorem ClientRun.openError_eq_none {order : ByteOrder} {ephemeral : UInt16}
    {openError : Option String} {client : BlockClient} {inputs : List ClientInput}
    (hfault : ((start order ephemeral openError client).steps order inputs).fault = none) :
    openError = none := by
  cases openError with
  | none => rfl
  | some error =>
      have hthrown : (start order ephemeral (some error) client).fault ≠ none :=
        Option.some_ne_none _
      rw [steps_of_fault hthrown] at hfault
      exact absurd hfault hthrown

/-- A client that has followed the file has completed it exactly when the receiver has
a goodbye to answer. -/
theorem BlockClient.Following.completed_iff {order : ByteOrder} {info : FileInfo}
    {initial start : BlockClient} {pending : List Bytes}
    {entries : List (Bool × FileMessage UInt8)} {final : ClientRun}
    (hfollowing : Following order info start.trace.length initial
      [(initial.helloMessage order).buffer] pending entries final.client)
    (hrunning : final.fault = none)
    (hposted : initial.Posted order [(initial.helloMessage order).buffer] start) :
    Completed order info start (entries.map Prod.snd) final ↔
      Transfer.Answerable (info.getBlockCount order).toNat entries := by
  have hanswers := hfollowing.tracks.reported.answers
  rw [← Transfer.answered_pos_iff]
  constructor
  · intro hcompleted
    obtain ⟨serverAddress, hmem⟩ := hcompleted.answered
    have hpos := answersSince_of_mem hmem
    rwa [hanswers] at hpos
  · intro hpos
    refine ⟨hrunning, hfollowing.tracks.reported.renamed hpos, ?_, ?_⟩
    · apply answersSince_pos
      rwa [hanswers]
    · have hlast := hfollowing.posted.posted
      rw [List.singleton_append] at hlast
      unfold helloMessage goodbyeMessage at hlast ⊢
      rw [hlast, hposted.id, hposted.info]

/-- From a client without a record of the file, the transfer completes exactly when
some goodbye can be answered. -/
theorem completed_iff_answerable {order : ByteOrder} {group : UInt32} {port : UInt16}
    {pid id : UInt32} {files : FileStore Bytes} {ephemeral : UInt16}
    {openError : Option String} {before inputs : List ClientInput} {info : FileInfo}
    {initial : BlockClient} {run : ClientRun}
    (hinitial : initial = BlockClient.create order group port pid id files)
    (hrun : run = (ClientRun.start order ephemeral openError initial).steps order before)
    (hfault : run.fault = none) (hnone : run.client.syncSet.find? info = none)
    (hnul : 0 ∈ info.digest)
    (hnames : (ClientRun.tempFiles order (before ++ inputs)).Nodup)
    (hsucceed : ∀ input ∈ before ++ inputs, input.env.Succeeds)
    (hsend : ∀ input ∈ inputs, input.sendError = none)
    (hsound : ∀ input ∈ inputs, ∀ message, input.message? = some message →
      message.fileInfo? order = some info → message.Sound order)
    (hothers : ∀ first input rest, inputs = first ++ input :: rest →
      input.fileInfo? order ≠ some info → (run.steps order first).fault = none →
        (run.steps order (first ++ [input])).fault = none) :
    Completed order info run.client
        ((inputs.filterMap (ClientInput.heard? order id info)).map Prod.snd)
        (run.steps order inputs) ↔
      Transfer.Answerable (info.getBlockCount order).toNat
        (inputs.filterMap (ClientInput.heard? order id info)) := by
  subst hinitial hrun
  obtain rfl := ClientRun.openError_eq_none hfault
  let initial := BlockClient.create order group port pid id files
  let run := (ClientRun.start order ephemeral none initial).steps order before
  have hposted : initial.Posted order [(initial.helloMessage order).buffer] run.client :=
    ClientRun.steps_keep BlockClient.select_posted
      (BlockClient.start_posted_hello group port pid id files ephemeral) before
  have hsettled : run.client.Settled order :=
    ClientRun.steps_settled rfl
      (fun input hmem => hsucceed input (List.mem_append_left _ hmem)) hfault
  have htemps : Temps (ClientRun.tempFiles order inputs) run.client := by
    refine ClientRun.steps_temps hnames (fun _ => ?_) hfault
    constructor
    · intro other status hfind
      contradiction
    · intro other status hfind
      contradiction
    · intro other status second status' hfind
      contradiction
  have hnodup : (ClientRun.tempFiles order inputs).Nodup := by
    rw [ClientRun.tempFiles, List.filterMap_append] at hnames
    exact (List.nodup_append.mp hnames).2.1
  obtain ⟨hrunning, hfinal⟩ := @ClientRun.steps_following order info
    run.client.trace.length initial [(initial.helloMessage order).buffer] run [] inputs
    hfault ⟨htemps, hsettled, hposted, .of_none hnone⟩ hnul hnodup
    (fun input hmem => hsucceed input (List.mem_append_right _ hmem)) hsend hsound hothers
  exact hfinal.completed_iff hrunning hposted

/-- A wait that ends with the message, and the name a record would be made with. -/
def namedInput (tmpnam : UInt8) (message : Message) : ClientInput where
  ready := .ok ⟨true, false⟩
  arrival := .ok (⟨0, 0⟩, message.buffer)
  env := Environment.plain [tmpnam] false
  sendError := none

/-- A path, the only block and a goodbye for a file of three bytes, as they arrive. -/
def offeredInfo : Message :=
  Message.received receiveReserve
    (Message.withText .little 9 MessageType.info.code sampleFile [97]).buffer

def offeredBlock : Message :=
  Message.received receiveReserve sampleBlock.buffer

def offeredGoodbye : Message :=
  Message.received receiveReserve
    (Message.withText .little 9 MessageType.sgoodbye.code sampleFile
      (ByteOrder.little.store32 5)).buffer

/-- The file is offered, and its goodbye comes last. -/
def timelyInputs : List ClientInput :=
  [namedInput 116 offeredInfo, namedInput 117 offeredBlock,
    namedInput 118 offeredGoodbye]

/-- The same messages, the goodbye first. -/
def earlyInputs : List ClientInput :=
  [namedInput 118 offeredGoodbye, namedInput 116 offeredInfo,
    namedInput 117 offeredBlock]

def sampleStart : ClientRun :=
  ClientRun.start .little 0 none (BlockClient.create .little 0 0 7 5 FileStore.empty)

theorem offeredInfo_sound : offeredInfo.Sound .little := by
  have hread : offeredInfo.getText .little = .ok [97] := by decide +kernel
  refine ⟨⟨⟨by decide +kernel, by decide +kernel, by decide +kernel,
    by decide +kernel⟩, by decide +kernel⟩, ?_, ?_, ?_⟩
  · intro _ text htext hnil
    rw [hread] at htext
    cases htext
    exact absurd hnil (by decide)
  · exact fun htype => absurd htype (by decide +kernel)
  · exact fun htype => absurd htype (by decide +kernel)

theorem offeredBlock_sound : offeredBlock.Sound .little := by
  have hread : (offeredBlock.getMetadata .little BlockInfo).toOption.map (fun block =>
      (block.getBlock .little, block.fileInfo.getBlockCount .little)) = some (0, 1) := by
    decide +kernel
  refine ⟨⟨⟨by decide +kernel, by decide +kernel, by decide +kernel,
    by decide +kernel⟩, by decide +kernel⟩, ?_, ?_, ?_⟩
  · exact fun htype => absurd htype (by decide +kernel)
  · intro _ block hblock
    rw [hblock, Except.toOption, Option.map_some, Option.some_inj] at hread
    obtain ⟨hnumber, hcount⟩ := Prod.mk.inj hread
    rw [hnumber, hcount]
    decide
  · exact fun htype => absurd htype (by decide +kernel)

theorem offeredGoodbye_sound : offeredGoodbye.Sound .little := by
  refine ⟨⟨⟨by decide +kernel, by decide +kernel, by decide +kernel,
    by decide +kernel⟩, by decide +kernel⟩, ?_, ?_, ?_⟩
  · exact fun htype => absurd htype (by decide +kernel)
  · exact fun htype => absurd htype (by decide +kernel)
  · exact fun _ => by decide +kernel

theorem timelyInputs_sound : ∀ input ∈ timelyInputs, ∀ message,
    input.message? = some message → message.Sound .little := by
  intro input hinput message hmessage
  simp only [timelyInputs, List.mem_cons, List.not_mem_nil, or_false] at hinput
  rcases hinput with rfl | rfl | rfl
  · have hsame : (namedInput 116 offeredInfo).message? = some offeredInfo := by
      decide +kernel
    rw [hsame] at hmessage
    cases hmessage
    exact offeredInfo_sound
  · have hsame : (namedInput 117 offeredBlock).message? = some offeredBlock := by
      decide +kernel
    rw [hsame] at hmessage
    cases hmessage
    exact offeredBlock_sound
  · have hsame : (namedInput 118 offeredGoodbye).message? = some offeredGoodbye := by
      decide +kernel
    rw [hsame] at hmessage
    cases hmessage
    exact offeredGoodbye_sound

theorem timelyInputs_about : ∀ input ∈ timelyInputs,
    input.fileInfo? .little = some sampleFile := by
  decide +kernel

theorem timelyInputs_completed :
    Completed .little sampleFile sampleStart.client
      ((timelyInputs.filterMap (ClientInput.heard? .little 5 sampleFile)).map Prod.snd)
      (sampleStart.steps .little timelyInputs) := by
  refine (@completed_iff_answerable .little 0 0 7 5 FileStore.empty 0 none []
    timelyInputs sampleFile _ sampleStart rfl rfl rfl rfl (by decide) (by decide +kernel)
    (by decide +kernel) (by decide +kernel)
    (fun input hmem message hmessage _ => timelyInputs_sound input hmem message hmessage)
    ?_).mpr ?_
  · intro first input rest hsplit hother
    exact absurd (timelyInputs_about input (by simp [hsplit])) hother
  · have hheard : timelyInputs.filterMap (ClientInput.heard? .little 5 sampleFile) =
        [(false, .info [97]), (false, .block 0), (false, .goodbye 1)] := by
      decide +kernel
    have hcount : (sampleFile.getBlockCount .little).toNat = 1 := by decide
    rw [hheard, hcount]
    exact ⟨[], [(false, .info [97]), (false, .block 0)], false, 1, [], rfl, .nil, rfl,
      by decide, by decide⟩

/-- A goodbye that comes before the blocks is not answered later. -/
theorem earlyInputs_not_completed :
    ¬ ∀ inputs : List ClientInput, (∀ input ∈ inputs, input.env.Succeeds) →
      (ClientRun.tempFiles .little inputs).Nodup →
      (∀ input ∈ inputs, ∀ message, input.message? = some message →
        message.Sound .little) →
      Offered (sampleFile.getBlockCount .little).toNat
        ((inputs.filterMap (ClientInput.heard? .little 5 sampleFile)).map Prod.snd) →
      Completed .little sampleFile sampleStart.client
        ((inputs.filterMap (ClientInput.heard? .little 5 sampleFile)).map Prod.snd)
        (sampleStart.steps .little inputs) := by
  intro hall
  have hheard : (earlyInputs.filterMap (ClientInput.heard? .little 5 sampleFile)).map
      Prod.snd = [.goodbye 1, .info [97], .block 0] := by
    decide +kernel
  have hoffered : Offered (sampleFile.getBlockCount .little).toNat
      ((earlyInputs.filterMap (ClientInput.heard? .little 5 sampleFile)).map
        Prod.snd) := by
    have hcount : (sampleFile.getBlockCount .little).toNat = 1 := by decide
    rw [hheard, hcount]
    exact ⟨⟨[97], by decide, by decide⟩, by decide, 1, by decide, by decide⟩
  have hcompleted := hall earlyInputs (by decide +kernel) (by decide +kernel)
    (fun input hmem => timelyInputs_sound input (by
      simp only [earlyInputs, timelyInputs, List.mem_cons] at hmem ⊢
      tauto)) hoffered
  obtain ⟨serverAddress, hanswered⟩ := hcompleted.answered
  have hpos := BlockClient.answersSince_of_mem hanswered
  have hzero : (sampleStart.steps .little earlyInputs).client.answersSince sampleFile
      sampleStart.client.trace.length = 0 := by
    decide +kernel
  rw [hzero] at hpos
  contradiction

end Multisync
