import Multisync.BlockAccounting
import Multisync.Provenance
import Mathlib.Tactic

/-!
# The life of a record

The events about a file are those of one record after another.  A record is made with a
temporary file; while it is there, files with all their blocks are put in place and
goodbyes are answered; and nothing is noted about the file after it is erased until the
next record is made.
-/

namespace Multisync

open ByteLayout Effects FileStore

/-- What an event does to the temporary file of the record, if there is a record, for a
file of so many blocks. -/
def ClientEvent.next (count : ℕ) : Option Bytes → ClientEvent → Option (Option Bytes)
  | none, .created _ temp => some (some temp)
  | some temp, .published _ publication =>
      if publication.path ≠ [] ∧ publication.blockArray = List.replicate count true then
        some (some temp)
      else none
  | some temp, .answered _ _ => some (some temp)
  | some _, .erased _ => some none
  | _, _ => none

/-- What the events about a file have come to, unless they are out of order. -/
def lifeOf (order : ByteOrder) (info : FileInfo) (trace : List ClientEvent) :
    Option (Option Bytes) :=
  (trace.filter fun event => event.info = info).foldlM
    (ClientEvent.next (info.getBlockCount order).toNat) none

theorem lifeOf_append_of_ne (order : ByteOrder) {info other : FileInfo} (hne : other ≠ info)
    (trace : List ClientEvent) {events : List ClientEvent}
    (habout : ∀ event ∈ events, event.info = info) :
    lifeOf order other (trace ++ events) = lifeOf order other trace := by
  have hnone : (events.filter fun event => event.info = other) = [] := by
    rw [List.filter_eq_nil_iff]
    intro event hevent
    simp [habout event hevent, hne.symm]
  rw [lifeOf, lifeOf, List.filter_append, hnone, List.append_nil]

theorem lifeOf_append {order : ByteOrder} {info : FileInfo} {trace events : List ClientEvent}
    {life : Option Bytes} (hlife : lifeOf order info trace = some life)
    (habout : ∀ event ∈ events, event.info = info) :
    lifeOf order info (trace ++ events) =
      events.foldlM (ClientEvent.next (info.getBlockCount order).toNat) life := by
  have hall : (events.filter fun event => event.info = info) = events := by
    rw [List.filter_eq_self]
    intro event hevent
    simp [habout event hevent]
  rw [lifeOf] at hlife
  rw [lifeOf, List.filter_append, hall, List.foldlM_append, hlife]
  rfl

namespace BlockClient

variable {order : ByteOrder} {env : Environment} {message : Message} {address : Address}
  {info : FileInfo} {client : BlockClient} {status : SyncStatus}

theorem Counted.created {files : FileStore Bytes} (hclient : client.Counted order)
    (hnone : client.syncSet.find? info = none)
    (hcreate : SyncStatus.create order env info address client.files = .ok (status, files)) :
    (client.created info status files).Counted order := by
  refine OrderedMap.forall_insert hnone (fun other found _ hfound => hclient other found hfound) ?_
  obtain ⟨_, rfl, _⟩ := SyncStatus.create_eq_ok hcreate
  exact ⟨List.length_replicate, List.count_replicate_self.symm⟩

theorem Counted.putStatus {state : StatusState} (hclient : client.Counted order)
    (hfind : client.syncSet.find? info = some status)
    (hcounted : state.status.Counted (info.getBlockCount order).toNat) :
    (client.putStatus info state).Counted order :=
  OrderedMap.forall_replace hfind (fun other found _ hfound => hclient other found hfound) hcounted

theorem Counted.erased (hclient : client.Counted order) (info : FileInfo) :
    (client.erased info).Counted order :=
  OrderedMap.forall_erase fun other found _ hfound => hclient other found hfound

/-! ## The order of the events -/

/-- The events about each file have come to the record that it has. -/
structure Living (order : ByteOrder) (client : BlockClient) : Prop where
  counted : client.Counted order
  life : ∀ info, lifeOf order info client.trace =
    some ((client.syncSet.find? info).map SyncStatus.temp)

/-- Events about one file that have come to its record. -/
theorem Living.noted (info : FileInfo) (events : List ClientEvent) {client' : BlockClient}
    (hclient : client.Living order) (hcounted : client'.Counted order)
    (htrace : client'.trace = client.trace ++ events)
    (habout : ∀ event ∈ events, event.info = info)
    (hothers : ∀ other, other ≠ info →
      client'.syncSet.find? other = client.syncSet.find? other)
    (hlife : events.foldlM (ClientEvent.next (info.getBlockCount order).toNat)
      ((client.syncSet.find? info).map SyncStatus.temp) =
        some ((client'.syncSet.find? info).map SyncStatus.temp)) :
    client'.Living order := by
  refine ⟨hcounted, fun other => ?_⟩
  by_cases hother : other = info
  · rw [hother, htrace, lifeOf_append (hclient.life info) habout]
    exact hlife
  · rw [htrace, lifeOf_append_of_ne order hother client.trace habout, hclient.life other,
      hothers other hother]

/-- Storing a record back with what was put in place. -/
theorem Living.putStatus {state : StatusState} (hclient : client.Living order)
    (hfind : client.syncSet.find? info = some status)
    (hcounted : state.status.Counted (info.getBlockCount order).toNat)
    (htemp : state.status.temp = status.temp)
    (hpublications : ∀ publication ∈ state.publications, publication.path ≠ [] ∧
      publication.blockArray = List.replicate (info.getBlockCount order).toNat true) :
    (client.putStatus info state).Living order := by
  apply Living.noted info (state.publications.map (ClientEvent.published info)) hclient _ rfl
  · simp [ClientEvent.info]
  · exact fun other hother => OrderedMap.find?_replace_ne hother _ _
  · rw [find?_putStatus_self hfind, hfind, Option.map_some, Option.map_some, htemp]
    generalize state.publications = publications at hpublications
    induction publications with
    | nil => rfl
    | cons publication publications ih =>
        have hfirst := hpublications publication List.mem_cons_self
        rw [List.map_cons, List.foldlM_cons, ClientEvent.next, if_pos hfirst]
        exact ih fun other hother => hpublications other (List.mem_cons_of_mem _ hother)
  · exact hclient.counted.putStatus hfind hcounted

theorem Living.publish (hclient : client.Living order)
    (hfind : client.syncSet.find? info = some status) (hcomplete : status.Complete)
    (outcome : PublishOutcome) : (client.publish outcome info status).Living order := by
  have hcounted := hclient.counted info status hfind
  have hmarked : status.blockArray =
      List.replicate (info.getBlockCount order).toNat true := by
    have hnone : false ∉ status.blockArray := by
      rw [← List.count_eq_zero, ← hcounted.remaining]
      exact hcomplete.1
    rw [List.eq_replicate_iff]
    refine ⟨hcounted.length, fun mark hmem => ?_⟩
    by_contra hfalse
    rw [Bool.not_eq_true] at hfalse
    exact hnone (hfalse ▸ hmem)
  apply hclient.putStatus hfind
  · constructor
    · simpa [SyncStatus.published] using hcounted.length
    · simpa [SyncStatus.published] using hcounted.remaining
  · simp [SyncStatus.published]
  · intro publication hmem
    unfold SyncStatus.published SyncStatus.renameTemp at hmem
    split_ifs at hmem
    · split at hmem
      · simp at hmem
      · rw [List.nil_append, List.mem_singleton] at hmem
        rw [hmem]
        exact ⟨hcomplete.2, hmarked⟩
    · simp at hmem

end BlockClient

namespace BlockClient

/-- The name is that of no file, or of a file that was put in place. -/
def Cleared (client : BlockClient) (name : Bytes) : Prop :=
  client.files.file? name = none ∨
    ∃ info publication, ClientEvent.published info publication ∈ client.trace ∧
      cstr publication.path = name

/-- A record holds this temporary file. -/
def Holds (client : BlockClient) (temp : Bytes) : Prop :=
  ∃ info status, client.syncSet.find? info = some status ∧ status.temp = temp

/-- The temporary files are in use or cleared; names and paths are as in C. -/
structure Tidy (client : BlockClient) : Prop where
  temps : ∀ info temp, ClientEvent.created info temp ∈ client.trace →
    client.Holds temp ∨ client.Cleared temp
  cstr_temp : ∀ info status, client.syncSet.find? info = some status →
    cstr status.temp = status.temp
  path : ∀ info status, client.syncSet.find? info = some status →
    cstr status.path = [] → status.path = []

variable {order : ByteOrder} {env : Environment} {message : Message} {address : Address}
  {info : FileInfo} {client : BlockClient} {status : SyncStatus}

theorem Holds.replace {client' : BlockClient} {status' : SyncStatus} {temp : Bytes}
    (hclient : client.Holds temp) (hfind : client.syncSet.find? info = some status)
    (hsame : status'.temp = status.temp)
    (hsyncSet : client'.syncSet = client.syncSet.replace info status') :
    client'.Holds temp := by
  obtain ⟨other, found, hfound, htemp⟩ := hclient
  by_cases hother : other = info
  · rw [hother, hfind] at hfound
    cases hfound
    refine ⟨info, status', ?_, hsame.trans htemp⟩
    rw [hsyncSet]
    exact OrderedMap.find?_replace_self status' hfind
  · refine ⟨other, found, ?_, htemp⟩
    rw [hsyncSet, OrderedMap.find?_replace_ne hother]
    exact hfound

theorem Tidy.created {files : FileStore Bytes} (hclient : client.Tidy)
    (hnone : client.syncSet.find? info = none)
    (hcreate : SyncStatus.create order env info address client.files = .ok (status, files)) :
    (client.created info status files).Tidy := by
  obtain ⟨_, hstatus, hfiles⟩ := SyncStatus.create_eq_ok hcreate
  have htemp : status.temp = tempName env.tmpnam info := by
    rw [hstatus]
  have hnew : (client.created info status files).Holds status.temp :=
    ⟨info, status, OrderedMap.find?_insert_self status hnone, rfl⟩
  constructor
  · intro other temp hevent
    by_cases hsame : temp = status.temp
    · rw [hsame]
      exact Or.inl hnew
    rcases List.mem_append.mp hevent with hold | hlast
    · rcases hclient.temps other temp hold with
        ⟨holder, found, hfind, hfound⟩ | hfile | ⟨file, publication, hmem, hpath⟩
      · refine Or.inl ⟨holder, found, ?_, hfound⟩
        have hholder : holder ≠ info := by
          rintro rfl
          rw [hnone] at hfind
          contradiction
        rwa [BlockClient.created, OrderedMap.find?_insert_ne hholder]
      · refine Or.inr (Or.inl ?_)
        rw [BlockClient.created, hfiles, OutStream.openFile_file?_ne (htemp ▸ hsame)]
        exact hfile
      · exact Or.inr (Or.inr ⟨file, publication, List.mem_append_left _ hmem, hpath⟩)
    · rw [List.mem_singleton] at hlast
      cases hlast
      contradiction
  · refine OrderedMap.forall_insert hnone
      (fun other found _ hfound => hclient.cstr_temp other found hfound) ?_
    rw [htemp, cstr_tempName]
  · refine OrderedMap.forall_insert hnone
      (fun other found _ hfound => hclient.path other found hfound) fun _ => ?_
    rw [hstatus]

/-- A record that is stored back with its temporary file. -/
theorem Tidy.replace {client' : BlockClient} {status' : SyncStatus}
    {events : List ClientEvent} (hclient : client.Tidy)
    (hfind : client.syncSet.find? info = some status)
    (hsyncSet : client'.syncSet = client.syncSet.replace info status')
    (htrace : client'.trace = client.trace ++ events)
    (hevents : ∀ other temp, ClientEvent.created other temp ∉ events)
    (hcleared : ∀ name, client.Cleared name → client'.Cleared name)
    (htemp : status'.temp = status.temp)
    (hpath : cstr status'.path = [] → status'.path = []) : client'.Tidy := by
  constructor
  · intro other temp hevent
    rw [htrace] at hevent
    have hold := (List.mem_append.mp hevent).resolve_right (hevents other temp)
    rcases hclient.temps other temp hold with hholds | hgone
    · exact Or.inl (hholds.replace hfind htemp hsyncSet)
    · exact Or.inr (hcleared temp hgone)
  · rw [hsyncSet]
    refine OrderedMap.forall_replace hfind
      (fun other found _ hfound => hclient.cstr_temp other found hfound) ?_
    rw [htemp]
    exact hclient.cstr_temp info status hfind
  · rw [hsyncSet]
    exact OrderedMap.forall_replace hfind
      (fun other found _ hfound => hclient.path other found hfound) hpath

/-- What was cleared stays cleared when only what is published gets a name. -/
theorem Cleared.published {outcome : PublishOutcome} {name : Bytes}
    (hcleared : client.Cleared name) :
    (client.publish outcome info status).Cleared name := by
  rcases hcleared with hnone | ⟨other, publication, hmem, hpath⟩
  · rcases SyncStatus.published_files outcome ⟨status, client.files, []⟩ with
      ⟨hsame, _⟩ | ⟨publication, hrenamed, hnoted, hpath⟩
    · refine Or.inl ?_
      rw [publish, putStatus, hsame]
      exact hnone
    · by_cases hname : name = cstr status.path
      · refine Or.inr ⟨info, publication, ?_, ?_⟩
        · rw [publish_trace, hnoted]
          simp
        · rw [hname, hpath]
      · refine Or.inl ?_
        rw [publish, putStatus, hrenamed]
        by_cases hold : name = cstr status.temp
        · rw [hold] at hname ⊢
          rw [FileStore.file?, FileStore.rename_directory_old _ hname, Option.map_none]
        · rw [FileStore.file?_rename_ne _ hold hname]
          exact hnone
  · exact Or.inr ⟨other, publication, List.mem_append_left _ hmem, hpath⟩

theorem Tidy.published (hclient : client.Tidy)
    (hfind : client.syncSet.find? info = some status) (outcome : PublishOutcome) :
    (client.publish outcome info status).Tidy := by
  apply hclient.replace hfind rfl (publish_trace outcome info status client)
  · simp
  · exact fun _ hcleared => hcleared.published
  · simp [SyncStatus.published]
  · simpa [SyncStatus.published] using hclient.path info status hfind

/-- The file of a complete record is moved, if there is one. -/
theorem Tidy.cleared {outcome : PublishOutcome} (hclient : client.Tidy)
    (hfind : client.syncSet.find? info = some status) (hcomplete : status.Complete)
    (hrenamed : outcome.renamed = true) :
    (client.publish outcome info status).Cleared status.temp := by
  have hcstr := hclient.cstr_temp info status hfind
  have hrename : outcome.renamed = true ∧ cstr status.path ≠ [] :=
    ⟨hrenamed, fun hnil => hcomplete.2 (hclient.path info status hfind hnil)⟩
  by_cases hne : status.temp = cstr status.path
  · cases hfile : client.files.file? status.temp with
    | none => exact Cleared.published (Or.inl hfile)
    | some content =>
        refine Or.inr ⟨info, ⟨status.path, status.blockArray, content⟩, ?_, hne.symm⟩
        rw [publish_trace, SyncStatus.published_publications outcome hcstr, if_pos hrename,
          hfile]
        simp
  · refine Or.inl ?_
    rw [publish, putStatus, SyncStatus.published_file? outcome hcstr hne, if_pos hrename]

/-- Erasing a record whose file was moved. -/
theorem Tidy.erased (hclient : client.Tidy)
    (hfind : client.syncSet.find? info = some status) (hcleared : client.Cleared status.temp) :
    (client.erased info).Tidy := by
  have hkept : ∀ name, client.Cleared name → (client.erased info).Cleared name := by
    intro name hname
    rcases hname with hnone | ⟨other, publication, hmem, hpath⟩
    · exact Or.inl hnone
    · exact Or.inr ⟨other, publication, List.mem_append_left _ hmem, hpath⟩
  constructor
  · intro other temp hevent
    have hold : ClientEvent.created other temp ∈ client.trace := by
      simpa [BlockClient.erased] using hevent
    rcases hclient.temps other temp hold with ⟨holder, found, hfound, htemp⟩ | hgone
    · by_cases hholder : holder = info
      · rw [hholder, hfind] at hfound
        cases hfound
        exact Or.inr (hkept temp (htemp ▸ hcleared))
      · refine Or.inl ⟨holder, found, ?_, htemp⟩
        rwa [BlockClient.erased, OrderedMap.find?_erase_ne hholder]
    · exact Or.inr (hkept temp hgone)
  · exact OrderedMap.forall_erase fun other found _ hfound =>
      hclient.cstr_temp other found hfound
  · exact OrderedMap.forall_erase fun other found _ hfound => hclient.path other found hfound

theorem Tidy.worked {state : StatusState} (hclient : client.Tidy)
    (hfind : client.syncSet.find? info = some status)
    (hannounced : ∀ path, message.announced? order = some path → cstr path = [] → path = [])
    (hworks : Works order env message ⟨status, client.files, []⟩ state) :
    (client.putStatus info state).Tidy := by
  apply hclient.replace hfind rfl rfl
  · simp
  · rintro name (hnone | ⟨other, publication, hmem, hname⟩)
    · refine Or.inl ?_
      rw [putStatus]
      rcases hworks.writes with hsame | ⟨_, _, file, _, _, _, _, _, hwrites⟩
      · rw [hsame]
        exact hnone
      · rw [FileStore.file?, Option.map_eq_none_iff] at hnone ⊢
        rw [hwrites, FileStore.write_directory]
        exact hnone
    · exact Or.inr ⟨other, publication, List.mem_append_left _ hmem, hname⟩
  · exact hworks.temp
  · rw [hworks.path]
    cases hpath : message.announced? order with
    | none => exact hclient.path info status hfind
    | some path => exact hannounced path hpath

theorem handle_tidy (hfirst : env.first.renamed = true) (hsecond : env.second.renamed = true)
    (hannounced : ∀ path, message.announced? order = some path → cstr path = [] → path = []) :
    Keeps Tidy Tidy (handle order env message address) := by
  apply handle_keeps_of_stages
  · exact fun info client status files hclient hnone hcreate => hclient.created hnone hcreate
  · exact fun info client status state _ hclient hfind hworks =>
      hclient.worked hfind hannounced hworks
  · exact fun info client status outcome hclient hfind _ => hclient.published hfind outcome
  · intro info client status n hclient hfind
    apply hclient.replace hfind rfl rfl
    · intro other temp hmem
      have heq := List.eq_of_mem_replicate hmem
      contradiction
    · rintro name (hnone | ⟨other, publication, hmem, hname⟩)
      · exact Or.inl hnone
      · exact Or.inr ⟨other, publication, List.mem_append_left _ hmem, hname⟩
    · rfl
    · exact hclient.path info status hfind
  · intro info client status outcome hclient hfind hcomplete houtcome
    have hrenamed : outcome.renamed = true := by
      rcases houtcome with rfl | rfl
      · exact hfirst
      · exact hsecond
    apply (hclient.published hfind outcome).erased (find?_publish hfind outcome)
    exact hclient.cleared hfind hcomplete hrenamed

end BlockClient

/-- Unless renaming fails or a path begins with a NUL, the name of a temporary file that the
client has made is that of a record, or of no file, or of a file that was put there. -/
theorem ClientRun.tidy {order : ByteOrder} {group : UInt32} {port ephemeral : UInt16}
    {pid id : UInt32} {openError : Option String} {files : FileStore Bytes}
    {inputs : List ClientInput}
    (hrenames : ∀ input ∈ inputs,
      input.env.first.renamed = true ∧ input.env.second.renamed = true)
    (hannounced : ∀ input ∈ inputs, ∀ message, input.message? = some message →
      ∀ path, message.announced? order = some path → cstr path = [] → path = [])
    {run : ClientRun}
    (hrun : run = (ClientRun.start order ephemeral openError (BlockClient.create order group
      port pid id files)).steps order inputs)
    {info : FileInfo} {temp : Bytes}
    (hcreated : ClientEvent.created info temp ∈ run.client.trace) :
    run.client.Holds temp ∨ run.client.Cleared temp := by
  have htidy : run.client.Tidy := by
    rw [hrun]
    apply steps_keep_of_mem
    · intro input hinput
      obtain ⟨hfirst, hsecond⟩ := hrenames input hinput
      apply BlockClient.select_keeps_of_message
      · exact fun _ _ _ hclient => ⟨hclient.temps, hclient.cstr_temp, hclient.path⟩
      · intro message sender hmessage
        exact BlockClient.handle_tidy hfirst hsecond (hannounced input hinput message hmessage)
    · unfold ClientRun.start
      rw [client_ofResult]
      have hkeeps := @BlockClient.start_keeps order BlockClient.Tidy ephemeral openError
        fun _ _ _ hclient => ⟨hclient.temps, hclient.cstr_temp, hclient.path⟩
      apply hkeeps.endState
      constructor
      · intro info temp hevent
        simp [BlockClient.create] at hevent
      · intro info status hfind
        rw [BlockClient.create, OrderedMap.find?_empty] at hfind
        contradiction
      · intro info status hfind
        rw [BlockClient.create, OrderedMap.find?_empty] at hfind
        contradiction
  exact htidy.temps info temp hcreated

theorem besideRun_tidy : besideRun.client.Holds (tempName [116] sampleFile) ∨
    besideRun.client.Cleared (tempName [116] sampleFile) := by
  have hpaths : ∀ input ∈ timelyInputs,
      ∀ path ∈ input.message?.bind (Message.announced? .little), cstr path = [] → path = [] := by
    decide +kernel
  apply @ClientRun.tidy .little 0 0 0 7 5 none otherFiles timelyInputs _ _ besideRun rfl
    sampleFile
  · decide +kernel
  · decide +kernel
  · intro input hinput message hmessage path hpath
    apply hpaths input hinput path
    rw [hmessage]
    exact hpath

end Multisync
