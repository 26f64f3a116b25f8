import Multisync.Agreement
import Multisync.FileFootprint
import Multisync.RepeatedGoodbyes
import Mathlib.Tactic

/-!
# What a client writes to

Whatever messages arrive and whatever fails, a client changes what is under a name only
if the name is that of a temporary file it has made, or a path that it has
put a file under.
-/

namespace Multisync

open ByteLayout Effects FileStore

/-- The name of a file that the event changes. -/
def ClientEvent.name? : ClientEvent → Option Bytes
  | .created _ temp => some temp
  | .published _ publication => some (cstr publication.path)
  | _ => none

/-- The names that these events have changed. -/
def touched (trace : List ClientEvent) : Set Bytes :=
  {name | ∃ event ∈ trace, event.name? = some name}

theorem touched_subset_append (trace events : List ClientEvent) :
    touched trace ⊆ touched (trace ++ events) := by
  intro name ⟨event, hevent, hname⟩
  exact ⟨event, List.mem_append_left _ hevent, hname⟩

namespace SyncStatus

/-- A block is written where it goes, as far as the file takes it. -/
theorem wrote_beginning (env : Environment) {block : ℕ} (hlt : block < 2 ^ 32)
    (payload : Bytes) (state : StatusState) :
    (wrote env block payload state).files = state.files ∨
      ∃ file n, state.status.output.file = some file ∧
        (wrote env block payload state).files =
          state.files.write file (blockSize * block) (payload.take n) := by
  have hposition : blockSize * block % 2 ^ 64 = blockSize * block := by
    apply Nat.mod_eq_of_lt
    rw [blockSize]
    omega
  unfold wrote
  rw [hposition]
  by_cases hclosed : state.status.output.failed = true ∨ state.status.output.file = none
  · rw [OutStream.seekp_write_closed hclosed]
    exact Or.inl rfl
  · obtain ⟨hgood, hopen⟩ := not_or.mp hclosed
    obtain ⟨file, hfile⟩ := Option.ne_none_iff_exists'.mp hopen
    rw [OutStream.seekp_write_limit hfile (Bool.eq_false_iff.mpr hgood)]
    exact Or.inr ⟨file, _, hfile, rfl⟩

/-- A file that takes its place is noted. -/
theorem published_files (outcome : PublishOutcome) (state : StatusState) :
    (published outcome state).files = state.files ∧
        (published outcome state).publications = state.publications ∨
      ∃ publication, (published outcome state).files =
          state.files.rename (cstr state.status.temp) (cstr state.status.path) ∧
        (published outcome state).publications = state.publications ++ [publication] ∧
          publication.path = state.status.path := by
  unfold published renameTemp
  split
  · split
    · exact Or.inl ⟨rfl, rfl⟩
    · exact Or.inr ⟨_, rfl, rfl, rfl⟩
  · exact Or.inl ⟨rfl, rfl⟩

end SyncStatus

namespace BlockClient

section Stages

variable {order : ByteOrder} {env : Environment} {message : Message} {address : Address}
  {P : BlockClient → Prop}

/-- What the steps of a handler keep, one after the other, the handler keeps. -/
theorem handle_keeps_of_stages
    (hmade : ∀ info client status files, P client → client.syncSet.find? info = none →
      SyncStatus.create order env info address client.files = .ok (status, files) →
        P (client.created info status files))
    (hworked : ∀ info client status state, message.fileInfo? order = some info → P client →
      client.syncSet.find? info = some status →
      Works order env message ⟨status, client.files, []⟩ state →
        P (client.putStatus info state))
    (hpublished : ∀ info client status outcome, P client →
      client.syncSet.find? info = some status → status.Complete →
        P (client.publish outcome info status))
    (hacknowledged : ∀ info client status n, P client →
      client.syncSet.find? info = some status → P (client.acknowledge order info status n))
    (herased : ∀ info client status outcome, P client →
      client.syncSet.find? info = some status → status.Complete →
      outcome = env.first ∨ outcome = env.second →
        P ((client.publish outcome info status).erased info)) :
    Keeps P P (handle order env message address) := by
  have hanswered : ∀ info client status n, P client →
      client.syncSet.find? info = some status → status.Complete →
        P ((client.publish env.first info status).acknowledge order info
          (status.closed env.first) n) := by
    intro info client status n hclient hfind hcomplete
    apply hacknowledged info _ _ n (hpublished info client status env.first hclient hfind
      hcomplete)
    exact find?_publish hfind env.first
  apply handle_triple_of_stages fun _ hclient => hclient
  · exact fun info client status files _ hclient hnone hcreate =>
      hmade info client status files hclient hnone hcreate
  · exact hworked
  · intro info client status final _ hclient hfind hconcluded
    cases hconcluded with
    | idle _ => exact hclient
    | finished _ hfinished =>
        exact herased info client status env.first hclient hfind hfinished.2 (Or.inl rfl)
    | answered _ hcomplete n _ => exact hanswered info client status n hclient hfind hcomplete
    | ended _ hcomplete n _ _ =>
        apply herased info _ _ env.second (hanswered info client status n hclient hfind
          hcomplete) (find?_acknowledge (find?_publish hfind env.first) n) hcomplete
        exact Or.inr rfl

/-- Bringing a record up to date writes nothing, or a beginning of what the message brings
where its block goes. -/
theorem Works.writes {state state' : StatusState}
    (hworks : Works order env message state state') :
    state'.files = state.files ∨
      ∃ block payload file n, message.getType order = MessageType.block.code ∧
        message.getMetadata order BlockInfo = .ok block ∧
        message.getText order = .ok payload ∧ state.status.output.file = some file ∧
        state'.files = state.files.write file (blockSize * (block.getBlock order).toNat)
          (payload.take n) := by
  cases hworks with
  | announced _ _ => exact Or.inl rfl
  | @wrote block htype hblock =>
      rw [SyncStatus.writeBlock_apply]
      split
      · exact Or.inl rfl
      · exact Or.inl rfl
      · split
        · exact Or.inl rfl
        · next payload htext =>
            rcases SyncStatus.wrote_beginning env (block.getBlock order).toNat_lt payload
              state with hsame | ⟨file, n, hfile, hwrites⟩
            · refine Or.inl ?_
              split
              · exact hsame
              · exact hsame
            · refine Or.inr ⟨block, payload, file, n, htype, hblock, htext, hfile, ?_⟩
              split
              · exact hwrites
              · exact hwrites

/-- Neither a path nor a block gives a record another temporary file. -/
theorem Works.temp {state state' : StatusState}
    (hworks : Works order env message state state') :
    state'.status.temp = state.status.temp := by
  cases hworks with
  | announced _ _ => rfl
  | wrote htype hblock =>
      exact ((RecordProgram.writeBlock htype hblock).recordStep state).1.temp

end Stages

/-- Only what the events have touched has changed; the temporary files are among it, and
what is held open has no other name. -/
structure Contained (initial : FileStore Bytes) (client : BlockClient) : Prop where
  changed : ChangedWithin (touched client.trace) initial client.files
  temp : ∀ info status, client.syncSet.find? info = some status →
    cstr status.temp ∈ touched client.trace
  owned : ∀ info status, client.syncSet.find? info = some status →
    ∀ file, status.output.file = some file → Owned (touched client.trace) client.files file

variable {order : ByteOrder} {env : Environment} {message : Message} {address : Address}
  {initial : FileStore Bytes} {info : FileInfo} {client : BlockClient} {status : SyncStatus}

theorem Contained.created {files : FileStore Bytes} (hclient : client.Contained initial)
    (hnone : client.syncSet.find? info = none)
    (hcreate : SyncStatus.create order env info address client.files = .ok (status, files)) :
    (client.created info status files).Contained initial := by
  obtain ⟨_, hstatus, rfl⟩ := SyncStatus.create_eq_ok hcreate
  have htemp : status.temp = tempName env.tmpnam info := by
    rw [hstatus]
  have hsubset := touched_subset_append client.trace [.created info status.temp]
  have hmem : tempName env.tmpnam info ∈
      touched (client.trace ++ [.created info status.temp]) :=
    ⟨.created info status.temp, List.mem_append_right _ List.mem_cons_self,
      congrArg some htemp⟩
  constructor
  · exact (hclient.changed.mono hsubset).trans (OutStream.changedWithin_openFile hmem _)
  · refine OrderedMap.forall_insert hnone (fun other found _ hfind => ?_) ?_
    · exact hsubset (hclient.temp other found hfind)
    · rw [htemp, cstr_tempName]
      exact hmem
  · refine OrderedMap.forall_insert hnone (fun other found _ hfind file hfile => ?_) ?_
    · exact OutStream.owned_of_openFile ((hclient.owned other found hfind file hfile).mono
        hsubset) hmem _
    · intro file hfile
      rw [hstatus] at hfile
      exact OutStream.owned_openFile hmem _ hfile

/-- Storing a record back whose file may have been written or renamed. -/
theorem Contained.replace {client' : BlockClient} {status' : SyncStatus}
    {events : List ClientEvent} (hclient : client.Contained initial)
    (hfind : client.syncSet.find? info = some status)
    (hsyncSet : client'.syncSet = client.syncSet.replace info status')
    (htrace : client'.trace = client.trace ++ events) (htemp : status'.temp = status.temp)
    (hchanged : ChangedWithin (touched client'.trace) client.files client'.files)
    (howned : ∀ file, Owned (touched client.trace) client.files file →
      Owned (touched client'.trace) client'.files file)
    (hheld : ∀ file, status'.output.file = some file → status.output.file = some file) :
    client'.Contained initial := by
  have hsubset : touched client.trace ⊆ touched client'.trace := by
    rw [htrace]
    exact touched_subset_append client.trace events
  constructor
  · exact (hclient.changed.mono hsubset).trans hchanged
  · rw [hsyncSet]
    refine OrderedMap.forall_replace hfind (fun other found _ hfound => ?_) ?_
    · exact hsubset (hclient.temp other found hfound)
    · rw [htemp]
      exact hsubset (hclient.temp info status hfind)
  · rw [hsyncSet]
    refine OrderedMap.forall_replace hfind (fun other found _ hfound file hfile => ?_) ?_
    · exact howned file (hclient.owned other found hfound file hfile)
    · exact fun file hfile => howned file (hclient.owned info status hfind file (hheld file hfile))

/-- A record that was brought up to date without a file taking its place. -/
theorem Contained.kept {client' : BlockClient} {status' : SyncStatus}
    {events : List ClientEvent} (hclient : client.Contained initial)
    (hfind : client.syncSet.find? info = some status)
    (hsyncSet : client'.syncSet = client.syncSet.replace info status')
    (htrace : client'.trace = client.trace ++ events) (htemp : status'.temp = status.temp)
    (hfiles : client'.files = client.files)
    (hheld : ∀ file, status'.output.file = some file → status.output.file = some file) :
    client'.Contained initial := by
  apply hclient.replace hfind hsyncSet htrace htemp _ _ hheld
  · rw [hfiles]
    exact .refl _ _
  · rw [hfiles, htrace]
    exact fun file howned => howned.mono (touched_subset_append _ _)

/-- A block goes into the file that the record holds open. -/
theorem Contained.worked {state : StatusState} (hclient : client.Contained initial)
    (hfind : client.syncSet.find? info = some status)
    (hworks : Works order env message ⟨status, client.files, []⟩ state) :
    (client.putStatus info state).Contained initial := by
  have hfile : state.status.output.file = status.output.file := hworks.keeps.2.1
  have hheld : ∀ file, state.status.output.file = some file →
      status.output.file = some file := fun file hopen => hfile ▸ hopen
  rcases hworks.writes with hsame | ⟨_, _, file, _, _, _, _, hopen, hwrites⟩
  · exact hclient.kept hfind rfl rfl hworks.temp hsame hheld
  · have hsubset := touched_subset_append client.trace
      (state.publications.map (ClientEvent.published info))
    apply hclient.replace hfind rfl rfl hworks.temp _ _ hheld
    · rw [putStatus, hwrites]
      exact changedWithin_write
        ((hclient.owned info status hfind file hopen).mono hsubset) _ _
    · rw [putStatus, hwrites]
      exact fun other howned => (howned.mono hsubset).write _ _

theorem Contained.published {outcome : PublishOutcome} (hclient : client.Contained initial)
    (hfind : client.syncSet.find? info = some status) :
    (client.publish outcome info status).Contained initial := by
  have htemp : (SyncStatus.published outcome ⟨status, client.files, []⟩).status.temp =
      status.temp := by
    simp [SyncStatus.published]
  have hheld : ∀ file, (SyncStatus.published outcome
      ⟨status, client.files, []⟩).status.output.file = some file →
        status.output.file = some file := by
    intro file hfile
    simp [SyncStatus.published] at hfile
  have htrace := publish_trace outcome info status client
  rcases SyncStatus.published_files outcome ⟨status, client.files, []⟩ with
    ⟨hsame, _⟩ | ⟨publication, hrenamed, hnoted, hpath⟩
  · exact hclient.kept hfind rfl htrace htemp hsame hheld
  · have hold : cstr status.temp ∈ touched (client.publish outcome info status).trace :=
      touched_subset_append _ _ (hclient.temp info status hfind)
    have hnew : cstr status.path ∈ touched (client.publish outcome info status).trace := by
      refine ⟨.published info publication, List.mem_append_right _ ?_, ?_⟩
      · rw [hnoted]
        exact List.mem_cons_self
      · rw [ClientEvent.name?, hpath]
    apply hclient.replace hfind rfl htrace htemp _ _ hheld
    · rw [publish, putStatus, hrenamed]
      exact changedWithin_rename hold hnew
    · rw [publish, putStatus, hrenamed]
      exact fun file howned => (howned.mono (touched_subset_append _ _)).rename hold hnew

theorem Contained.erased (hclient : client.Contained initial) (info : FileInfo) :
    (client.erased info).Contained initial := by
  have hsubset := touched_subset_append client.trace [.erased info]
  constructor
  · exact hclient.changed.mono hsubset
  · exact OrderedMap.forall_erase fun other found _ hfound =>
      hsubset (hclient.temp other found hfound)
  · exact OrderedMap.forall_erase fun other found _ hfound file hfile =>
      (hclient.owned other found hfound file hfile).mono hsubset

theorem handle_contained :
    Keeps (Contained initial) (Contained initial) (handle order env message address) := by
  apply handle_keeps_of_stages
  · exact fun info client status files hclient hnone hcreate => hclient.created hnone hcreate
  · exact fun info client status state _ hclient hfind hworks => hclient.worked hfind hworks
  · exact fun info client status outcome hclient hfind _ => hclient.published hfind
  · exact fun info client status n hclient hfind =>
      hclient.kept hfind rfl rfl rfl rfl fun _ hfile => hfile
  · exact fun info client status outcome hclient hfind _ _ =>
      (hclient.published hfind).erased info

end BlockClient

/-- Whatever a client is sent, and whatever fails: a name has what it had before unless it
is that of a temporary file the client made, or the path of a file it put in place. -/
theorem ClientRun.Reachable.untouched {order : ByteOrder} {group : UInt32} {port : UInt16}
    {pid id : UInt32} {files : FileStore Bytes} {run : ClientRun}
    (hrun : Reachable order (BlockClient.create order group port pid id files) run)
    {name : Bytes} (hname : ∀ event ∈ run.client.trace, event.name? ≠ some name) :
    run.client.files.file? name = files.file? name := by
  have hcontained : run.client.Contained files := by
    apply hrun.keeps_of_handle
    · constructor
      · exact .refl _ _
      · intro info status hfind
        rw [BlockClient.create, OrderedMap.find?_empty] at hfind
        contradiction
      · intro info status hfind
        rw [BlockClient.create, OrderedMap.find?_empty] at hfind
        contradiction
    · exact fun _ _ _ hclient => ⟨hclient.changed, hclient.temp, hclient.owned⟩
    · exact fun _ _ _ => BlockClient.handle_contained
  apply hcontained.changed
  intro htouched
  obtain ⟨event, hevent, hevents⟩ := htouched
  exact hname event hevent hevents

/-- A client on whose host there is another file. -/
def otherFiles : FileStore Bytes := (FileStore.empty.create [98]).2.write 0 0 [9]

/-- It is offered a file, answers its goodbye and puts it under the path. -/
def besideRun : ClientRun :=
  (((ClientRun.start .little 0 none (BlockClient.create .little 0 0 7 5 otherFiles)).step
    .little (namedInput 116 offeredInfo)).step .little (namedInput 117 offeredBlock)).step
      .little (namedInput 118 offeredGoodbye)

theorem besideRun_untouched : besideRun.client.files.file? [98] = otherFiles.file? [98] := by
  have hrun : ClientRun.Reachable .little (BlockClient.create .little 0 0 7 5 otherFiles)
      besideRun := .step (.step (.step (.start 0 none) _) _) _
  exact hrun.untouched (by decide +kernel)

end Multisync
