import Multisync.InPlace
import Multisync.Publication
import Mathlib.Tactic

/-!
# The destinations of a file

A record has one path, which every announcement overwrites, and one temporary file,
which the first publication moves.  Of several destinations that are announced for a
file the last one gets it.
-/

namespace Multisync

open ByteLayout Effects Temporal BlockAssembly

/-! ## The file under a name -/

/-- Nothing of `publications` went to the name and its file is the same, or something
did and is its file. -/
def NameKept (name : Bytes) (before after : FileStore Bytes)
    (publications : List Publication) : Prop :=
  (∀ publication ∈ publications, cstr publication.path ≠ name) ∧
      after.file? name = before.file? name ∨
    ∃ publication ∈ publications, cstr publication.path = name ∧
      after.file? name = some publication.content

theorem NameKept.of_same {name : Bytes} {before after : FileStore Bytes}
    (hsame : after.file? name = before.file? name) : NameKept name before after [] :=
  Or.inl ⟨fun _ hmem => absurd hmem List.not_mem_nil, hsame⟩

theorem NameKept.trans {name : Bytes} {first second third : FileStore Bytes}
    {earlier later : List Publication} (hearlier : NameKept name first second earlier)
    (hlater : NameKept name second third later) :
    NameKept name first third (earlier ++ later) := by
  rcases hlater with ⟨hnone, hsame⟩ | ⟨publication, hmem, hpath, hfile⟩
  · rcases hearlier with ⟨hnone', hsame'⟩ | ⟨publication, hmem, hpath, hfile⟩
    · refine Or.inl ⟨fun publication hmem => ?_, hsame.trans hsame'⟩
      exact (List.mem_append.mp hmem).elim (hnone' publication) (hnone publication)
    · exact Or.inr ⟨publication, List.mem_append_left _ hmem, hpath, hsame.trans hfile⟩
  · exact Or.inr ⟨publication, List.mem_append_right _ hmem, hpath, hfile⟩

section Record

variable {order : ByteOrder} {env : Environment} {message : Message} {name : Bytes}
  {status : SyncStatus} {files : FileStore Bytes}

theorem SyncStatus.published_nameKept (outcome : PublishOutcome)
    (hcstr : cstr status.temp = status.temp) (hname : name ≠ status.temp) :
    NameKept name files (published outcome ⟨status, files, []⟩).files
      (published outcome ⟨status, files, []⟩).publications := by
  unfold published renameTemp
  split_ifs with hrename
  · simp only [hcstr]
    cases htemp : files.file? status.temp with
    | none => exact .of_same rfl
    | some content =>
        by_cases hpath : cstr status.path = name
        · refine Or.inr ⟨_, List.mem_cons_self, hpath, ?_⟩
          rw [← hpath]
          exact files.file?_rename_new _ htemp
        · refine Or.inl ⟨fun publication hmem => ?_, ?_⟩
          · simp only [List.nil_append, List.mem_singleton] at hmem
            rw [hmem]
            exact hpath
          · exact files.file?_rename_ne hname (Ne.symm hpath)
  · exact .of_same rfl

theorem SyncStatus.wrote_file?_ne {block : ℕ} {payload : Bytes}
    (hheld : ∀ file, status.output.file = some file →
      files.directory status.temp = some file)
    (hname : name ≠ status.temp) :
    (wrote env block payload ⟨status, files, []⟩).files.file? name = files.file? name := by
  rcases (status.output.seekp (blockSize * block % 2 ^ 64)).write_store
    payload env.writeLimit files with hsame | ⟨file, position, bytes, hopen, hwrite⟩
  · unfold wrote
    rw [hsame]
  · rw [OutStream.seekp_file] at hopen
    unfold wrote
    rw [hwrite]
    refine files.file?_write_ne (fun hother => hname ?_) position bytes
    exact files.unique name status.temp file hother (hheld file hopen)

/-- A program on a record changes no other name than that of the temporary file, unless
it publishes. -/
theorem RecordProgram.nameKept {α : Type} {program : EStateM Fault StatusState α}
    (hprogram : RecordProgram order env message program)
    (hcstr : cstr status.temp = status.temp)
    (hheld : ∀ file, status.output.file = some file →
      files.directory status.temp = some file)
    (hname : name ≠ status.temp) :
    NameKept name files (endState (program ⟨status, files, []⟩)).files
      (endState (program ⟨status, files, []⟩)).publications := by
  cases hprogram with
  | setPath _ _ => exact .of_same rfl
  | @writeBlock block _ _ =>
      rw [SyncStatus.writeBlock_apply]
      split
      · exact .of_same rfl
      · exact .of_same rfl
      · split
        · exact .of_same rfl
        · next payload _ =>
            have hwrote := @SyncStatus.wrote_file?_ne env name status files
              (block.getBlock order).toNat payload hheld hname
            split
            · exact .of_same hwrote
            · exact .of_same hwrote
  | setGoodbyeReceived => exact .of_same rfl
  | transferComplete =>
      rw [SyncStatus.transferComplete_apply]
      split_ifs
      · exact SyncStatus.published_nameKept env.first hcstr hname
      · exact .of_same rfl
  | @syncComplete outcome _ =>
      rw [SyncStatus.syncComplete_apply]
      split_ifs
      · exact SyncStatus.published_nameKept outcome hcstr hname
      · exact .of_same rfl

end Record

/-- The publication that the event notes. -/
def ClientEvent.publication? : ClientEvent → Option Publication
  | .published _ publication => some publication
  | _ => none

namespace BlockClient

variable {order : ByteOrder} {env : Environment} {message : Message} {address : Address}
  {name : Bytes} {names pending : List Bytes} {before client after : BlockClient}

/-- What has become of the file under the name, by what has been noted since. -/
def NameKept (name : Bytes) (before after : BlockClient) : Prop :=
  ∃ events, after.trace = before.trace ++ events ∧
    Multisync.NameKept name before.files after.files
      (events.filterMap ClientEvent.publication?)

theorem NameKept.refl (name : Bytes) (client : BlockClient) : NameKept name client client :=
  ⟨[], (List.append_nil _).symm, .of_same rfl⟩

theorem NameKept.extend (hkept : NameKept name before client) {events : List ClientEvent}
    (htrace : after.trace = client.trace ++ events)
    (hfiles : Multisync.NameKept name client.files after.files
      (events.filterMap ClientEvent.publication?)) : NameKept name before after := by
  obtain ⟨earlier, hearlier, hkept⟩ := hkept
  refine ⟨earlier ++ events, ?_, ?_⟩
  · rw [htrace, hearlier, List.append_assoc]
  · rw [List.filterMap_append]
    exact hkept.trans hfiles

/-- A call leaves the file under a name that is not that of a temporary file, unless it
publishes under the name. -/
theorem handle_nameKept (hnil : [] ∉ names) (hname : name ∉ names)
    (hannounced : ∀ text, message.getType order = MessageType.info.code →
      message.getText order = .ok text → cstr text ∉ names)
    (hfresh : ∀ temp ∈ message.tempFile? order env.tmpnam, temp ∉ pending) :
    Triple (fun client => Separate names
        ((message.tempFile? order env.tmpnam).toList ++ pending) client ∧
          NameKept name before client)
      (handle order env message address)
      (fun _ client => Separate names pending client ∧ NameKept name before client)
      (fun _ client => Separate names pending client ∧ NameKept name before client) := by
  apply handle_separate hnil hannounced hfresh
  · intro client info status files hclient hkept _ _ hcreate
    obtain ⟨_, hstatus, hfiles⟩ := SyncStatus.create_eq_ok hcreate
    refine hkept.extend rfl (.of_same ?_)
    have hne : name ≠ tempName env.tmpnam info := by
      rintro rfl
      exact hname (hclient.pending_mem _ List.mem_cons_self)
    simp only [created, hfiles]
    exact OutStream.openFile_file?_ne hne _ _
  · intro client info status α program hclient hkept _ hfind hprogram
    have hapart := hclient.apart info status hfind
    have hne : name ≠ status.temp := by
      rintro rfl
      exact hname hapart.temp_mem
    refine hkept.extend rfl ?_
    have hpublications : ∀ publications : List Publication,
        (publications.map (ClientEvent.published info)).filterMap
          ClientEvent.publication? = publications := by
      intro publications
      rw [List.filterMap_map]
      exact List.filterMap_some
    rw [hpublications]
    exact hprogram.nameKept hapart.cstr_temp hapart.held hne
  · intro client info hkept _
    refine hkept.extend rfl ?_
    cases client.syncSet.find? info with
    | none => exact .of_same rfl
    | some status => exact .of_same rfl
  · exact fun client info hkept _ => hkept.extend rfl (.of_same rfl)

end BlockClient

/-! ## Histories in which the temporary files are apart -/

/-- The temporary file that the call makes if it makes a record. -/
def Handling.tempFile? (order : ByteOrder) (handling : Handling) : Option Bytes :=
  handling.message.tempFile? order handling.env.tmpnam

def historyTemps (order : ByteOrder) (past : List Handling) : List Bytes :=
  past.filterMap (Handling.tempFile? order)

/-- The names of the temporary files are distinct and not in use, and no announced path
is one of them. -/
structure HistoryApart (order : ByteOrder) (files : FileStore Bytes)
    (past : List Handling) : Prop where
  nodup : (historyTemps order past).Nodup
  unmade : ∀ name ∈ historyTemps order past, files.directory name = none
  announced : ∀ handling ∈ past, ∀ text, handling.message.announced? order = some text →
    cstr text ∉ historyTemps order past

section Apart

variable {order : ByteOrder} {past : List Handling}

theorem nil_notMem_historyTemps (past : List Handling) :
    [] ∉ historyTemps order past := by
  intro hmem
  obtain ⟨handling, _, hname⟩ := List.mem_filterMap.mp hmem
  obtain ⟨info, _, hnil⟩ := Option.map_eq_some_iff.mp hname
  simp [tempName, tempSuffix] at hnil

theorem historyTemps_cons (handling : Handling) (rest : List Handling) :
    historyTemps order (handling :: rest) =
      (handling.tempFile? order).toList ++ historyTemps order rest := by
  unfold historyTemps
  cases hname : handling.tempFile? order with
  | none => rw [List.filterMap_cons_none hname]; rfl
  | some name => rw [List.filterMap_cons_some hname]; rfl

theorem historyTemps_append (first second : List Handling) :
    historyTemps order (first ++ second) =
      historyTemps order first ++ historyTemps order second :=
  List.filterMap_append

/-- Without records the files are apart. -/
theorem HistoryApart.separate {client : BlockClient}
    (hapart : HistoryApart order client.files past)
    (hempty : ∀ info, client.syncSet.find? info = none) :
    Separate (historyTemps order past) (historyTemps order past) client :=
  .of_empty hempty (fun _ hname => hname) hapart.unmade

theorem Message.announced?_eq_some {message : Message} {text : Bytes}
    (htype : message.getType order = MessageType.info.code)
    (htext : message.getText order = .ok text) : message.announced? order = some text := by
  rw [announced?, if_pos htype, htext]
  rfl

/-- A call meets the records of its history apart, and the name it may use is unused. -/
structure Handling.MeetsApart (order : ByteOrder) (names pending : List Bytes)
    (handling : Handling) : Prop where
  separate : Separate names ((handling.tempFile? order).toList ++ pending) handling.client
  fresh : ∀ name ∈ handling.tempFile? order, name ∉ pending
  nil_notMem : [] ∉ names
  announced : ∀ text, handling.message.announced? order = some text → cstr text ∉ names

variable {handling : Handling} {names pending : List Bytes}

theorem Handling.MeetsApart.after (hmeets : handling.MeetsApart order names pending) :
    Separate names pending (handling.after order) := by
  have hhandle : Triple (fun client => Separate names
      ((handling.message.tempFile? order handling.env.tmpnam).toList ++ pending) client ∧ True)
      (BlockClient.handle order handling.env handling.message handling.address)
      (fun _ client => Separate names pending client ∧ True)
      (fun _ client => Separate names pending client ∧ True) := by
    apply BlockClient.handle_separate (I := fun _ => True) hmeets.nil_notMem
      (fun text htype htext => hmeets.announced text (Message.announced?_eq_some htype htext))
      hmeets.fresh
    · exact fun _ _ _ _ _ _ _ _ _ => trivial
    · exact fun _ _ _ _ _ _ _ _ _ _ => trivial
    · exact fun _ _ _ _ => trivial
    · exact fun _ _ _ _ => trivial
  exact (hhandle.endState ⟨hmeets.separate, trivial⟩).1

theorem Handling.MeetsApart.holding {info : FileInfo} {status : SyncStatus}
    {mid : BlockClient} (hmeets : handling.MeetsApart order names pending)
    (hinfo : handling.message.fileInfo? order = some info)
    (hholding : BlockClient.Holding order handling.env info handling.address
      handling.client status mid) : Separate names pending mid := by
  cases hholding with
  | found _ =>
      exact hmeets.separate.weaken fun name hname => List.mem_append_right _ hname
  | made hnone hcreate =>
      have htemp : handling.tempFile? order = some (tempName handling.env.tmpnam info) := by
        rw [Handling.tempFile?, Message.tempFile?, hinfo, Option.map_some]
      have hseparate := hmeets.separate
      rw [htemp] at hseparate
      exact hseparate.created (hmeets.fresh _ htemp) hmeets.nil_notMem hnone hcreate

/-- The records are apart when the first question is asked. -/
theorem Handling.MeetsApart.prepared {info : FileInfo} {mid : BlockClient}
    (hmeets : handling.MeetsApart order names pending)
    (hinfo : handling.message.fileInfo? order = some info)
    (hprepared : BlockClient.Prepared order handling.env handling.message
      handling.address info handling.client mid) : Separate names pending mid := by
  cases hprepared with
  | refused _ _ =>
      exact hmeets.separate.weaken fun name hname => List.mem_append_right _ hname
  | held hholding _ => exact hmeets.holding hinfo hholding
  | @worked status held state hholding hworks =>
      have hheld := hmeets.holding hinfo hholding
      have hpath := (hheld.apart info status hholding.find?).path_notMem
      cases hworks with
      | announced htype htext =>
          have hprogram : RecordProgram order handling.env handling.message _ :=
            .setPath htype htext
          exact hheld.putStatus hholding.find? (hprogram.recordStep _).1
            (hmeets.announced _ (Message.announced?_eq_some htype htext))
      | wrote htype hblock =>
          have hprogram : RecordProgram order handling.env handling.message _ :=
            .writeBlock htype hblock
          obtain ⟨hstep, hsame | ⟨hannounced, _⟩⟩ := hprogram.recordStep
            ⟨status, held.files, []⟩
          · exact hheld.putStatus hholding.find? hstep (by rwa [hsame])
          · rw [htype] at hannounced
            contradiction

/-- A property of the history and the records that each call keeps while the records
are apart. -/
theorem ClientRun.Observed.holds_apart {client : BlockClient} {run : ClientRun}
    {I : BlockClient → List Handling → Prop}
    (hrun : ClientRun.Observed order client run past)
    (hapart : HistoryApart order client.files past)
    (hempty : ∀ info, client.syncSet.find? info = none) (hclient : I client [])
    (hother : ∀ client client' earlier, BlockClient.SameRecords client client' →
      I client earlier → I client' earlier)
    (hhandle : ∀ handling earlier pending, handling :: earlier <:+ past →
      handling.MeetsApart order (historyTemps order past) pending →
      I handling.client earlier → I (handling.after order) (handling :: earlier)) :
    I run.client past := by
  let J : BlockClient → List Handling → Prop := fun current earlier =>
    ∀ later, past = later ++ earlier →
      Separate (historyTemps order past) (historyTemps order later) current ∧
        I current earlier
  have hrecords : J run.client past := by
    apply hrun.holds
    · intro later heq
      rw [List.append_nil] at heq
      rw [← heq]
      exact ⟨hapart.separate hempty, hclient⟩
    · intro current current' earlier hsame hJ later heq
      obtain ⟨hseparate, hI⟩ := hJ later heq
      refine ⟨?_, hother current current' earlier hsame hI⟩
      obtain ⟨socket, queue, rfl⟩ := hsame
      exact ⟨hseparate.apart, hseparate.temp_injective, hseparate.pending_mem,
        hseparate.unmade⟩
    · intro handling earlier hJ later heq
      have hsuffix : handling :: earlier <:+ past := ⟨later, heq.symm⟩
      obtain ⟨hseparate, hI⟩ := hJ (later ++ [handling]) (by simp [heq])
      have hnodup := hapart.nodup
      rw [heq, historyTemps_append, historyTemps_cons] at hnodup
      have hdisjoint := (List.nodup_append.mp hnodup).2.2
      have hmeets : handling.MeetsApart order (historyTemps order past)
          (historyTemps order later) := by
        refine ⟨hseparate.weaken fun name hname => ?_, fun name hname hmem => ?_,
          nil_notMem_historyTemps past,
          hapart.announced handling (hsuffix.subset List.mem_cons_self)⟩
        · rw [historyTemps_append, historyTemps_cons, List.mem_append]
          rw [List.mem_append] at hname
          exact hname.symm.imp_right fun hself => List.mem_append_left _ hself
        · exact hdisjoint name hmem name
            (List.mem_append_left _ (Option.mem_toList.mpr hname)) rfl
      exact ⟨hmeets.after, hhandle handling earlier _ hsuffix hmeets hI⟩
  exact (hrecords [] rfl).2

/-- What a call makes of the file under a name that is not that of a temporary file. -/
theorem Handling.MeetsApart.file?_after {name : Bytes}
    (hmeets : handling.MeetsApart order names pending) (hname : name ∉ names) :
    ((∀ other publication, handling.Notes order (.published other publication) →
        cstr publication.path ≠ name) ∧
      (handling.after order).files.file? name = handling.client.files.file? name) ∨
    ∃ other publication, handling.Notes order (.published other publication) ∧
      cstr publication.path = name ∧
      (handling.after order).files.file? name = some publication.content := by
  have hhandle := (@BlockClient.handle_nameKept order handling.env handling.message
    handling.address name names pending handling.client hmeets.nil_notMem hname
    (fun text htype htext =>
      hmeets.announced text (Message.announced?_eq_some htype htext))
    hmeets.fresh).endState ⟨hmeets.separate, .refl name handling.client⟩
  obtain ⟨_, events, hevents, hkept⟩ := hhandle
  have hnotes : ∀ event, handling.Notes order event ↔ event ∈ events := by
    intro event
    constructor
    · rintro ⟨events', hevents', hmem⟩
      rw [Handling.after, hevents, List.append_cancel_left_eq] at hevents'
      exact hevents' ▸ hmem
    · exact fun hmem => ⟨events, hevents, hmem⟩
  rcases hkept with ⟨hnone, hsame⟩ | ⟨publication, hmem, hpath, hfile⟩
  · refine Or.inl ⟨fun other publication hnoted => hnone publication ?_, hsame⟩
    exact List.mem_filterMap.mpr ⟨_, (hnotes _).mp hnoted, rfl⟩
  · obtain ⟨event, hevent, hnoted⟩ := List.mem_filterMap.mp hmem
    cases event with
    | published other found =>
        cases hnoted
        exact Or.inr ⟨other, publication, (hnotes _).mpr hevent, hpath, hfile⟩
    | created _ _ => contradiction
    | answered _ _ => contradiction
    | erased _ => contradiction

end Apart

/-! ## The path announced last -/

/-- The path that was announced last for the file. -/
def lastPath (order : ByteOrder) (info : FileInfo) : List Handling → Bytes
  | [] => []
  | handling :: earlier =>
      if handling.message.fileInfo? order = some info then
        (handling.message.announced? order).getD (lastPath order info earlier)
      else lastPath order info earlier

section Paths

variable (order : ByteOrder) (info : FileInfo) (source name : Bytes)

/-- The call publishes the file. -/
def Handling.Publishes (handling : Handling) : Prop :=
  ∃ publication, handling.Notes order (.published info publication)

/-- The call publishes another file under the name. -/
def Handling.Replaces (handling : Handling) : Prop :=
  ∃ other publication, other ≠ info ∧
    handling.Notes order (.published other publication) ∧ cstr publication.path = name

/-- The first publication of the file: all that the call publishes of it is the source,
at the path announced last. -/
structure PublishedFirst (publisher : Handling) (earlier : List Handling) : Prop where
  first : ∀ handling ∈ earlier, ¬ handling.Publishes order info
  publishes : publisher.Publishes order info
  whole : ∀ publication, publisher.Notes order (.published info publication) →
    publication.path = lastPath order info (publisher :: earlier) ∧
      publication.content = source

/-- The source is at the path that was announced last before the file was first
published, unless another file was published there since. -/
def Served (past : List Handling) (client : BlockClient) : Prop :=
  ∃ later publisher earlier, past = later ++ publisher :: earlier ∧
    PublishedFirst order info source publisher earlier ∧
    (client.files.file? (cstr (lastPath order info (publisher :: earlier))) = some source ∨
      ∃ handling ∈ later,
        handling.Replaces order info (cstr (lastPath order info (publisher :: earlier))))

/-- The file was not published and no goodbye for it queued; its record has the path
announced last and an open output. -/
structure Awaiting (past : List Handling) (client : BlockClient) : Prop where
  unpublished : ∀ handling ∈ past, ¬ handling.Publishes order info
  unanswered : ∀ handling ∈ past, ¬ handling.Answers order info
  record : ∀ status, client.syncSet.find? info = some status →
    status.path = lastPath order info past ∧ status.output.file ≠ none
  missing : client.syncSet.find? info = none →
    lastPath order info past = [] ∨ 0 ∉ info.digest

end Paths

section Calls

variable {order : ByteOrder} {info : FileInfo} {source : Bytes} {handling : Handling}
  {past earlier : List Handling} {names pending : List Bytes}

theorem lastPath_nil_or_announced :
    lastPath order info past = [] ∨ ∃ handling ∈ past,
      handling.message.fileInfo? order = some info ∧
        handling.message.announced? order = some (lastPath order info past) := by
  induction past with
  | nil => exact Or.inl rfl
  | cons handling earlier ih =>
      have hrest : lastPath order info (handling :: earlier) = lastPath order info earlier →
          lastPath order info (handling :: earlier) = [] ∨
            ∃ entry ∈ handling :: earlier, entry.message.fileInfo? order = some info ∧
              entry.message.announced? order =
                some (lastPath order info (handling :: earlier)) := by
        intro hsame
        rw [hsame]
        exact ih.imp_right fun ⟨entry, hmem, h⟩ => ⟨entry, List.mem_cons_of_mem _ hmem, h⟩
      by_cases hinfo : handling.message.fileInfo? order = some info
      · cases htext : handling.message.announced? order with
        | none =>
            apply hrest
            rw [lastPath, if_pos hinfo, htext]
            rfl
        | some text =>
            have hlast : lastPath order info (handling :: earlier) = text := by
              rw [lastPath, if_pos hinfo, htext]
              rfl
            rw [hlast]
            exact Or.inr ⟨handling, List.mem_cons_self, hinfo, htext⟩
      · apply hrest
        rw [lastPath, if_neg hinfo]

/-- A call about another file. -/
theorem Awaiting.kept (hawaiting : Awaiting order info earlier handling.client)
    (hother : handling.message.fileInfo? order ≠ some info) :
    Awaiting order info (handling :: earlier) (handling.after order) := by
  obtain ⟨hsame, hevents⟩ := Handling.kept hother
  have hlast : lastPath order info (handling :: earlier) = lastPath order info earlier :=
    if_neg hother
  constructor
  · refine List.forall_mem_cons.mpr ⟨?_, hawaiting.unpublished⟩
    exact fun ⟨_, hnotes⟩ => hevents _ hnotes rfl
  · exact List.forall_mem_cons.mpr ⟨fun h => hother h.1, hawaiting.unanswered⟩
  · rw [hsame, hlast]
    exact hawaiting.record
  · rw [hsame, hlast]
    exact hawaiting.missing

/-- The record that a call finds or makes while the file is awaited. -/
theorem Awaiting.base {base : SyncStatus}
    (hawaiting : Awaiting order info earlier handling.client)
    (hopened : handling.env.opened = true) (hbase : handling.Base order info base) :
    base.path = lastPath order info earlier ∧ base.output.file ≠ none := by
  obtain ⟨mid, hholding⟩ := hbase
  cases hholding with
  | found hfind => exact hawaiting.record base hfind
  | made hnone hcreate =>
      obtain ⟨hnul, hstatus, _⟩ := SyncStatus.create_eq_ok hcreate
      have hlast := (hawaiting.missing hnone).resolve_right fun hnot => hnot hnul
      rw [hstatus, hlast]
      exact ⟨rfl, by simp [OutStream.openFile, hopened]⟩

theorem Awaiting.updates {base status : SyncStatus}
    (hawaiting : Awaiting order info earlier handling.client)
    (hopened : handling.env.opened = true)
    (hinfo : handling.message.fileInfo? order = some info)
    (hbase : handling.Base order info base)
    (hupdates : handling.Updates order base status) :
    status.path = lastPath order info (handling :: earlier) ∧
      status.output.file ≠ none := by
  obtain ⟨hpath, hfile⟩ := hawaiting.base hopened hbase
  rw [hupdates.path, hupdates.file, hpath, lastPath, if_pos hinfo]
  exact ⟨rfl, hfile⟩

/-- What is published of the file by a call of a client that publishes only the source. -/
theorem Handling.content_of_notes {publication : Publication}
    (hwhole : PublishesWhole info source (handling.after order))
    (hnotes : handling.Notes order (.published info publication)) :
    publication.content = source := by
  obtain ⟨events, hevents, hmem⟩ := hnotes
  refine (hwhole.published publication ?_).content
  rw [hevents]
  exact List.mem_append_right _ hmem

/-- The call that finds the transfer complete puts the file into its place. -/
theorem Awaiting.served_of_answer {mid : BlockClient} {base status : SyncStatus}
    (hawaiting : Awaiting order info earlier handling.client)
    (hmeets : handling.MeetsApart order names pending) (hsucceeds : handling.env.Succeeds)
    (hpaths : ∀ entry ∈ handling :: earlier, entry.message.fileInfo? order = some info →
      ∀ text, entry.message.announced? order = some text →
        (text ≠ [] → cstr text ≠ []) ∧ cstr text ∉ names)
    (hwhole : PublishesWhole info source (handling.after order))
    (hasked : handling.Asked order info mid status)
    (hbase : handling.Base order info base) (hupdates : handling.Updates order base status)
    (hpath : ∀ publication, handling.Notes order (.published info publication) →
      publication.path = status.path) :
    Served order info source (handling :: earlier) (handling.after order) := by
  obtain ⟨hlast, hopen⟩ := hawaiting.updates hsucceeds.opened hasked.about hbase hupdates
  have hcomplete := hasked.complete.1
  obtain ⟨entry, hentry, habout, htext⟩ :=
    (@lastPath_nil_or_announced order info (handling :: earlier)).resolve_left
      fun hnil => hcomplete.2 (hlast.trans hnil)
  obtain ⟨hnul, hname⟩ := hpaths entry hentry habout _ htext
  rw [← hlast] at hnul hname
  have hne := hnul hcomplete.2
  have hseparate : Separate names pending mid := by
    have hprepared := BlockClient.prepared order handling.env handling.message
      handling.address info handling.client
    rw [hasked.prepared] at hprepared
    exact hmeets.prepared hasked.about hprepared
  have hheld := hseparate.apart info status hasked.find
  obtain ⟨file, hfile⟩ := Option.ne_none_iff_exists'.mp hopen
  have htemp : mid.files.file? (cstr status.temp) ≠ none := by
    rw [hheld.cstr_temp, FileStore.file?, hheld.held file hfile]
    exact Option.some_ne_none _
  obtain ⟨publication, hmem, _⟩ := @SyncStatus.published_of_permitted handling.env.first
    ⟨status, mid.files, []⟩ (by rw [hsucceeds.first]) hne htemp
  have hnotes := hasked.notes_published hmem
  refine ⟨[], handling, earlier, rfl, ⟨hawaiting.unpublished, ⟨publication, hnotes⟩, ?_⟩,
    Or.inl ?_⟩
  · exact fun found hfound => ⟨(hpath found hfound).trans hlast,
      handling.content_of_notes hwhole hfound⟩
  · rw [← hlast]
    rcases hmeets.file?_after hname with ⟨hnone, _⟩ | ⟨other, found, hfound, _, hcontent⟩
    · exact absurd (congrArg cstr (hpath publication hnotes))
        (hnone info publication hnotes)
    · have hsame : other = info := by
        by_contra hdifferent
        have hother : handling.message.fileInfo? order ≠ some other := by
          rw [hasked.about, ne_eq, Option.some_inj]
          exact Ne.symm hdifferent
        exact (Handling.kept hother).2 _ hfound rfl
      rw [hcontent, handling.content_of_notes hwhole (hsame ▸ hfound)]

/-- What has been served stays, or is replaced. -/
theorem Served.kept (hserved : Served order info source earlier handling.client)
    (hmeets : handling.MeetsApart order names pending)
    (hpaths : ∀ entry ∈ earlier, ∀ text,
      entry.message.announced? order = some text → cstr text ∉ names)
    (hwhole : PublishesWhole info source (handling.after order)) :
    Served order info source (handling :: earlier) (handling.after order) := by
  obtain ⟨later, publisher, rest, heq, hfirst, hplace⟩ := hserved
  refine ⟨handling :: later, publisher, rest, by rw [heq]; rfl, hfirst, ?_⟩
  have hname : cstr (lastPath order info (publisher :: rest)) ∉ names := by
    rcases @lastPath_nil_or_announced order info (publisher :: rest) with
      hnil | ⟨entry, hentry, _, htext⟩
    · rw [hnil]
      exact hmeets.nil_notMem
    · exact hpaths entry (heq ▸ List.mem_append_right later hentry) _ htext
  rcases hplace with hfile | ⟨entry, hentry, hreplaces⟩
  · rcases hmeets.file?_after hname with
      ⟨_, hsame⟩ | ⟨other, publication, hnotes, hpath, hcontent⟩
    · exact Or.inl (hsame.trans hfile)
    · by_cases hsame : other = info
      · rw [hcontent, handling.content_of_notes hwhole (hsame ▸ hnotes)]
        exact Or.inl rfl
      · exact Or.inr ⟨handling, List.mem_cons_self, other, publication, hsame, hnotes, hpath⟩
  · exact Or.inr ⟨entry, List.mem_cons_of_mem _ hentry, hreplaces⟩

theorem Handling.publishesWhole (hmeets : handling.MeetsApart order names pending)
    (hsucceeds : handling.env.Succeeds)
    (hcount : (info.getBlockCount order).toNat = blockCount blockSize source)
    (hcarries : Delivery.Carries order info source handling.message)
    (hwhole : PublishesWhole info source handling.client) :
    PublishesWhole info source (handling.after order) := by
  have hkeeps := @keepsFitting_of_carries order handling.env handling.message info source
    hcount hsucceeds.writes hcarries
  exact ((BlockClient.handle_publishesOnly hmeets.nil_notMem
    (fun text htype htext =>
      hmeets.announced text (Message.announced?_eq_some htype htext))
    hmeets.fresh hkeeps).endState ⟨hmeets.separate, hwhole⟩).2

/-- A call serves the file, or it is still awaited. -/
theorem Handling.awaiting_or_served (hmeets : handling.MeetsApart order names pending)
    (hsucceeds : handling.env.Succeeds)
    (hpaths : ∀ entry ∈ handling :: earlier, ∀ text,
      entry.message.announced? order = some text → cstr text ∉ names)
    (hnul : ∀ entry ∈ handling :: earlier,
      entry.message.fileInfo? order = some info → ∀ text,
        entry.message.announced? order = some text → text ≠ [] → cstr text ≠ [])
    (hwhole : PublishesWhole info source (handling.after order))
    (hearlier : Awaiting order info earlier handling.client ∨
      Served order info source earlier handling.client) :
    Awaiting order info (handling :: earlier) (handling.after order) ∨
      Served order info source (handling :: earlier) (handling.after order) := by
  rcases hearlier with hawaiting | hserved
  · by_cases hinfo : handling.message.fileInfo? order = some info
    · cases Handling.outcome hinfo with
      | quiet hrecord hmissing hevents hqueue =>
          refine Or.inl ⟨?_, ?_, fun status hfind => ?_, fun hnone => ?_⟩
          · refine List.forall_mem_cons.mpr ⟨fun ⟨publication, hnotes⟩ => ?_,
              hawaiting.unpublished⟩
            obtain ⟨temp, heq⟩ := hevents _ hnotes
            contradiction
          · exact List.forall_mem_cons.mpr ⟨fun h => h.2 hqueue, hawaiting.unanswered⟩
          · obtain ⟨base, hbase, hupdates⟩ := hrecord status hfind
            exact hawaiting.updates hsucceeds.opened hinfo hbase hupdates
          · exact Or.inr (hmissing hnone).2
      | asked hasked hbase hupdates _ _ hpath =>
          refine Or.inr (hawaiting.served_of_answer hmeets hsucceeds ?_ hwhole hasked hbase hupdates
            hpath)
          exact fun entry hentry habout text htext =>
            ⟨hnul entry hentry habout text htext, hpaths entry hentry text htext⟩
    · exact Or.inl (hawaiting.kept hinfo)
  · exact Or.inr (hserved.kept hmeets
      (fun entry hentry => hpaths entry (List.mem_cons_of_mem _ hentry)) hwhole)

end Calls

/-- Once a goodbye for a file has been queued, the file is at the path that was announced
last for it before it was first published, unless another file was published there
since. -/
theorem ClientRun.Observed.served {order : ByteOrder} {group : UInt32} {port : UInt16}
    {pid id : UInt32} {files : FileStore Bytes} {run : ClientRun} {past : List Handling}
    {info : FileInfo} {source : Bytes}
    (hrun : ClientRun.Observed order (BlockClient.create order group port pid id files)
      run past)
    (hapart : HistoryApart order files past)
    (hsucceed : ∀ handling ∈ past, handling.env.Succeeds)
    (hcount : (info.getBlockCount order).toNat = blockCount blockSize source)
    (hcarries : ∀ handling ∈ past, Delivery.Carries order info source handling.message)
    (hnul : ∀ handling ∈ past, handling.message.fileInfo? order = some info →
      ∀ text, handling.message.announced? order = some text → text ≠ [] → cstr text ≠ [])
    (hanswered : ∃ handling ∈ past, handling.Answers order info) :
    Served order info source past run.client := by
  have hempty : ∀ other,
      (BlockClient.create order group port pid id files).syncSet.find? other = none := by
    intro other
    rw [BlockClient.create, OrderedMap.find?_empty]
  let I : BlockClient → List Handling → Prop := fun client past =>
    PublishesWhole info source client ∧
      (Awaiting order info past client ∨ Served order info source past client)
  have hinvariant : I run.client past := by
    apply hrun.holds_apart hapart hempty
    · refine ⟨⟨fun status hfind => ?_, fun _ hmem => absurd hmem List.not_mem_nil⟩,
        Or.inl ⟨by simp, by simp, fun status hfind => ?_, fun _ => Or.inl rfl⟩⟩
      · rw [hempty] at hfind
        contradiction
      · rw [hempty] at hfind
        contradiction
    · rintro client _ earlier ⟨socket, queue, rfl⟩ ⟨hwhole, hfile⟩
      exact ⟨⟨hwhole.record, hwhole.published⟩, hfile.imp_left
        fun h => ⟨h.unpublished, h.unanswered, h.record, h.missing⟩⟩
    · rintro handling earlier pending hsuffix hmeets ⟨hwhole, hfile⟩
      have hsubset := hsuffix.subset
      have hmem : handling ∈ past := hsubset List.mem_cons_self
      have hwhole' := handling.publishesWhole hmeets (hsucceed handling hmem) hcount
        (hcarries handling hmem) hwhole
      exact ⟨hwhole', handling.awaiting_or_served hmeets (hsucceed handling hmem)
        (fun entry hentry => hapart.announced entry (hsubset hentry))
        (fun entry hentry => hnul entry (hsubset hentry)) hwhole' hfile⟩
  obtain ⟨handling, hmem, hanswers⟩ := hanswered
  exact hinvariant.2.resolve_left fun hawaiting =>
    hawaiting.unanswered handling hmem hanswers

/-- The same file, announced under another path. -/
def offeredElsewhere : Message :=
  Message.received receiveReserve
    (Message.withText .little 9 MessageType.info.code sampleFile [98]).buffer

/-- An empty file, which is announced under the same path. -/
def offeredEmpty : Message :=
  Message.received receiveReserve
    (Message.withText .little 9 MessageType.info.code emptyFile [98]).buffer

/-- A client that was offered a file under two paths and has answered its goodbye. -/
def twiceRun : ClientRun :=
  (((sampleStart.step .little (namedInput 116 offeredInfo)).step .little
    (namedInput 117 offeredElsewhere)).step .little (namedInput 118 offeredBlock)).step
      .little (namedInput 119 offeredGoodbye)

def twicePast : List Handling :=
  ((((sampleStart.step .little (namedInput 116 offeredInfo)).step .little
      (namedInput 117 offeredElsewhere)).step .little
        (namedInput 118 offeredBlock)).handling? .little
          (namedInput 119 offeredGoodbye)).toList ++
    ((((sampleStart.step .little (namedInput 116 offeredInfo)).step .little
      (namedInput 117 offeredElsewhere)).handling? .little
        (namedInput 118 offeredBlock)).toList ++
    (((sampleStart.step .little (namedInput 116 offeredInfo)).handling? .little
      (namedInput 117 offeredElsewhere)).toList ++
    ((sampleStart.handling? .little (namedInput 116 offeredInfo)).toList ++ [])))

theorem twiceRun_observed : ClientRun.Observed .little
    (BlockClient.create .little 0 0 7 5 FileStore.empty) twiceRun twicePast :=
  .step (.step (.step (.step (.start 0 none) _) _) _) _

theorem twicePast_apart : HistoryApart .little FileStore.empty twicePast where
  nodup := by decide +kernel
  unmade := fun _ _ => rfl
  announced := by
    have hall : ∀ handling ∈ twicePast,
        ∀ text ∈ handling.message.announced? .little,
          cstr text ∉ historyTemps .little twicePast := by
      decide +kernel
    exact hall

theorem twicePast_succeeds : ∀ handling ∈ twicePast, handling.env.Succeeds := by
  decide +kernel

theorem twicePast_carries : ∀ handling ∈ twicePast,
    Delivery.Carries .little sampleFile [1, 2, 3] handling.message := by
  intro handling hmem block htype _ _ hlt
  have hall : ∀ handling ∈ twicePast,
      handling.message.getType .little = MessageType.block.code →
        handling.message.getText .little = .ok (slice blockSize [1, 2, 3] 0) := by
    decide +kernel
  have hzero : (block.getBlock .little).toNat = 0 := by
    have hone : blockCount blockSize [1, 2, 3] = 1 := by decide
    omega
  rw [hzero]
  exact hall handling hmem htype

theorem twicePast_answered : ∃ handling ∈ twicePast,
    handling.Answers .little sampleFile := by
  have hall : ∃ handling ∈ twicePast,
      handling.message.fileInfo? .little = some sampleFile ∧
        (handling.after .little).messageQueue ≠ handling.client.messageQueue := by
    decide +kernel
  exact hall

theorem twiceRun_served : Served .little sampleFile [1, 2, 3] twicePast twiceRun.client := by
  have hpaths : ∀ handling ∈ twicePast,
      ∀ text ∈ handling.message.announced? .little, cstr text ≠ [] := by
    decide +kernel
  exact twiceRun_observed.served twicePast_apart twicePast_succeeds (by decide)
    twicePast_carries (fun handling hmem _ text htext _ => hpaths handling hmem text htext)
    twicePast_answered

/-- Two paths are announced before the file is published, its goodbye is answered, and
there is no file under the first of them; the second may be taken by another file. -/
theorem twiceRun_first_not_served :
    ClientRun.Observed .little (BlockClient.create .little 0 0 7 5 FileStore.empty) twiceRun
      twicePast ∧
    (∀ handling ∈ twicePast, handling.env.Succeeds) ∧
    (∀ handling ∈ twicePast,
      Delivery.Carries .little sampleFile [1, 2, 3] handling.message) ∧
    twicePast.map (fun handling => (handling.message.fileInfo? .little,
        handling.message.announced? .little)) =
      [(some sampleFile, none), (some sampleFile, none), (some sampleFile, some [98]),
        (some sampleFile, some [97])] ∧
    (∀ handling ∈ twicePast.drop 2, ¬ handling.Publishes .little sampleFile) ∧
    (∃ handling ∈ twicePast, handling.Answers .little sampleFile) ∧
    twiceRun.client.files.file? [98] = some [1, 2, 3] ∧
    twiceRun.client.files.file? [97] = none ∧
    (twiceRun.step .little (staleInput 120 offeredEmpty)).client.files.file? [98] =
      some [] := by
  refine ⟨twiceRun_observed, twicePast_succeeds, twicePast_carries, by decide +kernel, ?_,
    twicePast_answered, by decide +kernel, by decide +kernel, by decide +kernel⟩
  have hnone : ∀ handling ∈ twicePast.drop 2,
      (handling.after .little).trace.filterMap ClientEvent.publication? = [] := by
    decide +kernel
  rintro handling hmem ⟨publication, events, hevents, hnotes⟩
  have hfound := hnone handling hmem
  rw [List.filterMap_eq_nil_iff] at hfound
  have hpublication := hfound (.published sampleFile publication)
    (by rw [hevents]; exact List.mem_append_right _ hnotes)
  exact Option.some_ne_none publication hpublication

end Multisync
