import Multisync.MessageFormats
import Multisync.Publication
import Mathlib.Tactic

/-!
# Transfers do not interfere

Of two clients, one is sent the messages about many files, the other only those
about one of them.  As long as the records are apart, a message about another
file leaves the record of this one alone, and a message about this one does the
same on both sides, although the two records have temporary files of different
names and numbers.
-/

namespace Multisync

open ByteLayout Effects

/-- The two records agree in all but the names and numbers of their temporary
files. -/
structure SameRecord (first second : StatusState) : Prop where
  path : first.status.path = second.status.path
  blockArray : first.status.blockArray = second.status.blockArray
  remaining : first.status.remainingBlocks = second.status.remainingBlocks
  goodbye : first.status.goodbyeReceived = second.status.goodbyeReceived
  isOpen : first.status.output.file.isSome = second.status.output.file.isSome
  position : first.status.output.position = second.status.output.position
  failed : first.status.output.failed = second.status.output.failed
  content : first.files.file? first.status.temp =
    second.files.file? second.status.temp

/-- The record's own name is not its path, and is what it holds open. -/
structure Sound (state : StatusState) : Prop where
  cstr_temp : cstr state.status.temp = state.status.temp
  temp_ne : state.status.temp ≠ cstr state.status.path
  held : ∀ file, state.status.output.file = some file →
    state.files.directory state.status.temp = some file

section Record

variable {order : ByteOrder} {env : Environment} {first second : StatusState}

theorem SameRecord.complete (hsame : SameRecord first second) :
    first.status.Complete ↔ second.status.Complete := by
  unfold SyncStatus.Complete
  rw [hsame.remaining, hsame.path]

/-- Writing a block does the same to both files, or nothing to both. -/
theorem SameRecord.wrote (hsame : SameRecord first second) (hfirst : Sound first)
    (hsecond : Sound second) (block : ℕ) (payload : Bytes) :
    SameRecord (SyncStatus.wrote env block payload first)
      (SyncStatus.wrote env block payload second) := by
  have hopen := hsame.isOpen
  have hfailed := hsame.failed
  by_cases hclosed : first.status.output.failed = true ∨ first.status.output.file = none
  · have hclosed' : second.status.output.failed = true ∨
        second.status.output.file = none := by
      rcases hclosed with h | h
      · exact Or.inl (hfailed ▸ h)
      · rw [h, Option.isSome_none] at hopen
        exact Or.inr (Option.isSome_eq_false_iff.mp hopen.symm |> Option.isNone_iff_eq_none.mp)
    unfold SyncStatus.wrote
    rw [OutStream.seekp_write_closed hclosed, OutStream.seekp_write_closed hclosed']
    exact ⟨hsame.path, hsame.blockArray, hsame.remaining, hsame.goodbye, hopen,
      hsame.position, rfl, hsame.content⟩
  · push Not at hclosed
    obtain ⟨hgood, hsome⟩ := hclosed
    obtain ⟨file, hfile⟩ := Option.ne_none_iff_exists'.mp hsome
    rw [hfile, Option.isSome_some] at hopen
    obtain ⟨file', hfile'⟩ := Option.isSome_iff_exists.mp hopen.symm
    rw [ne_eq, Bool.not_eq_true] at hgood
    have hgood' : second.status.output.failed = false := hfailed ▸ hgood
    have hname := hfirst.held file hfile
    have hname' := hsecond.held file' hfile'
    have hcontent : first.files.contents file = second.files.contents file' := by
      have h := hsame.content
      rw [FileStore.file?, FileStore.file?, hname, hname'] at h
      exact Option.some.inj h
    unfold SyncStatus.wrote
    rw [OutStream.seekp_write_limit hfile hgood, OutStream.seekp_write_limit hfile' hgood']
    refine ⟨hsame.path, hsame.blockArray, hsame.remaining, hsame.goodbye, rfl, rfl, rfl,
      ?_⟩
    simp only
    rw [FileStore.file?_write_self _ hname, FileStore.file?_write_self _ hname',
      hcontent]

theorem SameRecord.marked (hsame : SameRecord first second) (block : ℕ) :
    SameRecord (SyncStatus.marked block first) (SyncStatus.marked block second) := by
  refine ⟨hsame.path, ?_, ?_, hsame.goodbye, hsame.isOpen, hsame.position, hsame.failed,
    hsame.content⟩
  · simp only [SyncStatus.marked, hsame.blockArray]
  · simp only [SyncStatus.marked, hsame.remaining]

/-- Publishing moves both files away, or neither. -/
theorem SameRecord.published (hsame : SameRecord first second)
    (hfirst : Sound first) (hsecond : Sound second) (outcome : PublishOutcome) :
    SameRecord (SyncStatus.published outcome first)
      (SyncStatus.published outcome second) := by
  have hclose : (first.status.output.close outcome.closed).position =
        (second.status.output.close outcome.closed).position ∧
      (first.status.output.close outcome.closed).failed =
        (second.status.output.close outcome.closed).failed := by
    have hopen := hsame.isOpen
    unfold OutStream.close
    cases hfile : first.status.output.file with
    | none =>
        cases hfile' : second.status.output.file with
        | none => exact ⟨hsame.position, rfl⟩
        | some file' => simp [hfile, hfile'] at hopen
    | some file =>
        cases hfile' : second.status.output.file with
        | none => simp [hfile, hfile'] at hopen
        | some file' =>
            refine ⟨hsame.position, ?_⟩
            simp only [hsame.failed]
  have hcontent : (SyncStatus.published outcome first).files.file? first.status.temp =
      (SyncStatus.published outcome second).files.file? second.status.temp := by
    rw [SyncStatus.published_file? outcome hfirst.cstr_temp hfirst.temp_ne,
      SyncStatus.published_file? outcome hsecond.cstr_temp hsecond.temp_ne, hsame.path,
      hsame.content]
  constructor
  · simpa [SyncStatus.published] using hsame.path
  · simpa [SyncStatus.published] using hsame.blockArray
  · simpa [SyncStatus.published] using hsame.remaining
  · simpa [SyncStatus.published] using hsame.goodbye
  · simp [SyncStatus.published]
  · simpa [SyncStatus.published] using hclose.1
  · simpa [SyncStatus.published] using hclose.2
  · simpa [SyncStatus.published] using hcontent

/-- A program a handler runs does the same to both. -/
theorem RecordProgram.lockstep {message : Message} {α : Type}
    {program : EStateM Fault StatusState α}
    (hprogram : RecordProgram order env message program) :
    Lockstep (fun first second => SameRecord first second ∧ Sound first ∧ Sound second)
      program program SameRecord := by
  rintro first second ⟨hsame, hfirst, hsecond⟩
  cases hprogram with
  | setPath htype htext =>
      exact ⟨rfl, rfl, hsame.blockArray, hsame.remaining, hsame.goodbye, hsame.isOpen,
        hsame.position, hsame.failed, hsame.content⟩
  | @writeBlock block htype hblock =>
      rw [SyncStatus.writeBlock_apply, SyncStatus.writeBlock_apply, hsame.blockArray]
      cases second.status.blockArray[(block.getBlock order).toNat]? with
      | none => exact rfl
      | some mark =>
          cases mark with
          | true => exact ⟨rfl, hsame⟩
          | false =>
              cases message.getText order with
              | error fault => exact rfl
              | ok payload =>
                  have hwrote := @SameRecord.wrote env first second hsame hfirst
                    hsecond (block.getBlock order).toNat payload
                  have hfailed := hwrote.failed
                  simp only
                  by_cases h : (SyncStatus.wrote env (block.getBlock order).toNat
                      payload first).status.output.failed = true
                  · rw [if_pos h, if_pos (hfailed ▸ h)]
                  · rw [if_neg h, if_neg (hfailed ▸ h)]
                    exact ⟨trivial, hwrote.marked _⟩
  | setGoodbyeReceived =>
      exact ⟨rfl, hsame.path, hsame.blockArray, hsame.remaining, rfl, hsame.isOpen,
        hsame.position, hsame.failed, hsame.content⟩
  | transferComplete =>
      rw [SyncStatus.transferComplete_apply, SyncStatus.transferComplete_apply]
      by_cases hcomplete : first.status.Complete
      · rw [if_pos hcomplete, if_pos (hsame.complete.mp hcomplete)]
        exact ⟨rfl, hsame.published hfirst hsecond env.first⟩
      · rw [if_neg hcomplete, if_neg (hsame.complete.not.mp hcomplete)]
        exact ⟨rfl, hsame⟩
  | @syncComplete outcome houtcome =>
      rw [SyncStatus.syncComplete_apply, SyncStatus.syncComplete_apply, hsame.goodbye]
      by_cases hcomplete : second.status.goodbyeReceived = true ∧ first.status.Complete
      · rw [if_pos hcomplete, if_pos ⟨hcomplete.1, hsame.complete.mp hcomplete.2⟩]
        exact ⟨rfl, hsame.published hfirst hsecond outcome⟩
      · rw [if_neg hcomplete,
          if_neg fun h => hcomplete ⟨h.1, hsame.complete.mpr h.2⟩]
        exact ⟨rfl, hsame⟩

end Record

/-- Two clients with the same record of a file, or with none, whose records are
apart: `names` and `pending` are those of the first, `names'` and `pending'` those
of the second. -/
structure SameFor (info : FileInfo) (names pending names' pending' : List Bytes)
    (first second : BlockClient) : Prop where
  separate : Separate names pending first
  separate' : Separate names' pending' second
  id : first.id = second.id
  record : Option.Rel
    (fun status status' =>
      SameRecord ⟨status, first.files, []⟩ ⟨status', second.files, []⟩)
    (first.syncSet.find? info) (second.syncSet.find? info)

theorem Apart.sound {names pending : List Bytes} {files : FileStore Bytes}
    {status : SyncStatus} (hapart : Apart names pending files status) :
    Sound ⟨status, files, []⟩ := by
  constructor
  · exact hapart.cstr_temp
  · intro heq
    apply hapart.path_notMem
    rw [← heq]
    exact hapart.temp_mem
  · exact hapart.held

section Clients

variable {order : ByteOrder} {env : Environment} {message : Message}
  {info : FileInfo} {names pending names' pending' : List Bytes}

/-- The path after a program is none of the names of the temporary files. -/
theorem RecordProgram.path_notMem {α : Type} {program : EStateM Fault StatusState α}
    (hprogram : RecordProgram order env message program)
    (hannounced : ∀ text, message.getType order = MessageType.info.code →
      message.getText order = .ok text → cstr text ∉ names)
    {state : StatusState} (hpath : cstr state.status.path ∉ names) :
    cstr (endState (program state)).status.path ∉ names := by
  rcases (hprogram.recordStep state).2 with hsame | ⟨htype, htext⟩
  · rwa [hsame]
  · exact hannounced _ htype htext

theorem onStatus_lockstep {α : Type} {program : EStateM Fault StatusState α}
    (hprogram : RecordProgram order env message program)
    (hannounced : ∀ text, message.getType order = MessageType.info.code →
      message.getText order = .ok text → cstr text ∉ names ∧ cstr text ∉ names') :
    Lockstep (SameFor info names pending names' pending')
      (BlockClient.onStatus info program) (BlockClient.onStatus info program)
      (SameFor info names pending names' pending') := by
  intro first second hrel
  unfold BlockClient.onStatus
  rcases rel_cases hrel.record with
    ⟨hfind, hfind'⟩ | ⟨status, status', hfind, hfind', hsame⟩
  · rw [hfind, hfind']
  rw [hfind, hfind']
  have hapart := hrel.separate.apart info status hfind
  have hapart' := hrel.separate'.apart info status' hfind'
  have hlock := hprogram.lockstep _ _ ⟨hsame, hapart.sound, hapart'.sound⟩
  have hput := hrel.separate.putStatus hfind
    (hprogram.recordStep ⟨status, first.files, []⟩).1
    (hprogram.path_notMem (fun text htype htext =>
      (hannounced text htype htext).1) hapart.path_notMem)
  have hput' := hrel.separate'.putStatus hfind'
    (hprogram.recordStep ⟨status', second.files, []⟩).1
    (hprogram.path_notMem (fun text htype htext =>
      (hannounced text htype htext).2) hapart'.path_notMem)
  cases hrun : program ⟨status, first.files, []⟩ with
  | ok value state =>
      cases hrun' : program ⟨status', second.files, []⟩ with
      | ok value' state' =>
          rw [hrun, hrun'] at hlock
          rw [hrun, endState_ok] at hput
          rw [hrun', endState_ok] at hput'
          simp only [hrun, hrun']
          refine ⟨hlock.1, hput, hput', hrel.id, ?_⟩
          simp only [BlockClient.putStatus]
          rw [OrderedMap.find?_replace_self _ hfind,
            OrderedMap.find?_replace_self _ hfind']
          exact Option.Rel.some ⟨hlock.2.path, hlock.2.blockArray,
            hlock.2.remaining, hlock.2.goodbye, hlock.2.isOpen,
            hlock.2.position, hlock.2.failed, hlock.2.content⟩
      | error fault' state' =>
          rw [hrun, hrun'] at hlock
          exact hlock.elim
  | error fault state =>
      cases hrun' : program ⟨status', second.files, []⟩ with
      | ok value' state' =>
          rw [hrun, hrun'] at hlock
          exact hlock.elim
      | error fault' state' =>
          rw [hrun, hrun'] at hlock
          simp only [hrun, hrun']
          exact hlock

/-- Two streams opened on different stores differ in the file at most. -/
theorem openFile_alike (name name' : Bytes) (permitted : Bool)
    (files files' : FileStore Bytes) :
    (OutStream.openFile name permitted files).1.file.isSome =
        (OutStream.openFile name' permitted files').1.file.isSome ∧
      (OutStream.openFile name permitted files).1.position =
        (OutStream.openFile name' permitted files').1.position ∧
      (OutStream.openFile name permitted files).1.failed =
        (OutStream.openFile name' permitted files').1.failed := by
  cases permitted with
  | false => exact ⟨rfl, rfl, rfl⟩
  | true => exact ⟨rfl, rfl, rfl⟩

/-- Both make a record, each with a fresh temporary file, or neither does. -/
theorem getSyncStatus_lockstep {tmpnam tmpnam' : Bytes} {address : Address}
    (hnil : [] ∉ names) (hnil' : [] ∉ names')
    (hfresh : tempName tmpnam info ∉ pending)
    (hfresh' : tempName tmpnam' info ∉ pending') :
    Lockstep
      (SameFor info names (tempName tmpnam info :: pending) names'
        (tempName tmpnam' info :: pending'))
      (BlockClient.getSyncStatus order { env with tmpnam := tmpnam } info address)
      (BlockClient.getSyncStatus order { env with tmpnam := tmpnam' } info address)
      (SameFor info names pending names' pending') := by
  intro first second hrel
  rw [BlockClient.getSyncStatus_apply, BlockClient.getSyncStatus_apply]
  rcases rel_cases hrel.record with
    ⟨hfind, hfind'⟩ | ⟨status, status', hfind, hfind', _⟩
  · rw [hfind, hfind']
    by_cases hnul : 0 ∈ info.digest
    · obtain ⟨⟨status, files⟩, hok⟩ := SyncStatus.create_of_nul order
        { env with tmpnam := tmpnam } address hnul first.files
      obtain ⟨⟨status', files'⟩, hok'⟩ := SyncStatus.create_of_nul order
        { env with tmpnam := tmpnam' } address hnul second.files
      have hmade := hrel.separate.created hfresh hnil hfind hok
      have hmade' := hrel.separate'.created hfresh' hnil' hfind' hok'
      rw [hok, hok']
      refine ⟨rfl, hmade, hmade', hrel.id, ?_⟩
      obtain ⟨_, rfl, rfl⟩ := SyncStatus.create_eq_ok hok
      obtain ⟨_, rfl, rfl⟩ := SyncStatus.create_eq_ok hok'
      simp only [BlockClient.created]
      rw [OrderedMap.find?_insert_self _ hfind, OrderedMap.find?_insert_self _ hfind']
      obtain ⟨hopen, hposition, hfailed⟩ := openFile_alike (tempName tmpnam info)
        (tempName tmpnam' info) env.opened first.files second.files
      refine Option.Rel.some ⟨rfl, rfl, rfl, rfl, hopen, hposition, hfailed, ?_⟩
      simp only
      rw [OutStream.openFile_file?_self (hrel.separate.unmade _ List.mem_cons_self),
        OutStream.openFile_file?_self (hrel.separate'.unmade _ List.mem_cons_self)]
    · have hcreate : ∀ name files, SyncStatus.create order
          { env with tmpnam := name } info address files = .error .undefined := by
        intro name files
        unfold SyncStatus.create
        rw [if_neg hnul]
      rw [hcreate, hcreate]
  · rw [hfind, hfind']
    refine ⟨rfl, hrel.separate.weaken ?_, hrel.separate'.weaken ?_, hrel.id, hrel.record⟩
    · exact fun name hname => List.mem_cons_of_mem _ hname
    · exact fun name hname => List.mem_cons_of_mem _ hname

theorem eraseStatus_lockstep :
    Lockstep (SameFor info names pending names' pending')
      (BlockClient.eraseStatus info) (BlockClient.eraseStatus info)
      (SameFor info names pending names' pending') := by
  apply Lockstep.modify
  intro first second hrel
  refine ⟨hrel.separate.erased info, hrel.separate'.erased info, hrel.id, ?_⟩
  rw [OrderedMap.find?_erase_self, OrderedMap.find?_erase_self]
  exact Option.Rel.none

theorem answerClient_lockstep (env : Environment) (hannounced : ∀ text,
      message.getType order = MessageType.info.code →
      message.getText order = .ok text → cstr text ∉ names ∧ cstr text ∉ names')
    (clients : Extent) (i : ℕ) :
    Lockstep (SameFor info names pending names' pending')
      (BlockClient.answerClient order info message clients i)
      (BlockClient.answerClient order info message clients i)
      (SameFor info names pending names' pending') := by
  have hanswer : ∀ first second, SameFor info names pending names' pending' first second →
      SameFor info names pending names' pending' (first.answered order info)
        (second.answered order info) := fun first second hrel =>
    ⟨hrel.separate.answered order info, hrel.separate'.answered order info, hrel.id,
      hrel.record⟩
  refine Lockstep.ofResult_bind fun word _ => ?_
  refine Lockstep.get_bind fun first second hrel => ?_
  rw [hrel.id]
  refine Lockstep.ite (fun _ => ?_) fun _ => Lockstep.pure fun _ _ hrel => hrel
  have hset := @onStatus_lockstep order env message info names pending names'
    pending' Unit _ .setGoodbyeReceived hannounced
  exact Lockstep.bind hset fun _ => Lockstep.modify hanswer

/-- The handlers do the same on both sides with a message about the file. -/
theorem handle_lockstep {tmpnam tmpnam' : Bytes} {address : Address}
    (hannounced : ∀ text, message.getType order = MessageType.info.code →
      message.getText order = .ok text → cstr text ∉ names ∧ cstr text ∉ names')
    (hinfo : message.fileInfo? order = some info)
    (hnil : [] ∉ names) (hnil' : [] ∉ names')
    (hfresh : tempName tmpnam info ∉ pending)
    (hfresh' : tempName tmpnam' info ∉ pending') :
    Lockstep
      (SameFor info names (tempName tmpnam info :: pending) names'
        (tempName tmpnam' info :: pending'))
      (BlockClient.handle order { env with tmpnam := tmpnam } message address)
      (BlockClient.handle order { env with tmpnam := tmpnam' } message address)
      (SameFor info names pending names' pending') := by
  have hget := @getSyncStatus_lockstep order env info names pending names' pending'
    tmpnam tmpnam' address hnil hnil' hfresh hfresh'
  have hrecord : ∀ {α : Type} {program : EStateM Fault StatusState α},
      RecordProgram order env message program →
        Lockstep (SameFor info names pending names' pending')
          (BlockClient.onStatus info program) (BlockClient.onStatus info program)
          (SameFor info names pending names' pending') := fun hprogram =>
    onStatus_lockstep hprogram hannounced
  -- The last two lines of every handler.
  have hfinish : ∀ outcome, outcome = env.first ∨ outcome = env.second →
      Lockstep (SameFor info names pending names' pending')
        (BlockClient.onStatus info (SyncStatus.syncComplete outcome) >>= fun complete =>
          if complete then BlockClient.eraseStatus info else pure ())
        (BlockClient.onStatus info (SyncStatus.syncComplete outcome) >>= fun complete =>
          if complete then BlockClient.eraseStatus info else pure ())
        (SameFor info names pending names' pending') := by
    intro outcome houtcome
    refine Lockstep.bind (hrecord (.syncComplete houtcome)) fun complete => ?_
    exact Lockstep.ite (fun _ => eraseStatus_lockstep) fun _ =>
      Lockstep.pure fun _ _ hrel => hrel
  unfold BlockClient.handle
  refine Lockstep.ite (fun htype => ?_) fun hinfotype =>
    Lockstep.ite (fun htype => ?_) fun hblocktype =>
      Lockstep.ite (fun htype => ?_) fun htype => ?_
  · refine Lockstep.ofResult_bind fun named hmetadata => ?_
    rw [Message.fileInfo?_of_named (Or.inl htype) hmetadata] at hinfo
    cases hinfo
    refine Lockstep.bind hget fun _ => ?_
    refine Lockstep.ofResult_bind fun text htext => ?_
    refine Lockstep.bind (hrecord (.setPath htype htext)) fun _ => ?_
    exact hfinish _ (Or.inl rfl)
  · refine Lockstep.ofResult_bind fun block hmetadata => ?_
    rw [Message.fileInfo?_of_block htype hmetadata] at hinfo
    cases hinfo
    refine Lockstep.bind hget fun _ => ?_
    refine Lockstep.bind (hrecord (.writeBlock htype hmetadata)) fun _ => ?_
    exact hfinish _ (Or.inl rfl)
  · refine Lockstep.ofResult_bind fun named hmetadata => ?_
    rw [Message.fileInfo?_of_named (Or.inr htype) hmetadata] at hinfo
    cases hinfo
    refine Lockstep.bind hget fun _ => ?_
    refine Lockstep.bind (hrecord .transferComplete) fun complete => ?_
    have hlast := hfinish _ (Or.inr rfl)
    refine Lockstep.ite (fun _ => ?_) fun _ => hlast
    refine Lockstep.ofResult_bind fun clients _ => ?_
    refine Lockstep.bind (Lockstep.forM (fun i => ?_) _) fun _ => hlast
    exact answerClient_lockstep env hannounced clients i
  · have hnone : message.fileInfo? order = none := by
      simp [Message.fileInfo?, hinfotype, hblocktype, htype]
    rw [hnone] at hinfo
    contradiction

end Clients

/-- What the client knows of a file, with the bytes of its temporary file. -/
structure RecordView where
  path : Bytes
  blockArray : List Bool
  remainingBlocks : ℕ
  goodbyeReceived : Bool
  content : Option Bytes
  deriving DecidableEq, Repr

def BlockClient.recordOf (client : BlockClient) (info : FileInfo) :
    Option RecordView :=
  (client.syncSet.find? info).map fun status => {
    path := status.path
    blockArray := status.blockArray
    remainingBlocks := status.remainingBlocks
    goodbyeReceived := status.goodbyeReceived
    content := client.files.file? status.temp }

/-- The same datagram, met by the same environment but for the fresh name. -/
def Delivery.withName (delivery : Delivery) (tmpnam : Bytes) : Delivery :=
  { delivery with env := { delivery.env with tmpnam := tmpnam } }

/-- The two differ in the fresh name at most. -/
def Delivery.Renamed (delivery delivery' : Delivery) : Prop :=
  ∃ tmpnam, delivery' = delivery.withName tmpnam

section Runs

variable {order : ByteOrder} {info : FileInfo} {first second : BlockClient}
  {names pending names' pending' : List Bytes} {delivery : Delivery}

theorem SameFor.recordOf (hrel : SameFor info names pending names' pending' first second) :
    first.recordOf info = second.recordOf info := by
  unfold BlockClient.recordOf
  rcases rel_cases hrel.record with
    ⟨hfind, hfind'⟩ | ⟨status, status', hfind, hfind', hsame⟩
  · rw [hfind, hfind']
    rfl
  · have hcontent : first.files.file? status.temp = second.files.file? status'.temp :=
      hsame.content
    have hpath : status.path = status'.path := hsame.path
    have hblocks : status.blockArray = status'.blockArray := hsame.blockArray
    have hremaining : status.remainingBlocks = status'.remainingBlocks := hsame.remaining
    have hgoodbye : status.goodbyeReceived = status'.goodbyeReceived := hsame.goodbye
    rw [hfind, hfind', Option.map_some, Option.map_some, hcontent, hpath, hblocks,
      hremaining, hgoodbye]

/-- A message about another file, which only the first client gets. -/
theorem deliver_other {mid : BlockClient}
    (hrel : SameFor info names ((delivery.tempFile? order).toList ++ pending) names'
      pending' first second)
    (hother : delivery.fileInfo? order ≠ some info) (hnil : [] ∉ names)
    (hannounced : ∀ text, delivery.Announces order text → cstr text ∉ names)
    (hfresh : ∀ name ∈ delivery.tempFile? order, name ∉ pending)
    (hok : BlockClient.deliver order delivery first = .ok () mid) :
    SameFor info names pending names' pending' mid second := by
  have huntouched := @BlockClient.deliver_triple order delivery
    (fun client => Separate names ((delivery.tempFile? order).toList ++ pending) client ∧
      Untouched info first client)
    (fun client => Separate names pending client ∧ Untouched info first client)
    (BlockClient.handle_untouched hnil
      (fun text htype htext => hannounced text ⟨htype, htext⟩) hfresh hother)
    (fun client sender hclient => ⟨hclient.1.heardFrom sender,
      hclient.2.trans (Untouched.heardFrom sender)⟩)
    (fun client hclient =>
      ⟨hclient.1.weaken fun name hname => List.mem_append_right _ hname, hclient.2⟩)
  have hid := @BlockClient.deliver_triple order delivery
    (fun client => client.id = first.id) (fun client => client.id = first.id)
    (BlockClient.handle_keeps_of_records (fun _ hclient _ _ _ => hclient)
      fun _ hclient => hclient)
    (fun _ _ hclient => hclient) (fun _ hclient => hclient)
  obtain ⟨hseparate, hsame⟩ := huntouched.ok ⟨hrel.separate, Untouched.refl info first⟩ hok
  refine ⟨hseparate, hrel.separate', (hid.ok rfl hok).trans hrel.id, ?_⟩
  rw [hsame.record]
  rcases rel_cases hrel.record with
    ⟨hfind, hfind'⟩ | ⟨status, status', hfind, hfind', hstatus⟩
  · rw [hfind, hfind']
    exact Option.Rel.none
  · rw [hfind, hfind']
    refine Option.Rel.some ⟨hstatus.path, hstatus.blockArray, hstatus.remaining,
      hstatus.goodbye, hstatus.isOpen, hstatus.position, hstatus.failed, ?_⟩
    rw [← hstatus.content]
    exact hsame.file status hfind

theorem deliver_withName (tmpnam : Bytes) (client : BlockClient) :
    BlockClient.deliver order (delivery.withName tmpnam) client =
      if delivery.datagram = [] then
        .error .receivedZeroBytes (client.heardFrom delivery.sender)
      else if delivery.message.Framed order then
        BlockClient.handle order { delivery.env with tmpnam := tmpnam }
          delivery.message delivery.sender (client.heardFrom delivery.sender)
      else .error .invalidPacketLength (client.heardFrom delivery.sender) :=
  BlockClient.deliver_apply (delivery.withName tmpnam) client

/-- A message about the file, which both get. -/
theorem deliver_lockstep {delivery' : Delivery} (hrenamed : delivery.Renamed delivery')
    (hinfo : delivery.fileInfo? order = some info) (hnil : [] ∉ names)
    (hnil' : [] ∉ names')
    (hannounced : ∀ text, delivery.Announces order text → cstr text ∉ names)
    (hannounced' : ∀ text, delivery'.Announces order text → cstr text ∉ names')
    (hfresh : ∀ name ∈ delivery.tempFile? order, name ∉ pending)
    (hfresh' : ∀ name ∈ delivery'.tempFile? order, name ∉ pending') :
    Lockstep
      (SameFor info names ((delivery.tempFile? order).toList ++ pending) names'
        ((delivery'.tempFile? order).toList ++ pending'))
      (BlockClient.deliver order delivery) (BlockClient.deliver order delivery')
      (SameFor info names pending names' pending') := by
  obtain ⟨name, rfl⟩ := hrenamed
  have hmessage : delivery.message.fileInfo? order = some info := hinfo
  have htemp : ∀ name, Message.tempFile? order name delivery.message =
      some (tempName name info) := by
    intro name
    rw [Message.tempFile?, hmessage, Option.map_some]
  have hname : delivery.tempFile? order = some (tempName delivery.env.tmpnam info) :=
    htemp _
  have hname' : (delivery.withName name).tempFile? order =
      some (tempName name info) := htemp name
  rw [hname, hname']
  have hhandle := @handle_lockstep order delivery.env delivery.message info names pending
    names' pending' delivery.env.tmpnam name delivery.sender
    (fun text htype htext =>
      ⟨hannounced text ⟨htype, htext⟩, hannounced' text ⟨htype, htext⟩⟩)
    hmessage hnil hnil' (hfresh _ hname) (hfresh' _ hname')
  intro first second hrel
  have hheard : SameFor info names (tempName delivery.env.tmpnam info :: pending) names'
      (tempName name info :: pending') (first.heardFrom delivery.sender)
      (second.heardFrom delivery.sender) :=
    ⟨hrel.separate.heardFrom _, hrel.separate'.heardFrom _, hrel.id, hrel.record⟩
  rw [BlockClient.deliver_apply, deliver_withName]
  by_cases hempty : delivery.datagram = []
  · rw [if_pos hempty, if_pos hempty]
  · rw [if_neg hempty, if_neg hempty]
    by_cases hframed : delivery.message.Framed order
    · rw [if_pos hframed, if_pos hframed]
      exact hhandle _ _ hheard
    · rw [if_neg hframed, if_neg hframed]

/-- The first client gets all messages, the second those about the file. -/
theorem deliveries_lockstep {deliveries deliveries' : List Delivery}
    {final : BlockClient}
    (hrel : SameFor info names (BlockClient.tempFiles order deliveries) names'
      (BlockClient.tempFiles order deliveries') first second)
    (hmatch : List.Forall₂ Delivery.Renamed
      (deliveries.filter fun delivery => delivery.fileInfo? order = some info) deliveries')
    (hnil : [] ∉ names) (hnil' : [] ∉ names')
    (hannounced : ∀ delivery ∈ deliveries, ∀ text,
      delivery.Announces order text → cstr text ∉ names)
    (hannounced' : ∀ delivery ∈ deliveries', ∀ text,
      delivery.Announces order text → cstr text ∉ names')
    (hnodup : (BlockClient.tempFiles order deliveries).Nodup)
    (hnodup' : (BlockClient.tempFiles order deliveries').Nodup)
    (hok : deliveries.forM (BlockClient.deliver order) first = .ok () final) :
    ∃ final', deliveries'.forM (BlockClient.deliver order) second = .ok () final' ∧
      SameFor info names [] names' [] final final' := by
  induction deliveries generalizing deliveries' first second with
  | nil =>
      cases hmatch
      cases hok
      exact ⟨second, rfl, hrel⟩
  | cons delivery rest ih =>
      obtain ⟨_, mid, hdeliver, hrest⟩ := bind_eq_ok hok
      rw [BlockClient.tempFiles_cons] at hnodup hrel
      have hdisjoint := (List.nodup_append.mp hnodup).2.2
      have hfresh : ∀ name ∈ delivery.tempFile? order,
          name ∉ BlockClient.tempFiles order rest := fun name hname hmem =>
        hdisjoint name (Option.mem_toList.mpr hname) name hmem rfl
      have hself := hannounced delivery List.mem_cons_self
      have hothers := fun other hother =>
        hannounced other (List.mem_cons_of_mem delivery hother)
      by_cases hinfo : delivery.fileInfo? order = some info
      · rw [List.filter_cons_of_pos (by simpa using hinfo)] at hmatch
        cases hmatch with
        | @cons _ delivery' _ rest' hrenamed hmatch =>
        rw [BlockClient.tempFiles_cons] at hnodup' hrel
        have hdisjoint' := (List.nodup_append.mp hnodup').2.2
        have hlock := deliver_lockstep hrenamed hinfo hnil hnil' hself
          (hannounced' delivery' List.mem_cons_self) hfresh fun name hname hmem =>
            hdisjoint' name (Option.mem_toList.mpr hname) name hmem rfl
        obtain ⟨mid', hdeliver', hmid⟩ := hlock.ok hrel hdeliver
        obtain ⟨final', hfinal', hfinal⟩ := ih hmid hmatch hothers
          (fun other hother => hannounced' other (List.mem_cons_of_mem delivery' hother))
          (List.nodup_append.mp hnodup).2.1 (List.nodup_append.mp hnodup').2.1 hrest
        refine ⟨final', ?_, hfinal⟩
        rw [forM_cons, bind_of_ok hdeliver']
        exact hfinal'
      · rw [List.filter_cons_of_neg (by simpa using hinfo)] at hmatch
        have hmid := deliver_other hrel hinfo hnil hself hfresh hdeliver
        exact ih hmid hmatch hothers hannounced' (List.nodup_append.mp hnodup).2.1
          hnodup' hrest

/-- The record of a file does not depend on the messages about other files. -/
theorem BlockClient.recordOf_eq_filtered {client final : BlockClient}
    {deliveries deliveries' : List Delivery} (info : FileInfo)
    (hempty : client.syncSet = OrderedMap.empty)
    (hmatch : List.Forall₂ Delivery.Renamed
      (deliveries.filter fun delivery => delivery.fileInfo? order = some info) deliveries')
    (hnames : NamesApart order client.files deliveries)
    (hnames' : NamesApart order client.files deliveries')
    (hok : deliveries.forM (deliver order) client = .ok () final) :
    ∃ final', deliveries'.forM (deliver order) client = .ok () final' ∧
      final'.recordOf info = final.recordOf info := by
  have hnone : ∀ other, client.syncSet.find? other = none := by
    intro other
    rw [hempty, OrderedMap.find?_empty]
  have hstart : SameFor info (tempFiles order deliveries) (tempFiles order deliveries)
      (tempFiles order deliveries') (tempFiles order deliveries') client client := by
    refine ⟨hnames.separate hnone, hnames'.separate hnone, rfl, ?_⟩
    rw [hnone]
    exact Option.Rel.none
  obtain ⟨final', hfinal', hrel⟩ := deliveries_lockstep hstart hmatch
    (nil_notMem_tempFiles deliveries) (nil_notMem_tempFiles deliveries') hnames.announced
    hnames'.announced hnames.nodup hnames'.nodup hok
  exact ⟨final', hfinal', hrel.recordOf.symm⟩

end Runs

/-- Two messages about one file, and between them the announcement of another. -/
def mixedDeliveries (first between second : Bytes) : List Delivery :=
  [⟨⟨0, 0⟩, (Message.withText .little 9 MessageType.block.code
      (BlockInfo.ofBlock .little sampleFile 0) [1, 2, 3]).buffer,
    Environment.plain first false⟩,
  ⟨⟨0, 0⟩, (Message.withText .little 9 MessageType.info.code emptyFile [98]).buffer,
    Environment.plain between true⟩,
  ⟨⟨0, 0⟩, (Message.withText .little 9 MessageType.info.code sampleFile [97]).buffer,
    Environment.plain second false⟩]

theorem mixedDeliveries_recordOf : ∃ final final',
    (mixedDeliveries [116] [117] [118]).forM (BlockClient.deliver .little)
        sampleClient = .ok () final ∧
      ((mixedDeliveries [119] [117] [120]).eraseIdx 1).forM (BlockClient.deliver .little)
        sampleClient = .ok () final' ∧
      final'.recordOf sampleFile = final.recordOf sampleFile := by
  have hok := eq_ok_of_returns (show Returns ((mixedDeliveries [116] [117] [118]).forM
    (BlockClient.deliver .little) sampleClient) = true by decide +kernel)
  have hmatch : List.Forall₂ Delivery.Renamed
      ((mixedDeliveries [116] [117] [118]).filter fun delivery =>
        delivery.fileInfo? .little = some sampleFile)
      ((mixedDeliveries [119] [117] [120]).eraseIdx 1) := by
    have hfilter : ((mixedDeliveries [116] [117] [118]).filter fun delivery =>
        delivery.fileInfo? .little = some sampleFile) =
          (mixedDeliveries [116] [117] [118]).eraseIdx 1 := by
      decide +kernel
    rw [hfilter]
    exact .cons ⟨[119], rfl⟩ (.cons ⟨[120], rfl⟩ .nil)
  obtain ⟨final', hfinal', hrecord⟩ := BlockClient.recordOf_eq_filtered sampleFile rfl
    hmatch
    (.of_announced (by decide +kernel) (fun _ _ => rfl) (by decide +kernel))
    (.of_announced (by decide +kernel) (fun _ _ => rfl) (by decide +kernel)) hok
  exact ⟨_, final', hok, hfinal', hrecord⟩

example : (endState ((mixedDeliveries [116] [117] [118]).forM
    (BlockClient.deliver .little) sampleClient)).recordOf sampleFile =
      some ⟨[97], [true], 0, false, some [1, 2, 3]⟩ := by
  decide +kernel

end Multisync
