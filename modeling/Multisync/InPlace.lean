import Multisync.Acknowledgements
import Mathlib.Tactic

/-!
# A goodbye and the place of the file

A goodbye is to be queued, and a record given up, only for a file whose temporary file
was closed and renamed.  The results of closing and of renaming are not looked at.
-/

namespace Multisync

open ByteLayout Effects Temporal

namespace Handling

variable (order : ByteOrder) (info : FileInfo) (target : Bytes) (handling : Handling)

/-- The path of the record in the call: the announced one, or the one it had. -/
def path : Bytes :=
  (handling.message.announced? order).getD
    (((handling.client.syncSet.find? info).map SyncStatus.path).getD [])

/-- The call closes the open output of the record, and closing succeeds. -/
def Closes : Prop :=
  ∃ mid status, handling.Asked order info mid status ∧ status.output.file ≠ none ∧
    handling.env.first.closed = true

/-- The call closes the open output of the record, whose path is then the target. -/
def ClosesWith : Prop :=
  ∃ mid status, handling.Asked order info mid status ∧ status.output.file ≠ none ∧
    status.path = target

/-- A renaming of the temporary file to the target takes effect. -/
def Renames : Prop :=
  ∃ publication, handling.Notes order (.published info publication) ∧
    publication.path = target

/-- The call queues a goodbye for the file. -/
def Answers : Prop :=
  handling.message.fileInfo? order = some info ∧
    (handling.after order).messageQueue ≠ handling.client.messageQueue

/-- Nothing goes wrong with the temporary file of a record: it is opened when the record
is made, and when the transfer is found complete it can be closed and renamed, unless it
was closed before and the record has the path that it had then. -/
structure FileInHand (earlier : List Handling) : Prop where
  opened : ∀ info, handling.message.fileInfo? order = some info →
    handling.client.syncSet.find? info = none → handling.env.opened = true
  closed : ∀ info mid status, handling.Asked order info mid status →
    status.output.file ≠ none → handling.env.first.closed = true
  renamed : ∀ info mid status, handling.Asked order info mid status →
    (status.output.file ≠ none ∨ ¬ Since (Handling.HasRecord info)
      (Handling.ClosesWith order info status.path) earlier) →
    handling.env.first.renamed = true ∧ cstr status.path ≠ [] ∧
      mid.files.file? (cstr status.temp) ≠ none

end Handling

/-- In every call that queues a goodbye for a file or gives up its record, or in an
earlier one since the record was made, the temporary file was closed, and it was renamed
to the path that the record has in the call. -/
def AnswersInPlace (order : ByteOrder) : List Handling → Prop :=
  Always fun handling earlier => ∀ info,
    handling.Answers order info ∨ handling.Notes order (.erased info) →
      Since (Handling.HasRecord info) (Handling.Closes order info) (handling :: earlier) ∧
      Since (Handling.HasRecord info)
        (Handling.Renames order info (handling.path order info)) (handling :: earlier)

namespace BlockClient

/-- An output that is closed was closed by a call. -/
def ClosedByCalls (order : ByteOrder) (client : BlockClient) (past : List Handling) :
    Prop :=
  ∀ info status, client.syncSet.find? info = some status → status.output.file = none →
    Since (Handling.HasRecord info) (Handling.Closes order info) past

end BlockClient

section Calls

variable {order : ByteOrder} {info : FileInfo} {handling : Handling}
  {past : List Handling} {mid : BlockClient} {status base : SyncStatus}

theorem hasRecord_of_find? (hfind : handling.client.syncSet.find? info = some status) :
    handling.HasRecord info := by
  rw [Handling.HasRecord, hfind]
  exact Option.some_ne_none _

/-- A record whose output is closed was there before. -/
theorem Handling.Base.found (hbase : handling.Base order info base)
    (hinfo : handling.message.fileInfo? order = some info)
    (hinHand : handling.FileInHand order past) (hfile : base.output.file = none) :
    handling.client.syncSet.find? info = some base := by
  obtain ⟨held, hholding⟩ := hbase
  cases hholding with
  | found hfind => exact hfind
  | made hnone hcreate =>
      obtain ⟨_, hstatus, _⟩ := SyncStatus.create_eq_ok hcreate
      rw [hstatus] at hfile
      simp [OutStream.openFile, hinHand.opened info hinfo hnone] at hfile

theorem Handling.Base.closedByCalls (hbase : handling.Base order info base)
    (hclosed : handling.client.ClosedByCalls order past)
    (hinfo : handling.message.fileInfo? order = some info)
    (hinHand : handling.FileInHand order past) (hfile : base.output.file = none) :
    Since (Handling.HasRecord info) (Handling.Closes order info) (handling :: past) :=
  have hfind := hbase.found hinfo hinHand hfile
  .earlier (hasRecord_of_find? hfind) (hclosed info base hfind hfile)

/-- The path of the record that the call works on. -/
theorem Handling.Updates.path_eq (hupdates : handling.Updates order base status)
    (hbase : handling.Base order info base) : status.path = handling.path order info := by
  have hpath : base.path =
      ((handling.client.syncSet.find? info).map SyncStatus.path).getD [] := by
    obtain ⟨held, hholding⟩ := hbase
    cases hholding with
    | found hfind =>
        rw [hfind]
        rfl
    | made hnone hcreate =>
        obtain ⟨_, hstatus, _⟩ := SyncStatus.create_eq_ok hcreate
        rw [hnone, hstatus]
        rfl
  rw [hupdates.path, hpath, Handling.path]

/-- A renaming that can take effect is made to the path of the record. -/
theorem SyncStatus.published_of_permitted {outcome : PublishOutcome} {state : StatusState}
    (hrenamed : outcome.renamed = true) (hpath : cstr state.status.path ≠ [])
    (htemp : state.files.file? (cstr state.status.temp) ≠ none) :
    ∃ publication ∈ (published outcome state).publications,
      publication.path = state.status.path := by
  obtain ⟨content, hcontent⟩ := Option.ne_none_iff_exists'.mp htemp
  rw [published, renameTemp, if_pos ⟨hrenamed, hpath⟩, hcontent]
  exact ⟨_, List.mem_append_right _ List.mem_cons_self, rfl⟩

/-- A call that finds the transfer complete renames the file, if that can take effect. -/
theorem Handling.Asked.renames (hasked : handling.Asked order info mid status)
    (hinHand : handling.FileInHand order past)
    (hdue : status.output.file ≠ none ∨ ¬ Since (Handling.HasRecord info)
      (Handling.ClosesWith order info status.path) past) :
    handling.Renames order info status.path := by
  obtain ⟨hrenamed, hpath, htemp⟩ := hinHand.renamed info mid status hasked hdue
  obtain ⟨publication, hmem, hto⟩ := @SyncStatus.published_of_permitted _
    ⟨status, mid.files, []⟩ hrenamed hpath htemp
  exact ⟨publication, hasked.notes_published hmem, hto⟩

/-- When the transfer is found complete, the file is put into its place or is there. -/
theorem Handling.Asked.inPlace (hasked : handling.Asked order info mid status)
    (hbase : handling.Base order info base) (hupdates : handling.Updates order base status)
    (hclosed : handling.client.ClosedByCalls order past)
    (hinHand : handling.FileInHand order past)
    (hpast : Always (Handling.FileInHand order) past) :
    Since (Handling.HasRecord info) (Handling.Closes order info) (handling :: past) ∧
    Since (Handling.HasRecord info) (Handling.Renames order info (handling.path order info))
      (handling :: past) := by
  rw [← hupdates.path_eq hbase]
  by_cases hopen : status.output.file = none
  · have hfile : base.output.file = none := hupdates.file ▸ hopen
    refine ⟨hbase.closedByCalls hclosed hasked.about hinHand hfile, ?_⟩
    by_cases hsince : Since (Handling.HasRecord info)
        (Handling.ClosesWith order info status.path) past
    · -- the call that closed the output with this path renamed the file to it
      refine .earlier (hasRecord_of_find? (hbase.found hasked.about hinHand hfile)) ?_
      refine hsince.of_always hpast ?_
      rintro entry earlier hentry ⟨_, found, hfound, hwas, hpath⟩
      exact hpath ▸ hfound.renames hentry (Or.inl hwas)
    · exact .now (hasked.renames hinHand (Or.inr hsince))
  · exact ⟨.now ⟨mid, status, hasked, hopen, hinHand.closed info mid status hasked hopen⟩,
      .now (hasked.renames hinHand (Or.inl hopen))⟩

theorem Handling.inPlace (hclosed : handling.client.ClosedByCalls order past)
    (hinHand : handling.FileInHand order past)
    (hpast : Always (Handling.FileInHand order) past) :
    (handling.after order).ClosedByCalls order (handling :: past) ∧
      ∀ info, handling.Answers order info ∨ handling.Notes order (.erased info) →
        Since (Handling.HasRecord info) (Handling.Closes order info)
          (handling :: past) ∧
        Since (Handling.HasRecord info)
          (Handling.Renames order info (handling.path order info)) (handling :: past) := by
  constructor
  · intro info status hfind hfile
    by_cases hinfo : handling.message.fileInfo? order = some info
    · cases Handling.outcome hinfo with
      | quiet hrecord _ _ _ =>
          obtain ⟨base, hbase, hupdates⟩ := hrecord status hfind
          exact hbase.closedByCalls hclosed hinfo hinHand (hupdates.file ▸ hfile)
      | asked hasked hbase hupdates _ _ _ =>
          exact (hasked.inPlace hbase hupdates hclosed hinHand hpast).1
    · rw [(Handling.kept hinfo).1] at hfind
      exact .earlier (hasRecord_of_find? hfind) (hclosed info status hfind hfile)
  · intro info hends
    by_cases hinfo : handling.message.fileInfo? order = some info
    · cases Handling.outcome hinfo with
      | quiet _ _ hevents hqueue =>
          rcases hends with ⟨_, hqueued⟩ | hnotes
          · exact absurd hqueue hqueued
          · obtain ⟨temp, heq⟩ := hevents _ hnotes
            contradiction
      | asked hasked hbase hupdates _ _ _ =>
          exact hasked.inPlace hbase hupdates hclosed hinHand hpast
    · rcases hends with ⟨hsame, _⟩ | hnotes
      · exact absurd hsame hinfo
      · exact absurd rfl ((Handling.kept hinfo).2 _ hnotes)

end Calls

/-- A goodbye means that the file is in its place, in every run in which nothing goes
wrong with the temporary files. -/
theorem ClientRun.Observed.answersInPlace {order : ByteOrder} {group : UInt32}
    {port : UInt16} {pid id : UInt32} {files : FileStore Bytes} {run : ClientRun}
    {past : List Handling}
    (hrun : ClientRun.Observed order (BlockClient.create order group port pid id files)
      run past)
    (hinHand : Always (Handling.FileInHand order) past) :
    AnswersInPlace order past := by
  let I : BlockClient → List Handling → Prop := fun client past =>
    Always (Handling.FileInHand order) past →
      client.ClosedByCalls order past ∧ AnswersInPlace order past
  have hinvariant : I run.client past := by
    apply hrun.holds
    · refine fun _ => ⟨fun info status hfind => ?_, always_nil⟩
      rw [BlockClient.create, OrderedMap.find?_empty] at hfind
      contradiction
    · rintro client _ past ⟨socket, queue, rfl⟩ hclient
      exact hclient
    · intro handling past hclient hall
      obtain ⟨hhandling, hpast⟩ := always_cons.mp hall
      obtain ⟨hclosed, hanswers⟩ := hclient hpast
      obtain ⟨hclosed', hanswered⟩ := Handling.inPlace hclosed hhandling hpast
      exact ⟨hclosed', always_cons.mpr ⟨hanswered, hanswers⟩⟩
  exact (hinvariant hinHand).2

/-- The record is the only one that a call can ask about. -/
theorem Handling.fileInHand_of_prepared {order : ByteOrder} {info : FileInfo}
    {handling : Handling} {earlier : List Handling}
    (hinfo : handling.message.fileInfo? order = some info)
    (hopened : handling.env.opened = true) (hfirst : handling.env.first = ⟨true, true⟩)
    (hplace : ((endState (BlockClient.prepare order handling.env handling.message
        handling.address info handling.client)).syncSet.find? info).map (fun status =>
      decide (cstr status.path ≠ [] ∧ (endState (BlockClient.prepare order handling.env
        handling.message handling.address info handling.client)).files.file?
          (cstr status.temp) ≠ none)) = some true) :
    handling.FileInHand order earlier := by
  refine ⟨fun _ _ _ => hopened, fun _ _ _ _ _ => by rw [hfirst], ?_⟩
  intro other mid status hasked _
  cases hinfo.symm.trans hasked.about
  rw [hasked.prepared, endState_ok, hasked.find, Option.map_some, Option.some_inj] at hplace
  rw [hfirst]
  exact ⟨rfl, of_decide_eq_true hplace⟩

theorem answeredPast_answersInPlace : AnswersInPlace .little answeredPast := by
  have hcalls : ∀ handling ∈ answeredPast,
      handling.message.fileInfo? .little = some sampleFile ∧
      handling.env.opened = true ∧ handling.env.first = ⟨true, true⟩ ∧
      ((endState (BlockClient.prepare .little handling.env handling.message
          handling.address sampleFile handling.client)).syncSet.find? sampleFile).map
        (fun status => decide (cstr status.path ≠ [] ∧ (endState (BlockClient.prepare .little
          handling.env handling.message handling.address sampleFile
            handling.client)).files.file? (cstr status.temp) ≠ none)) = some true := by
    decide +kernel
  refine answeredRun_observed.answersInPlace fun handling earlier hsuffix => ?_
  obtain ⟨hinfo, hopened, hfirst, hplace⟩ :=
    hcalls handling (hsuffix.subset List.mem_cons_self)
  exact Handling.fileInHand_of_prepared hinfo hopened hfirst hplace

/-- A wait that ends with the message; the temporary file cannot be renamed. -/
def stuckInput (tmpnam : UInt8) (message : Message) : ClientInput :=
  { namedInput tmpnam message with
    env := { Environment.plain [tmpnam] false with
      first := ⟨true, false⟩
      second := ⟨true, false⟩ } }

/-- A client that was offered a file, cannot rename it and has answered its goodbye. -/
def stuckRun : ClientRun :=
  ((sampleStart.step .little (stuckInput 116 offeredInfo)).step .little
    (stuckInput 117 offeredBlock)).step .little (stuckInput 118 offeredGoodbye)

def stuckPast : List Handling :=
  (((sampleStart.step .little (stuckInput 116 offeredInfo)).step .little
      (stuckInput 117 offeredBlock)).handling? .little
        (stuckInput 118 offeredGoodbye)).toList ++
    (((sampleStart.step .little (stuckInput 116 offeredInfo)).handling? .little
      (stuckInput 117 offeredBlock)).toList ++
    ((sampleStart.handling? .little (stuckInput 116 offeredInfo)).toList ++ []))

/-- A goodbye is queued for a file that is not in its place. -/
theorem stuckPast_not_answersInPlace :
    ClientRun.Observed .little (BlockClient.create .little 0 0 7 5 FileStore.empty) stuckRun
      stuckPast ∧
    ¬ AnswersInPlace .little stuckPast := by
  refine ⟨.step (.step (.step (.start 0 none) _) _) _, fun hanswers => ?_⟩
  have hqueued : stuckPast.head?.map (fun handling =>
      decide (handling.message.fileInfo? .little = some sampleFile ∧
        (handling.after .little).messageQueue.length = 2 ∧
          handling.client.messageQueue.length = 1)) = some true := by
    decide +kernel
  have hnone : ∀ handling ∈ stuckPast, ∀ event ∈ (handling.after .little).trace,
      (match event with | .published _ _ => false | _ => true) = true := by
    decide +kernel
  obtain ⟨handling, hhead, hlengths⟩ := Option.map_eq_some_iff.mp hqueued
  obtain ⟨hinfo, hafter, hbefore⟩ := of_decide_eq_true hlengths
  obtain ⟨earlier, hpast⟩ := List.head?_eq_some_iff.mp hhead
  have hanswered : handling.Answers .little sampleFile := by
    refine ⟨hinfo, fun hsame => ?_⟩
    rw [hsame, hbefore] at hafter
    contradiction
  obtain ⟨_, hrenames⟩ := hanswers handling earlier (by rw [hpast]) sampleFile
    (Or.inl hanswered)
  obtain ⟨entry, hentry, publication, ⟨events, hevents, hmem⟩, _⟩ := hrenames.exists_mem
  rw [← hpast] at hentry
  have hfalse := hnone entry hentry (.published sampleFile publication)
    (by rw [hevents]; exact List.mem_append_right _ hmem)
  exact Bool.false_ne_true hfalse

end Multisync
