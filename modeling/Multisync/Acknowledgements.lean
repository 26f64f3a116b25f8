import Multisync.Histories
import Multisync.RepeatedGoodbyes
import Mathlib.Tactic

/-!
# The end of an entry

An entry is to end only when the goodbye of the server has been heard for it.  The
flag that says so is not initialised, and an entry whose flag starts out set ends as
soon as its transfer is complete.
-/

namespace Multisync

open ByteLayout Effects Temporal

namespace Handling

/-- A goodbye for the file, whose list holds the word, meets a complete record. -/
structure Acknowledges (order : ByteOrder) (name : UInt32) (info : FileInfo)
    (handling : Handling) : Prop where
  type : handling.message.getType order = MessageType.sgoodbye.code
  metadata : handling.message.getMetadata order FileInfo = .ok info
  names : handling.message.Lists order name
  complete : ∃ status, handling.client.syncSet.find? info = some status ∧ status.Complete

/-- The goodbye is for a file that has a complete record. -/
def MeetsComplete (order : ByteOrder) (handling : Handling) : Prop :=
  ∃ info status, handling.message.getMetadata order FileInfo = .ok info ∧
    handling.client.syncSet.find? info = some status ∧ status.Complete

/-- A record that the call makes finds the storage of its flag unset. -/
def MakesUnset (order : ByteOrder) (handling : Handling) : Prop :=
  ∀ info, handling.message.fileInfo? order = some info →
    handling.client.syncSet.find? info = none → handling.env.goodbyeReceived = false

end Handling

namespace BlockClient

/-- A set flag of a record was acknowledged. -/
def FlagsAcknowledged (order : ByteOrder) (name : UInt32) (client : BlockClient)
    (past : List Handling) : Prop :=
  ∀ info status, client.syncSet.find? info = some status →
    status.goodbyeReceived = true →
      Since (Handling.HasRecord info) (Handling.Acknowledges order name info) past

end BlockClient

section Calls

variable {order : ByteOrder} {name : UInt32} {info : FileInfo} {handling : Handling}
  {past : List Handling} {mid : BlockClient} {status base : SyncStatus}

theorem Handling.Asked.acknowledges (hasked : handling.Asked order info mid status)
    (hnames : handling.NamesClient order → handling.MeetsComplete order →
      handling.message.Lists order name)
    (hnamed : handling.NamesClient order) :
    handling.Acknowledges order name info := by
  have hmetadata := hasked.about
  simp only [Message.fileInfo?, hnamed.1, or_true, if_true] at hmetadata
  have hread := eq_ok_of_toOption hmetadata
  have hfind := hasked.found_of_goodbye hnamed.1
  have hcomplete := hasked.complete.1
  exact ⟨hnamed.1, hread, hnames hnamed ⟨info, status, hread, hfind, hcomplete⟩,
    status, hfind, hcomplete⟩

/-- The record that a call works on has no set flag that was not acknowledged. -/
theorem Handling.Base.acknowledged (hbase : handling.Base order info base)
    (hflags : handling.client.FlagsAcknowledged order name past)
    (hinfo : handling.message.fileInfo? order = some info)
    (hunset : handling.MakesUnset order) (hflag : base.goodbyeReceived = true) :
    Since (Handling.HasRecord info) (Handling.Acknowledges order name info)
      (handling :: past) := by
  obtain ⟨held, hholding⟩ := hbase
  cases hholding with
  | found hfind =>
      refine .earlier ?_ (hflags info base hfind hflag)
      rw [Handling.HasRecord, hfind]
      exact Option.some_ne_none _
  | made hnone hcreate =>
      obtain ⟨_, hstatus, _⟩ := SyncStatus.create_eq_ok hcreate
      rw [hstatus] at hflag
      exact absurd hflag (by simp [hunset info hinfo hnone])

/-- What a call leaves of the flags, and what it gives up. -/
theorem Handling.acknowledged (hflags : handling.client.FlagsAcknowledged order name past)
    (hunset : handling.MakesUnset order)
    (hnames : handling.NamesClient order → handling.MeetsComplete order →
      handling.message.Lists order name) :
    (handling.after order).FlagsAcknowledged order name (handling :: past) ∧
      ∀ info, handling.Notes order (.erased info) →
        Since (Handling.HasRecord info) (Handling.Acknowledges order name info)
          (handling :: past) := by
  constructor
  · intro info status hfind hflag
    by_cases hinfo : handling.message.fileInfo? order = some info
    · cases Handling.outcome hinfo with
      | quiet hrecord _ _ _ =>
          obtain ⟨base, hbase, hupdates⟩ := hrecord status hfind
          exact hbase.acknowledged hflags hinfo hunset (hupdates.flag ▸ hflag)
      | asked hasked hbase hupdates hrecord _ _ =>
          rcases (hrecord status hfind).2 hflag with hset | hnamed
          · exact hbase.acknowledged hflags hinfo hunset (hupdates.flag ▸ hset)
          · exact .now (hasked.acknowledges hnames hnamed)
    · rw [(Handling.kept hinfo).1] at hfind
      refine .earlier ?_ (hflags info status hfind hflag)
      rw [Handling.HasRecord, hfind]
      exact Option.some_ne_none _
  · intro info hnotes
    by_cases hinfo : handling.message.fileInfo? order = some info
    · cases Handling.outcome hinfo with
      | quiet _ _ hevents _ =>
          obtain ⟨temp, heq⟩ := hevents _ hnotes
          contradiction
      | asked hasked hbase hupdates _ herased _ =>
          rcases herased hnotes with hset | hnamed
          · exact hbase.acknowledged hflags hinfo hunset (hupdates.flag ▸ hset)
          · exact .now (hasked.acknowledges hnames hnamed)
    · exact absurd rfl ((Handling.kept hinfo).2 _ hnotes)

end Calls

/-- The history of the client that was offered a file and has answered its goodbye. -/
def answeredPast : List Handling :=
  (((sampleStart.step .little (namedInput 116 offeredInfo)).step .little
      (namedInput 117 offeredBlock)).handling? .little
        (namedInput 118 offeredGoodbye)).toList ++
    (((sampleStart.step .little (namedInput 116 offeredInfo)).handling? .little
      (namedInput 117 offeredBlock)).toList ++
    ((sampleStart.handling? .little (namedInput 116 offeredInfo)).toList ++ []))

theorem answeredRun_observed : ClientRun.Observed .little
    (BlockClient.create .little 0 0 7 5 FileStore.empty) answeredRun answeredPast :=
  .step (.step (.step (.start 0 none) _) _) _

/-- A wait that ends with the message; a new record finds its flag set. -/
def staleInput (tmpnam : UInt8) (message : Message) : ClientInput :=
  { namedInput tmpnam message with env := Environment.plain [tmpnam] true }

end Multisync
