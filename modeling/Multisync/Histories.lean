import Multisync.Goodbyes
import Multisync.Temporal
import Mathlib.Tactic

/-!
# Histories of a client

A run of the client with the calls of its handlers, the last one first.  Whatever else
a call of `select` does, it changes the socket and the queue only.
-/

namespace Multisync

open ByteLayout Effects Temporal

/-- A call of the handlers. -/
structure Handling where
  client : BlockClient
  env : Environment
  message : Message
  address : Address

namespace Handling

variable (order : ByteOrder) (info : FileInfo) (handling : Handling)

/-- The client after the call. -/
def after : BlockClient :=
  endState (BlockClient.handle order handling.env handling.message handling.address
    handling.client)

/-- The event is noted during the call. -/
def Notes (event : ClientEvent) : Prop :=
  ∃ events, (handling.after order).trace = handling.client.trace ++ events ∧
    event ∈ events

/-- There is a record for the file when the call begins. -/
def HasRecord : Prop := handling.client.syncSet.find? info ≠ none

end Handling

namespace BlockClient

/-- The call that handles what a call of `select` reads. -/
def handling? (order : ByteOrder) (input : ClientInput) (client : BlockClient) :
    Option Handling :=
  match input.ready, input.arrival with
  | .ok ready, .ok (sender, datagram) =>
      let message := Message.received receiveReserve datagram
      if ready.readable = true ∧ datagram ≠ [] ∧ message.Framed order then
        some ⟨client.heardFrom sender, input.env, message, sender⟩
      else none
  | _, _ => none

/-- The clients are the same but for the socket and the queue. -/
def SameRecords (client client' : BlockClient) : Prop :=
  ∃ socket queue, client' = { client with socket := socket, messageQueue := queue }

variable {order : ByteOrder} {input : ClientInput} {client : BlockClient}

theorem SameRecords.refl (client : BlockClient) : SameRecords client client :=
  ⟨client.socket, client.messageQueue, rfl⟩

theorem sameRecords_of_handling? {handling : Handling}
    (hhandling : client.handling? order input = some handling) :
    SameRecords client handling.client := by
  unfold handling? at hhandling
  split at hhandling
  · dsimp only at hhandling
    split_ifs at hhandling
    cases hhandling
    exact ⟨_, client.messageQueue, rfl⟩
  · contradiction

theorem processMessage_sameRecords {ready : Ready} (hready : input.ready = .ok ready)
    (hreadable : ready.readable = true) :
    SameRecords (((client.handling? order input).map (Handling.after order)).getD client)
      (endState (processMessage order input client)) := by
  cases hreceive : BlockSocket.receive order receiveReserve input.arrival
      client.socket with
  | error fault socket =>
      have hnone : client.handling? order input = none := by
        unfold handling?
        rw [hready]
        cases harrival : input.arrival with
        | error error => rfl
        | ok arrival =>
            refine if_neg fun hsound => ?_
            rw [harrival, BlockSocket.receive_framed hsound.2.1 hsound.2.2] at hreceive
            contradiction
      rw [hnone, processMessage_of_failed hreceive]
      exact ⟨socket, client.messageQueue, rfl⟩
  | ok message socket =>
      obtain ⟨sender, datagram, harrival, hnil, rfl, hframed, rfl⟩ :=
        BlockSocket.receive_eq_ok hreceive
      have hsome : client.handling? order input =
          some ⟨client.heardFrom sender, input.env,
            Message.received receiveReserve datagram, sender⟩ := by
        unfold handling?
        rw [hready, harrival]
        exact if_pos ⟨hreadable, hnil, hframed⟩
      rw [hsome, processMessage_of_received hreceive]
      exact SameRecords.refl _

/-- What a call of `select` has done to the records, the handlers have done. -/
theorem select_sameRecords (order : ByteOrder) (input : ClientInput)
    (client : BlockClient) :
    SameRecords (((client.handling? order input).map (Handling.after order)).getD client)
      (endState (select order input client)) := by
  have hsend : ∀ base, Keeps (SameRecords base) (SameRecords base)
      (endpoint.sendFront order input.sendError) := by
    intro base
    apply Endpoint.sendFront_keeps fun _ hcurrent => hcurrent
    · rintro _ message rest socket _ ⟨_, _, rfl⟩ _
      exact ⟨socket, rest, rfl⟩
    · rintro _ message rest fault socket _ ⟨_, queue, rfl⟩ _
      exact ⟨socket, queue, rfl⟩
  cases hready : input.ready with
  | error error =>
      have hnone : client.handling? order input = none := by
        unfold handling?
        rw [hready]
      rw [hnone, select, hready]
      exact SameRecords.refl client
  | ok ready =>
      let base := ((client.handling? order input).map (Handling.after order)).getD client
      have hread : Triple (fun current => current = client)
          (if ready.readable = true then processMessage order input else pure ())
          (fun _ => SameRecords base) fun _ => SameRecords base := by
        refine Triple.ite (fun hreadable current hcurrent => ?_) fun hidle =>
          Triple.pure fun current hcurrent => ?_
        · subst hcurrent
          have hprocess := @processMessage_sameRecords order input current ready hready
            hreadable
          cases hrun : processMessage order input current with
          | ok value final =>
              rw [hrun] at hprocess
              exact hprocess
          | error fault final =>
              rw [hrun] at hprocess
              exact hprocess
        · have hnone : client.handling? order input = none := by
            unfold handling?
            rw [hready]
            cases input.arrival with
            | error error => rfl
            | ok arrival => exact if_neg fun hsound => hidle hsound.1
          simp only [base, hnone]
          rw [hcurrent]
          exact SameRecords.refl client
      rw [select, hready, Endpoint.select_of_ready]
      exact (Triple.bind hread fun _ => Triple.ite (fun _ => hsend base) fun _ =>
        Keeps.pure _).endState rfl

end BlockClient

namespace Handling

open BlockClient

/-- The record the call finds for the file, or makes. -/
def Base (order : ByteOrder) (info : FileInfo) (handling : Handling)
    (base : SyncStatus) : Prop :=
  ∃ mid, Holding order handling.env info handling.address handling.client base mid

/-- The call asks about a record of the file and finds the transfer complete. -/
structure Asked (order : ByteOrder) (info : FileInfo) (handling : Handling)
    (mid : BlockClient) (status : SyncStatus) : Prop where
  about : handling.message.fileInfo? order = some info
  prepared : prepare order handling.env handling.message handling.address info
    handling.client = .ok () mid
  find : mid.syncSet.find? info = some status
  complete : status.FoundComplete order handling.message

/-- The message is a goodbye whose list holds the id of the client. -/
def NamesClient (order : ByteOrder) (handling : Handling) : Prop :=
  handling.message.getType order = MessageType.sgoodbye.code ∧
    handling.message.Lists order handling.client.id

/-- The record `status` is `base` with what the message brings. -/
structure Updates (order : ByteOrder) (handling : Handling) (base status : SyncStatus) :
    Prop where
  flag : status.goodbyeReceived = base.goodbyeReceived
  file : status.output.file = base.output.file
  path : status.path = (handling.message.announced? order).getD base.path

/-- What a call does for its file: it may make the record or bring it up to date, or
else it finds the transfer complete, closes the output and renames the file. -/
inductive Outcome (order : ByteOrder) (info : FileInfo) (handling : Handling) : Prop
  | quiet
      (hrecord : ∀ status, (handling.after order).syncSet.find? info = some status →
        ∃ base, handling.Base order info base ∧ handling.Updates order base status)
      (hmissing : (handling.after order).syncSet.find? info = none →
        handling.client.syncSet.find? info = none ∧ 0 ∉ info.digest)
      (hevents : ∀ event, handling.Notes order event →
        ∃ temp, event = .created info temp)
      (hqueue : (handling.after order).messageQueue = handling.client.messageQueue)
  | asked {mid : BlockClient} {status base : SyncStatus}
      (hasked : handling.Asked order info mid status)
      (hbase : handling.Base order info base)
      (hupdates : handling.Updates order base status)
      (hrecord : ∀ status', (handling.after order).syncSet.find? info = some status' →
        status'.output.file = none ∧ (status'.goodbyeReceived = true →
          status.goodbyeReceived = true ∨ handling.NamesClient order))
      (herased : handling.Notes order (.erased info) →
        status.goodbyeReceived = true ∨ handling.NamesClient order)
      (hpaths : ∀ publication, handling.Notes order (.published info publication) →
        publication.path = status.path)

variable {order : ByteOrder} {info : FileInfo} {handling : Handling}
  {mid : BlockClient} {status : SyncStatus}

theorem prepared_events {env : Environment} {message : Message} {address : Address}
    {client : BlockClient}
    (hprepared : Prepared order env message address info client mid) :
    ∃ events, mid.trace = client.trace ++ events ∧
      ∀ event ∈ events, ∃ temp, event = ClientEvent.created info temp := by
  have hholding : ∀ {status held},
      Holding order env info address client status held →
        ∃ events, held.trace = client.trace ++ events ∧
          ∀ event ∈ events, ∃ temp, event = ClientEvent.created info temp := by
    intro status held hholding
    cases hholding with
    | found _ => exact ⟨[], by simp, by simp⟩
    | made _ _ => exact ⟨[.created info status.temp], rfl, by simp⟩
  cases hprepared with
  | refused _ _ => exact ⟨[], by simp, by simp⟩
  | held hheld _ => exact hholding hheld
  | worked hheld hworks =>
      obtain ⟨events, hevents, hcreated⟩ := hholding hheld
      refine ⟨events, ?_, hcreated⟩
      simp [putStatus, hworks.keeps.2.2, hevents]

theorem prepared_same {env : Environment} {message : Message} {address : Address}
    {client : BlockClient}
    (hprepared : Prepared order env message address info client mid) :
    mid.messageQueue = client.messageQueue ∧ mid.id = client.id := by
  cases hprepared with
  | refused _ _ => exact ⟨rfl, rfl⟩
  | held hheld _ => exact hheld.same
  | worked hheld _ => exact ⟨hheld.same.1, hheld.same.2⟩

theorem prepared_record
    (hprepared : Prepared order handling.env handling.message handling.address info
      handling.client mid)
    (hfind : mid.syncSet.find? info = some status) :
    ∃ base, handling.Base order info base ∧ handling.Updates order base status := by
  cases hprepared with
  | refused hnone _ =>
      rw [hnone] at hfind
      contradiction
  | held hheld hsilent =>
      rw [hheld.find?] at hfind
      cases hfind
      exact ⟨_, ⟨_, hheld⟩, rfl, rfl, by rw [hsilent]; rfl⟩
  | worked hheld hworks =>
      rw [find?_putStatus_self hheld.find?] at hfind
      cases hfind
      exact ⟨_, ⟨_, hheld⟩, hworks.keeps.1, hworks.keeps.2.1, hworks.path⟩

/-- A call that asks notes what it did before and what the rest of it does. -/
theorem notes_iff {earlier later : List ClientEvent} {event : ClientEvent}
    (htrace : (handling.after order).trace =
      handling.client.trace ++ (earlier ++ later)) :
    handling.Notes order event ↔ event ∈ earlier ++ later := by
  constructor
  · rintro ⟨events, hevents, hmem⟩
    rw [htrace, List.append_cancel_left_eq] at hevents
    rw [hevents]
    exact hmem
  · exact fun hmem => ⟨_, htrace, hmem⟩

/-- A call that finds the transfer complete notes what it publishes first. -/
theorem Asked.notes_published (hasked : handling.Asked order info mid status)
    {publication : Publication}
    (hmem : publication ∈ (SyncStatus.published handling.env.first
      ⟨status, mid.files, []⟩).publications) :
    handling.Notes order (.published info publication) := by
  have hprepared := BlockClient.prepared order handling.env handling.message
    handling.address info handling.client
  rw [hasked.prepared, endState_ok] at hprepared
  obtain ⟨created, hcreated, _⟩ := prepared_events hprepared
  have hextends : (mid.publish handling.env.first info status).trace <+:
      (handling.after order).trace → handling.Notes order (.published info publication) := by
    rintro ⟨later, htrace⟩
    rw [publish_trace, hcreated, List.append_assoc, List.append_assoc] at htrace
    rw [notes_iff htrace.symm]
    simp [hmem]
  have hconcluded : Concluded order handling.env handling.message info status mid
      (handling.after order) := by
    rw [after, handle_eq hasked.about, bind_of_ok hasked.prepared]
    exact concluded hasked.find
  generalize handling.after order = final at hconcluded hextends
  cases hconcluded with
  | idle hidle => exact absurd hasked.complete hidle
  | finished _ _ => exact hextends (List.prefix_append _ _)
  | answered _ _ n _ => exact hextends (List.prefix_append _ _)
  | ended _ _ n _ _ =>
      have hanswered : (mid.publish handling.env.first info status).trace <+:
          ((mid.publish handling.env.first info status).acknowledge order info
            (status.closed handling.env.first) n).trace := List.prefix_append _ _
      refine hextends (hanswered.trans ?_)
      generalize (mid.publish handling.env.first info status).acknowledge order info
        (status.closed handling.env.first) n = answered
      have hagain : answered.trace <+: (answered.publish handling.env.second info
          ((status.closed handling.env.first).acknowledged n)).trace := by
        rw [publish_trace]
        exact List.prefix_append _ _
      exact hagain.trans (List.prefix_append _ _)

/-- A call that only prepares the record. -/
theorem outcome_of_prepared
    (hprepared : Prepared order handling.env handling.message handling.address info
      handling.client (handling.after order)) : handling.Outcome order info := by
  refine .quiet (fun status hfind => prepared_record hprepared hfind) ?_ ?_
    (prepared_same hprepared).1
  · intro hnone
    generalize handling.after order = final at hprepared hnone
    cases hprepared with
    | refused hold hnul => exact ⟨hold, hnul⟩
    | held hheld _ =>
        rw [hheld.find?] at hnone
        contradiction
    | worked hheld _ =>
        rw [find?_putStatus_self hheld.find?] at hnone
        contradiction
  · rintro event ⟨events, hevents, hmem⟩
    obtain ⟨created, hcreated, hall⟩ := prepared_events hprepared
    rw [hcreated, List.append_cancel_left_eq] at hevents
    exact hall event (hevents ▸ hmem)

/-- What a question publishes goes to the path of the record. -/
theorem path_of_published {outcome : PublishOutcome} {files : FileStore Bytes}
    {publication : Publication}
    (hmem : publication ∈ (SyncStatus.published outcome ⟨status, files, []⟩).publications) :
    publication.path = status.path := by
  unfold SyncStatus.published SyncStatus.renameTemp at hmem
  split at hmem
  · split at hmem
    · contradiction
    · rw [List.nil_append, List.mem_singleton] at hmem
      rw [hmem]
  · contradiction

/-- A call that finds the transfer complete publishes the file, and then notes what it
does `later`. -/
theorem Asked.outcome {base : SyncStatus} {earlier : List ClientEvent}
    (hasked : handling.Asked order info mid status) (later : List ClientEvent)
    (hbase : handling.Base order info base) (hupdates : handling.Updates order base status)
    (hcreated : ∀ event ∈ earlier, ∃ temp, event = ClientEvent.created info temp)
    (htrace : (handling.after order).trace = handling.client.trace ++ (earlier ++
      ((SyncStatus.published handling.env.first ⟨status, mid.files, []⟩).publications.map
        (ClientEvent.published info) ++ later)))
    (hlater : ∀ publication, .published info publication ∈ later →
      publication.path = status.path)
    (herased : .erased info ∈ later →
      status.goodbyeReceived = true ∨ handling.NamesClient order)
    (hrecord : ∀ status', (handling.after order).syncSet.find? info = some status' →
      status'.output.file = none ∧ (status'.goodbyeReceived = true →
        status.goodbyeReceived = true ∨ handling.NamesClient order)) :
    handling.Outcome order info := by
  have hcases : ∀ event, handling.Notes order event →
      (∃ temp, event = .created info temp) ∨
        (∃ publication ∈ (SyncStatus.published handling.env.first
          ⟨status, mid.files, []⟩).publications, event = .published info publication) ∨
            event ∈ later := by
    intro event hnotes
    rw [notes_iff htrace, List.mem_append, List.mem_append, List.mem_map] at hnotes
    rcases hnotes with hmem | ⟨publication, hmem, rfl⟩ | hmem
    · exact Or.inl (hcreated event hmem)
    · exact Or.inr (Or.inl ⟨publication, hmem, rfl⟩)
    · exact Or.inr (Or.inr hmem)
  refine .asked hasked hbase hupdates hrecord (fun hnotes => ?_)
    fun publication hnotes => ?_
  · rcases hcases _ hnotes with ⟨temp, heq⟩ | ⟨publication, _, heq⟩ | hmem
    · contradiction
    · contradiction
    · exact herased hmem
  · rcases hcases _ hnotes with ⟨temp, heq⟩ | ⟨found, hmem, heq⟩ | hmem
    · contradiction
    · cases heq
      exact path_of_published hmem
    · exact hlater publication hmem

theorem outcome (hinfo : handling.message.fileInfo? order = some info) :
    handling.Outcome order info := by
  have hprepared := prepared order handling.env handling.message handling.address info
    handling.client
  obtain hsame | ⟨mid, status, hprepare, hfind, hconcluded⟩ :=
    @handle_outcome order handling.env handling.message handling.address info
      handling.client hinfo
  · exact outcome_of_prepared (by rwa [← hsame] at hprepared)
  rw [hprepare, endState_ok] at hprepared
  obtain ⟨base, hbase, hupdates⟩ := prepared_record hprepared hfind
  obtain ⟨earlier, hearlier, hcreated⟩ := prepared_events hprepared
  have hid := (prepared_same hprepared).2
  have hasked : status.FoundComplete order handling.message →
      handling.Asked order info mid status := fun hcomplete =>
    ⟨hinfo, hprepare, hfind, hcomplete⟩
  have hgone : ∀ {client : BlockClient} {Q : SyncStatus → Prop} (status' : SyncStatus),
      (client.erased info).syncSet.find? info = some status' → Q status' := by
    intro client Q status' hstatus'
    rw [erased, OrderedMap.find?_erase_self] at hstatus'
    contradiction
  generalize hafter : endState (handle order handling.env handling.message
    handling.address handling.client) = final at hconcluded
  cases hconcluded with
  | idle _ => exact outcome_of_prepared (by rwa [← hafter] at hprepared)
  | finished _ hfinished =>
      refine (hasked ⟨hfinished.2, Or.inr hfinished.1⟩).outcome [.erased info]
        hbase hupdates hcreated ?_ (by simp) (fun _ => Or.inl hfinished.1) ?_
      · rw [after, hafter, erased, publish_trace, hearlier]
        simp only [List.append_assoc]
      · rw [after, hafter]
        exact hgone
  | answered hgoodbye hcomplete n hnamed =>
      refine (hasked ⟨hcomplete, Or.inl hgoodbye⟩).outcome
        (List.replicate n (.answered info status.serverAddress)) hbase hupdates
        hcreated ?_ (by simp [List.mem_replicate]) (by simp [List.mem_replicate]) ?_
      · rw [after, hafter, acknowledge, publish_trace, hearlier]
        simp only [List.append_assoc]
        rfl
      · intro status' hstatus'
        rw [after, hafter, find?_acknowledge (find?_publish hfind _)] at hstatus'
        cases hstatus'
        refine ⟨OutStream.close_file _ _, fun hset => ?_⟩
        simp only [SyncStatus.acknowledged, Bool.or_eq_true, decide_eq_true_eq] at hset
        exact hset.imp_right fun hpos => ⟨hgoodbye, hid ▸ hnamed hpos⟩
  | ended hgoodbye hcomplete n hnamed hset =>
      refine (hasked ⟨hcomplete, Or.inl hgoodbye⟩).outcome
        (List.replicate n (.answered info status.serverAddress) ++
          ((SyncStatus.published handling.env.second
            ⟨(status.closed handling.env.first).acknowledged n,
              (mid.publish handling.env.first info status).files, []⟩).publications.map
                (ClientEvent.published info) ++ [.erased info])) hbase hupdates hcreated ?_ ?_
        (fun _ => hset.imp_right fun hpos => ⟨hgoodbye, hid ▸ hnamed hpos⟩) ?_
      · rw [after, hafter, erased, publish_trace, acknowledge, publish_trace, hearlier]
        simp only [List.append_assoc]
        rfl
      · intro publication hmem
        simp only [List.mem_append, List.mem_replicate, List.mem_map, List.mem_singleton,
          reduceCtorEq, and_false, or_false, false_or] at hmem
        obtain ⟨found, hfound, heq⟩ := hmem
        cases heq
        exact (path_of_published hfound :)
      · rw [after, hafter]
        exact hgone

/-- A call for another file. -/
theorem kept (hother : handling.message.fileInfo? order ≠ some info) :
    (handling.after order).syncSet.find? info = handling.client.syncSet.find? info ∧
      ∀ event, handling.Notes order event → event.info ≠ info := by
  have hkept := @handle_recordKept order handling.env handling.message handling.address
    info hother handling.client
  obtain ⟨events, hevents, hothers⟩ := hkept.trace
  refine ⟨hkept.record, ?_⟩
  rintro event ⟨events', hevents', hmem⟩
  rw [after, hevents, List.append_cancel_left_eq] at hevents'
  exact hothers event (hevents' ▸ hmem)

/-- A goodbye finds the transfer complete only if the record was there and complete. -/
theorem Asked.found_of_goodbye (hasked : handling.Asked order info mid status)
    (hgoodbye : handling.message.getType order = MessageType.sgoodbye.code) :
    handling.client.syncSet.find? info = some status := by
  have hinfo : MessageType.sgoodbye.code ≠ MessageType.info.code := by simp
  have hblock : MessageType.sgoodbye.code ≠ MessageType.block.code := by simp
  have hprepared := hasked.prepared
  rw [prepare, hgoodbye, if_neg hinfo, if_neg hblock] at hprepared
  obtain ⟨_, held, hget, hpure⟩ := bind_eq_ok hprepared
  cases hpure
  obtain ⟨base, hholding⟩ := Holding.of_getSyncStatus hget
  have hfind := hasked.find
  rw [hholding.find?] at hfind
  cases hfind
  cases hholding with
  | found hfound => exact hfound
  | made _ hcreate =>
      obtain ⟨_, hstatus, _⟩ := SyncStatus.create_eq_ok hcreate
      exact absurd (by rw [hstatus]) hasked.complete.1.2

end Handling

namespace ClientRun

variable {order : ByteOrder} {client : BlockClient} {run : ClientRun}
  {past : List Handling}

/-- The call of the handlers in one call of `select`, if there is one. -/
def handling? (order : ByteOrder) (run : ClientRun) (input : ClientInput) :
    Option Handling :=
  if run.fault = none ∧ BlockClient.endpoint.Wakes input.ready run.client then
    run.client.handling? order input
  else none

/-- The runs of a client, each with the calls of its handlers. -/
inductive Observed (order : ByteOrder) (client : BlockClient) :
    ClientRun → List Handling → Prop
  | start (ephemeral : UInt16) (openError : Option String) :
      Observed order client (start order ephemeral openError client) []
  | step {run : ClientRun} {past : List Handling} (hrun : Observed order client run past)
      (input : ClientInput) :
      Observed order client (run.step order input)
        ((run.handling? order input).toList ++ past)

/-- Every run has its history. -/
theorem Reachable.exists_observed (hrun : Reachable order client run) :
    ∃ past, Observed order client run past := by
  induction hrun with
  | start ephemeral openError => exact ⟨[], .start ephemeral openError⟩
  | step _ input ih =>
      obtain ⟨past, hobserved⟩ := ih
      exact ⟨_, hobserved.step input⟩

theorem step_sameRecords (order : ByteOrder) (run : ClientRun) (input : ClientInput) :
    BlockClient.SameRecords
      (((run.handling? order input).map (Handling.after order)).getD run.client)
      (run.step order input).client := by
  unfold handling? ClientRun.step
  cases hfault : run.fault with
  | some fault =>
      rw [if_neg (by simp)]
      exact BlockClient.SameRecords.refl _
  | none =>
      by_cases hwakes : BlockClient.endpoint.Wakes input.ready run.client
      · rw [if_pos ⟨rfl, hwakes⟩]
        simp only [if_pos hwakes, client_ofResult]
        exact BlockClient.select_sameRecords order input run.client
      · rw [if_neg fun h => hwakes h.2]
        simp only [if_neg hwakes]
        exact BlockClient.SameRecords.refl _

/-- A property of the history and the records that each call of the handlers keeps. -/
theorem Observed.holds {I : BlockClient → List Handling → Prop}
    (hrun : Observed order client run past) (hclient : I client [])
    (hother : ∀ client client' past, BlockClient.SameRecords client client' →
      I client past → I client' past)
    (hhandle : ∀ handling past, I handling.client past →
      I (handling.after order) (handling :: past)) :
    I run.client past := by
  induction hrun with
  | start ephemeral openError =>
      unfold ClientRun.start
      rw [client_ofResult]
      refine (BlockClient.start_keeps (P := fun client => I client []) ?_).endState hclient
      exact fun client socket queue h => hother client _ [] ⟨socket, queue, rfl⟩ h
  | @step run past hrun input ih =>
      refine hother _ _ _ (step_sameRecords order run input) ?_
      cases hhandling : run.handling? order input with
      | none => exact ih
      | some handling =>
          refine hhandle handling past ?_
          unfold handling? at hhandling
          split_ifs at hhandling
          exact hother _ _ _ (BlockClient.sameRecords_of_handling? hhandling) ih

end ClientRun

end Multisync
