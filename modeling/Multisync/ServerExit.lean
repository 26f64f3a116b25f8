import Multisync.ServerRuns
import Mathlib.Tactic

/-!
# When the server returns

The set of hosts is a summary of the messages handled so far: a host is in it
when the last message that spoke of it was a hello or a request for the file,
and out of it after a goodbye.  The second loop of `start` ends when the set is
empty, so every host that registered has left by then.
-/

namespace Multisync

open ByteLayout Effects

namespace Message

variable (order : ByteOrder)

/-- A hello or a request for the file, from this host. -/
def RegistersHost (info : HostInfo) (message : Message) : Prop :=
  (message.getType order = MessageType.chello.code ∨
    message.getType order = MessageType.getinfo.code) ∧
  message.getMetadata order HostInfo = .ok info

/-- A goodbye from this host. -/
def ReleasesHost (info : HostInfo) (message : Message) : Prop :=
  message.getType order = MessageType.cgoodbye.code ∧
  message.getMetadata order HostInfo = .ok info

/-- A message speaks of one host only. -/
theorem silent_of_ne {order : ByteOrder} {message : Message}
    {host info : HostInfo} (hhost : message.getMetadata order HostInfo = .ok host)
    (hne : info ≠ host) :
    ¬ message.RegistersHost order info ∧ ¬ message.ReleasesHost order info := by
  constructor
  · rintro ⟨_, hinfo⟩
    exact hne (Except.ok.inj (hinfo.symm.trans hhost))
  · rintro ⟨_, hinfo⟩
    exact hne (Except.ok.inj (hinfo.symm.trans hhost))

end Message

/-- The last of these messages that speaks of the host registers it. -/
def Registered (order : ByteOrder) (handled : List Message) (info : HostInfo) :
    Prop :=
  ∃ before message after, handled = before ++ message :: after ∧
    message.RegistersHost order info ∧
    ∀ later ∈ after, ¬ later.RegistersHost order info ∧
      ¬ later.ReleasesHost order info

section History

variable {order : ByteOrder} {handled : List Message} {message : Message}
  {info : HostInfo}

/-- A message found in a longer history is its last one or was found before. -/
theorem split_append_singleton {before after : List Message} {found : Message}
    (heq : handled ++ [message] = before ++ found :: after) :
    (after = [] ∧ found = message) ∨
      ∃ init, after = init ++ [message] ∧ handled = before ++ found :: init := by
  rcases List.eq_nil_or_concat after with rfl | ⟨init, last, rfl⟩
  · have hlast := List.append_inj_right' heq rfl
    cases hlast
    exact Or.inl ⟨rfl, rfl⟩
  · rw [List.concat_eq_append, ← List.cons_append, ← List.append_assoc] at heq
    have hlast := List.append_inj_right' heq rfl
    cases hlast
    exact Or.inr ⟨init, List.concat_eq_append, List.append_inj_left' heq rfl⟩

theorem registered_append_of_registers
    (hregisters : message.RegistersHost order info) :
    Registered order (handled ++ [message]) info :=
  ⟨handled, message, [], rfl, hregisters, by simp⟩

theorem not_registered_append_of_releases
    (hreleases : message.ReleasesHost order info) :
    ¬ Registered order (handled ++ [message]) info := by
  rintro ⟨before, found, after, heq, hfound, hafter⟩
  rcases split_append_singleton heq with ⟨_, rfl⟩ | ⟨init, rfl, _⟩
  · have hcode := hreleases.1
    rcases hfound.1 with htype | htype
    · rw [hcode] at htype
      exact absurd htype (by decide)
    · rw [hcode] at htype
      exact absurd htype (by decide)
  · exact (hafter message (by simp)).2 hreleases

theorem registered_append_of_silent
    (hregisters : ¬ message.RegistersHost order info)
    (hreleases : ¬ message.ReleasesHost order info) :
    Registered order (handled ++ [message]) info ↔
      Registered order handled info := by
  constructor
  · rintro ⟨before, found, after, heq, hfound, hafter⟩
    rcases split_append_singleton heq with ⟨_, rfl⟩ | ⟨init, rfl, rfl⟩
    · exact absurd hfound hregisters
    · refine ⟨before, found, init, rfl, hfound, ?_⟩
      intro later hlater
      exact hafter later (by simp [hlater])
  · rintro ⟨before, found, after, rfl, hfound, hafter⟩
    refine ⟨before, found, after ++ [message], by simp, hfound, ?_⟩
    intro later hlater
    rcases List.mem_append.mp hlater with hold | hnew
    · exact hafter later hold
    · rw [List.mem_singleton.mp hnew]
      exact ⟨hregisters, hreleases⟩

/-- Without a goodbye after it a registration lasts. -/
theorem registered_of_no_release {before after : List Message}
    (hregisters : message.RegistersHost order info)
    (hafter : ∀ later ∈ after, ¬ later.ReleasesHost order info) :
    Registered order (before ++ message :: after) info := by
  induction after using List.reverseRecOn with
  | nil => exact registered_append_of_registers hregisters
  | append_singleton init last ih =>
      have hinit := ih fun later hlater => hafter later (by simp [hlater])
      rw [← List.cons_append, ← List.append_assoc]
      by_cases hlast : last.RegistersHost order info
      · exact registered_append_of_registers hlast
      · exact (registered_append_of_silent hlast (hafter last (by simp))).mpr hinit

end History

namespace BlockServer

variable {order : ByteOrder} {input : ServerInput} {message : Message}
  {server server' : BlockServer}

/-- A request for a block asks one message for two sizes of metadata. -/
theorem handleGetblock_ne_ok :
    handleGetblock order input message server ≠ .ok () server' := by
  intro hok
  obtain ⟨info, hinfo, hok⟩ := ofResult_bind_eq_ok hok
  obtain ⟨_, mid, _, hok⟩ := bind_eq_ok hok
  obtain ⟨i, hi, _⟩ := ofResult_bind_eq_ok hok
  have hhost := Message.getOffset_of_getMetadata order hinfo
  have hblock := Message.getOffset_of_getMetadata order hi
  rw [hhost] at hblock
  exact absurd hblock (by decide)

/-- What a handler that returns has done to the set of hosts. -/
theorem handle_hostInfo (hok : handle order input message server = .ok () server') :
    (∃ info, message.RegistersHost order info ∧
      server'.hostInfo = server.hostInfo.insert info ()) ∨
    (∃ info, message.ReleasesHost order info ∧
      server'.hostInfo = server.hostInfo.erase info) ∨
    ((∀ info, ¬ message.RegistersHost order info ∧
      ¬ message.ReleasesHost order info) ∧
      server'.hostInfo = server.hostInfo) := by
  unfold handle at hok
  split_ifs at hok with hchello hgetinfo hgetblock hcgoodbye
  · obtain ⟨info, hinfo, hok⟩ := ofResult_bind_eq_ok hok
    cases hok
    exact Or.inl ⟨info, ⟨Or.inl hchello, hinfo⟩, rfl⟩
  · obtain ⟨info, hinfo, hok⟩ := ofResult_bind_eq_ok hok
    cases hok
    exact Or.inl ⟨info, ⟨Or.inr hgetinfo, hinfo⟩, rfl⟩
  · exact absurd hok handleGetblock_ne_ok
  · obtain ⟨info, hinfo, hok⟩ := ofResult_bind_eq_ok hok
    cases hok
    exact Or.inr (Or.inl ⟨info, ⟨hcgoodbye, hinfo⟩, rfl⟩)
  · cases hok
    refine Or.inr (Or.inr ⟨fun info => ⟨?_, ?_⟩, rfl⟩)
    · rintro ⟨htype | htype, _⟩
      · exact hchello htype
      · exact hgetinfo htype
    · exact fun hreleases => hcgoodbye hreleases.1

theorem handle_handled {result : EStateM.Result Fault BlockServer Unit}
    (hresult : handle order input message server = result) :
    (endState result).dispatched = server.dispatched ∧
      (endState result).handled = server.handled := by
  let P : BlockServer → Prop := fun final =>
    final.dispatched = server.dispatched ∧ final.handled = server.handled
  have hkeeps : Keeps P P (handle order input message) := by
    apply handle_keeps
    · exact fun _ hserver => hserver
    · exact fun _ hserver _ => hserver
    · exact fun _ hserver => hserver
    · exact fun _ => enqueueBlock_keeps (fun _ hserver => hserver)
        fun _ hserver _ _ _ => hserver
  have hserver := hkeeps.endState ⟨rfl, rfl⟩
  rwa [hresult] at hserver

theorem registered_handled
    (hhosts : ∀ info, (server.hostInfo.find? info).isSome ↔
      Registered order server.handled info)
    (hok : handle order input message server = .ok () server') (info : HostInfo) :
    (server'.hostInfo.find? info).isSome ↔
      Registered order (server.handled ++ [message]) info := by
  rcases handle_hostInfo hok with ⟨host, hregisters, hinsert⟩ |
    ⟨host, hreleases, herase⟩ | ⟨hsilent, hsame⟩
  · rw [hinsert]
    by_cases hhost : info = host
    · subst hhost
      have hpresent := OrderedMap.isSome_find?_insert server.hostInfo info ()
      exact iff_of_true hpresent (registered_append_of_registers hregisters)
    · rw [OrderedMap.find?_insert_ne hhost, hhosts]
      have hsilent := Message.silent_of_ne hregisters.2 hhost
      exact (registered_append_of_silent hsilent.1 hsilent.2).symm
  · rw [herase]
    by_cases hhost : info = host
    · subst hhost
      rw [OrderedMap.find?_erase_self]
      exact iff_of_false (by simp) (not_registered_append_of_releases hreleases)
    · rw [OrderedMap.find?_erase_ne hhost, hhosts]
      have hsilent := Message.silent_of_ne hreleases.2 hhost
      exact (registered_append_of_silent hsilent.1 hsilent.2).symm
  · rw [hsame, hhosts]
    exact (registered_append_of_silent (hsilent info).1 (hsilent info).2).symm

/-- Unless a handler has thrown, the set holds the registered hosts. -/
structure HostsRegistered (order : ByteOrder) (server : BlockServer) : Prop where
  handled_le : server.handled.length ≤ server.dispatched.length
  registered : server.dispatched = server.handled → ∀ info,
    (server.hostInfo.find? info).isSome ↔ Registered order server.handled info

/-- Where the server waits no handler has thrown. -/
def Settled (order : ByteOrder) (server : BlockServer) : Prop :=
  HostsRegistered order server ∧ server.dispatched = server.handled

theorem processMessage_settled :
    Keeps (Settled order) (HostsRegistered order) (processMessage order input) := by
  rintro server ⟨hserver, hsettled⟩
  cases hreceive : BlockSocket.receive order receiveReserve input.arrival
      server.socket with
  | error fault socket =>
      rw [processMessage_of_failed hreceive]
      exact ⟨hserver.handled_le, hserver.registered⟩
  | ok message socket =>
      rw [processMessage_of_received hreceive]
      cases hhandle : handle order input message
          { server with
            socket := socket
            dispatched := server.dispatched ++ [message] } with
      | ok value final =>
          obtain ⟨hdispatched, hhandled⟩ := handle_handled hhandle
          simp only [endState_ok] at hdispatched hhandled
          refine ⟨⟨?_, fun _ info => ?_⟩, ?_⟩
          · simp [hdispatched, hhandled, hsettled]
          · simp only [hhandled]
            refine registered_handled ?_ hhandle info
            exact hserver.registered hsettled
          · simp [hdispatched, hhandled, hsettled]
      | error fault final =>
          obtain ⟨hdispatched, hhandled⟩ := handle_handled hhandle
          simp only [endState_error] at hdispatched hhandled
          refine ⟨?_, fun heq => ?_⟩
          · simp [hdispatched, hhandled, hsettled]
          · rw [hdispatched, hhandled, hsettled] at heq
            have hlength := congrArg List.length heq
            simp at hlength

theorem resume_settled (phase : ServerPhase) :
    Keeps (Settled order) (HostsRegistered order) (resume order input phase) := by
  apply resume_keeps
  · exact fun server hserver => hserver.1
  · exact processMessage_settled
  · apply Endpoint.sendFront_keeps
    · exact fun server hserver => hserver.1
    · exact fun server _ _ socket _ hserver _ =>
        ⟨⟨hserver.1.handled_le, hserver.1.registered⟩, hserver.2⟩
    · exact fun server _ _ _ socket _ hserver _ =>
        ⟨hserver.1.handled_le, hserver.1.registered⟩
  · intro i
    apply enqueueBlock_keeps
    · exact fun server hserver => hserver.1
    · exact fun server hserver data input _ =>
        ⟨⟨hserver.1.handled_le, hserver.1.registered⟩, hserver.2⟩

theorem start_settled (ephemeral : UInt16) (openError : Option String) :
    Keeps (Settled order) (HostsRegistered order)
      (start order ephemeral openError input) := by
  apply start_keeps
  · exact fun server hserver => hserver.1
  · exact fun server hserver _ =>
      ⟨⟨hserver.1.handled_le, hserver.1.registered⟩, hserver.2⟩
  · exact fun server hserver =>
      ⟨⟨hserver.1.handled_le, hserver.1.registered⟩, hserver.2⟩
  · intro i
    apply enqueueBlock_keeps
    · exact fun server hserver => hserver.1
    · exact fun server hserver data input _ =>
        ⟨⟨hserver.1.handled_le, hserver.1.registered⟩, hserver.2⟩

/-- The second loop ends with no host registered. -/
theorem drainHead_returned {server server' : BlockServer}
    (hok : drainHead server = .ok .returned server') :
    server'.hostInfo.isEmpty = true := by
  simp only [drainHead, bind_apply, get_apply] at hok
  split_ifs at hok with hbusy
  · cases hok
  · cases hok
    simp only [not_or, Bool.not_eq_true, Bool.not_eq_false'] at hbusy
    exact hbusy.1

theorem serveHead_returned {i : BlockInfo}
    (hok : serveHead order input i server = .ok .returned server') :
    server'.hostInfo.isEmpty = true := by
  simp only [serveHead, bind_apply, get_apply] at hok
  split_ifs at hok with hblock hroom
  · obtain ⟨_, mid, _, hok⟩ := bind_eq_ok hok
    cases hok
  · cases hok
  · exact drainHead_returned hok

theorem start_returned {ephemeral : UInt16} {openError : Option String}
    (hok : start order ephemeral openError input server = .ok .returned server') :
    server'.hostInfo.isEmpty = true := by
  obtain ⟨_, mid, _, hok⟩ := bind_eq_ok hok
  obtain ⟨_, mid, _, hok⟩ := bind_eq_ok hok
  obtain ⟨_, mid, _, hok⟩ := bind_eq_ok hok
  exact serveHead_returned hok

theorem resume_returned {phase : ServerPhase} (hphase : phase ≠ .returned)
    (hok : resume order input phase server = .ok .returned server') :
    server'.hostInfo.isEmpty = true := by
  cases phase with
  | serving i =>
      obtain ⟨_, mid, _, hok⟩ := bind_eq_ok hok
      exact serveHead_returned hok
  | draining =>
      obtain ⟨_, mid, _, hok⟩ := bind_eq_ok hok
      exact drainHead_returned hok
  | returned => contradiction

end BlockServer

namespace ServerRun

/-- Wherever a run has got to without a handler having thrown, the set holds
the hosts whose last message registered them; when it has returned, each
registration was followed by a goodbye. -/
theorem hostInfo_eq_registered (order : ByteOrder) (md5 : Bytes → Md5Digest)
    (opened : Option Bytes) (measured : Option FileSource) (path : Bytes) (group : UInt32)
    (port ephemeral : UInt16) (id : UInt32) (openError : Option String)
    (first : ServerInput) (inputs : List ServerInput) :
    let run := (start order ephemeral openError first
      (BlockServer.create order md5 opened measured path group port id)).steps
        order inputs
    (run.server.dispatched = run.server.handled → ∀ info,
      (run.server.hostInfo.find? info).isSome ↔
        Registered order run.server.handled info) ∧
    (run.phase = .ok .returned → ∀ info before message after,
      run.server.handled = before ++ message :: after →
      message.RegistersHost order info →
        ∃ bye ∈ after, bye.ReleasesHost order info) := by
  intro run
  have hcreate : BlockServer.Settled order
      (BlockServer.create order md5 opened measured path group port id) := by
    refine ⟨⟨le_refl _, fun _ info => iff_of_false (by simp [BlockServer.create]) ?_⟩, rfl⟩
    rintro ⟨before, message, after, hnil, _⟩
    simp [BlockServer.create] at hnil
  have hrun : run.Holds
      (fun phase server => BlockServer.Settled order server ∧
        (phase = .returned → server.hostInfo.isEmpty = true))
      (BlockServer.HostsRegistered order) := by
    apply steps_holds
    · intro input phase server hserver
      have hkeeps := @BlockServer.resume_settled order input phase
      apply holds_ofResult
      · intro next final hok
        refine ⟨hkeeps.ok hserver.1 hok, ?_⟩
        rintro rfl
        by_cases hphase : phase = .returned
        · subst hphase
          cases hok
          exact hserver.2 rfl
        · exact BlockServer.resume_returned hphase hok
      · exact fun fault final herror => hkeeps.error hserver.1 herror
    · have hkeeps := @BlockServer.start_settled order first ephemeral openError
      apply holds_ofResult
      · intro phase final hok
        refine ⟨hkeeps.ok hcreate hok, ?_⟩
        rintro rfl
        exact BlockServer.start_returned hok
      · exact fun fault final herror => hkeeps.error hcreate herror
  have hhosts : BlockServer.HostsRegistered order run.server := by
    unfold Holds at hrun
    split at hrun
    · exact hrun.1.1
    · exact hrun
  refine ⟨hhosts.registered, ?_⟩
  intro hreturned info before message after hhandled hregisters
  rw [Holds, hreturned] at hrun
  obtain ⟨⟨hserver, hsettled⟩, hempty⟩ := hrun
  have habsent : ¬ Registered order run.server.handled info := by
    rw [← hserver.registered hsettled info,
      OrderedMap.find?_of_isEmpty (hempty rfl)]
    simp
  by_contra hnone
  push Not at hnone
  rw [hhandled] at habsent
  exact habsent (registered_of_no_release hregisters hnone)

end ServerRun

end Multisync
