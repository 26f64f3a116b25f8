import Multisync.Framing
import Mathlib.Tactic

/-!
# The loop both ends share

Client and server each own a socket and a queue of messages, and have the same
`select` and the same two first lines of `process_message`.
-/

namespace Multisync

open ByteLayout Effects

/-- Where the state of an end keeps its socket and its queue. -/
structure Endpoint (σ : Type) where
  socket : σ → BlockSocket
  putSocket : BlockSocket → σ → σ
  messageQueue : σ → List Message
  putQueue : List Message → σ → σ

namespace Endpoint

variable {σ : Type} (endpoint : Endpoint σ) (order : ByteOrder)

/-- `socket >> message`, into a message made to receive. -/
def receiveMessage (arrival : Except String (Address × Bytes)) :
    EStateM Fault σ Message :=
  zoom endpoint.socket endpoint.putSocket
    (BlockSocket.receive order receiveReserve arrival)

/-- `socket << message_queue.front()` and `pop_front`, for a queue that must
have a front. -/
def sendFront (sendError : Option String) : EStateM Fault σ Unit := do
  let state ← get
  match endpoint.messageQueue state with
  | [] => throw .undefined
  | message :: rest =>
      zoom endpoint.socket endpoint.putSocket
        (BlockSocket.send order message sendError)
      modify (endpoint.putQueue rest)

/-- `select`, with the results of its system calls. -/
def select (ready : Except String Ready) (processMessage : EStateM Fault σ Unit)
    (sendError : Option String) : EStateM Fault σ Unit := do
  match ready with
  | .error error => throw (.system error)
  | .ok ready =>
      let state ← get
      let status := BlockSocket.select ready (!(endpoint.messageQueue state).isEmpty)
      if status = .read ∨ status = .both then
        processMessage
      if status = .write ∨ status = .both then
        endpoint.sendFront order sendError

/-- The wait ends: `::select` fails, or finds a polled condition met. -/
def Wakes (ready : Except String Ready) (state : σ) : Prop :=
  match ready with
  | .error _ => True
  | .ok ready => ready.wakes (!(endpoint.messageQueue state).isEmpty) = true

instance (ready : Except String Ready) (state : σ) :
    Decidable (endpoint.Wakes ready state) := by
  unfold Wakes
  split <;> infer_instance

section Rules

variable {endpoint order} {P E : σ → Prop} {sendError : Option String} {state : σ}

theorem sendFront_of_nil (hqueue : endpoint.messageQueue state = []) :
    endpoint.sendFront order sendError state = .error .undefined state := by
  simp only [sendFront, bind_apply, get_apply, hqueue, throw_apply]

theorem sendFront_of_cons {message : Message} {rest : List Message}
    (hqueue : endpoint.messageQueue state = message :: rest) :
    endpoint.sendFront order sendError state =
      match BlockSocket.send order message sendError (endpoint.socket state) with
      | .ok _ socket =>
          .ok () (endpoint.putQueue rest (endpoint.putSocket socket state))
      | .error fault socket => .error fault (endpoint.putSocket socket state) := by
  simp only [sendFront, bind_apply, get_apply, hqueue, zoom]
  cases BlockSocket.send order message sendError (endpoint.socket state) with
  | ok value socket => rfl
  | error fault socket => rfl

/-- A send that returns has moved the front of the queue to what was sent. -/
theorem sendFront_eq_ok {final : σ}
    (hok : endpoint.sendFront order sendError state = .ok () final) :
    ∃ message rest, endpoint.messageQueue state = message :: rest ∧
      final = endpoint.putQueue rest (endpoint.putSocket { endpoint.socket state with
        sent := (endpoint.socket state).sent ++
          [((endpoint.socket state).destination, message.buffer)] } state) := by
  cases hqueue : endpoint.messageQueue state with
  | nil =>
      rw [sendFront_of_nil hqueue] at hok
      contradiction
  | cons message rest =>
      rw [sendFront_of_cons hqueue] at hok
      cases hsend : BlockSocket.send order message sendError (endpoint.socket state) with
      | error fault socket =>
          rw [hsend] at hok
          contradiction
      | ok value socket =>
          rw [hsend, BlockSocket.send_eq_ok order hsend] at hok
          cases hok
          exact ⟨message, rest, rfl, rfl⟩

/-- Sending changes the socket and, unless it throws, takes the front off the
queue. -/
theorem sendFront_keeps
    (hweak : ∀ state, P state → E state)
    (hsend : ∀ state message rest socket,
      endpoint.messageQueue state = message :: rest → P state →
      BlockSocket.send order message sendError (endpoint.socket state) =
        .ok () socket →
      P (endpoint.putQueue rest (endpoint.putSocket socket state)))
    (hthrow : ∀ state message rest fault socket,
      endpoint.messageQueue state = message :: rest → P state →
      BlockSocket.send order message sendError (endpoint.socket state) =
        .error fault socket →
      E (endpoint.putSocket socket state)) :
    Keeps P E (endpoint.sendFront order sendError) := by
  intro state hstate
  cases hqueue : endpoint.messageQueue state with
  | nil =>
      rw [sendFront_of_nil hqueue]
      exact hweak state hstate
  | cons message rest =>
      rw [sendFront_of_cons hqueue]
      cases hrun : BlockSocket.send order message sendError
          (endpoint.socket state) with
      | ok value socket =>
          exact hsend state message rest socket hqueue hstate hrun
      | error fault socket =>
          exact hthrow state message rest fault socket hqueue hstate hrun

/-- What does not look at the queue, and in the socket at no more than that what was
sent stays sent, is kept. -/
theorem sendFront_keeps_of_sent
    (hsent : ∀ state sent, P state → (endpoint.socket state).sent <+: sent →
      P (endpoint.putSocket { endpoint.socket state with sent := sent } state))
    (hpop : ∀ state rest, P state → P (endpoint.putQueue rest state)) :
    Keeps P P (endpoint.sendFront order sendError) := by
  apply sendFront_keeps fun _ hstate => hstate
  · intro state message rest socket _ hstate hok
    obtain ⟨sent, hprefix, hsocket⟩ := BlockSocket.send_endState order message sendError
      (endpoint.socket state)
    rw [hok, endState_ok] at hsocket
    subst hsocket
    exact hpop _ rest (hsent state sent hstate hprefix)
  · intro state message rest fault socket _ hstate herror
    obtain ⟨sent, hprefix, hsocket⟩ := BlockSocket.send_endState order message sendError
      (endpoint.socket state)
    rw [herror, endState_error] at hsocket
    subst hsocket
    exact hsent state sent hstate hprefix

theorem select_keeps {ready : Except String Ready}
    {processMessage : EStateM Fault σ Unit}
    (hweak : ∀ state, P state → E state)
    (hprocess : Keeps P E processMessage)
    (hsend : Keeps P E (endpoint.sendFront order sendError)) :
    Keeps P E (endpoint.select order ready processMessage sendError) := by
  unfold select
  split
  · exact Triple.throw hweak
  · refine Keeps.bind Keeps.get fun state _ => ?_
    refine Triple.ite (fun _ => Keeps.bind hprocess fun _ _ => ?_) fun _ => ?_
    · exact Triple.ite (fun _ => hsend) fun _ => Keeps.pure _
    · exact Triple.ite (fun _ => hsend) fun _ => Keeps.pure _

/-- One call of `select`: a message is processed if one can be read, and then the
front of the queue is sent if there was one before and it can be. -/
theorem select_of_ready {ready : Ready} {processMessage : EStateM Fault σ Unit} :
    endpoint.select order (.ok ready) processMessage sendError state =
      ((if ready.readable = true then processMessage else pure ()) >>= fun _ =>
        if endpoint.messageQueue state ≠ [] ∧ ready.writable = true then
          endpoint.sendFront order sendError
        else pure ()) state := by
  let pollRead := !(endpoint.messageQueue state).isEmpty
  have hpoll : pollRead = true ↔ endpoint.messageQueue state ≠ [] := by
    simp [pollRead]
  have hreads := BlockSocket.select_reads ready pollRead
  have hwrites := (BlockSocket.select_writes ready pollRead).trans (and_congr_left' hpoll)
  let body : EStateM Fault σ Unit := do
    if BlockSocket.select ready pollRead = .read ∨
        BlockSocket.select ready pollRead = .both then
      processMessage
    if BlockSocket.select ready pollRead = .write ∨
        BlockSocket.select ready pollRead = .both then
      endpoint.sendFront order sendError
  have hunfold : endpoint.select order (.ok ready) processMessage sendError state =
      body state := rfl
  rw [hunfold]
  simp only [body, hreads, hwrites]
  split_ifs <;> rfl

theorem select_triple {ready : Ready} {processMessage : EStateM Fault σ Unit}
    {Q R : σ → Prop} {F : Fault → σ → Prop}
    (hprocess : ready.readable = true → Triple P processMessage (fun _ => Q) F)
    (hskip : ready.readable = false → ∀ state, P state → Q state)
    (hqueue : Keeps (fun state => endpoint.messageQueue state ≠ []) (fun _ => True)
      processMessage)
    (hsend : Triple (fun state => Q state ∧ endpoint.messageQueue state ≠ [])
      (endpoint.sendFront order sendError) (fun _ => R) F)
    (hidle : ∀ state, Q state → R state) :
    Triple P (endpoint.select order (.ok ready) processMessage sendError)
      (fun _ => R) F := by
  intro state hstate
  let Polled : σ → Prop := fun current =>
    endpoint.messageQueue state ≠ [] → endpoint.messageQueue current ≠ []
  have hread : Triple (fun current => P current ∧ Polled current)
      (if ready.readable = true then processMessage else pure ())
      (fun _ current => Q current ∧ Polled current) F := by
    refine Triple.ite (fun hreadable current hcurrent => ?_) fun hreadable =>
      Triple.pure fun current hcurrent => ?_
    · cases hrun : processMessage current with
      | ok value final =>
          refine ⟨(hprocess hreadable).ok hcurrent.1 hrun, fun hne => ?_⟩
          exact hqueue.ok (hcurrent.2 hne) hrun
      | error fault final => exact (hprocess hreadable).error hcurrent.1 hrun
    · exact ⟨hskip (Bool.eq_false_iff.mpr hreadable) current hcurrent.1, hcurrent.2⟩
  have hrest : Triple (fun current => Q current ∧ Polled current)
      (if endpoint.messageQueue state ≠ [] ∧ ready.writable = true then
        endpoint.sendFront order sendError
      else pure ()) (fun _ => R) F := by
    refine Triple.ite (fun hwrites => ?_) fun _ => Triple.pure fun _ h => hidle _ h.1
    exact hsend.weaken (fun _ h => ⟨h.1, h.2 hwrites.1⟩) (fun _ _ h => h) fun _ _ h => h
  rw [select_of_ready]
  exact Triple.bind hread (fun _ => hrest) state ⟨hstate, id⟩

end Rules

end Endpoint

end Multisync
