import Multisync.Endurance
import Mathlib.Tactic

/-!
# The listener

The program `listen` joins the group and prints the type of every message that it reads.
It sends nothing, and stops at the first wait that fails; what the parties of a closed
network send does not make it stop.
-/

namespace Multisync

open ByteLayout Effects BlockAssembly

structure Listener where
  socket : BlockSocket
  printed : List UInt32

/-- What `::select` and `::recvfrom` give in one turn of the loop. -/
structure ListenInput where
  ready : Except String Ready
  arrival : Except String (Address × Bytes)
  deriving DecidableEq, Repr

namespace Listener

def create (group : UInt32) (port : UInt16) : Listener where
  socket := BlockSocket.create group port
  printed := []

def onSocket {α : Type} (program : EStateM Fault BlockSocket α) : EStateM Fault Listener α :=
  zoom socket (fun socket listener => { listener with socket := socket }) program

/-- `Listen`, up to its loop. -/
def start (ephemeral : UInt16) (openError : Option String) : EStateM Fault Listener Unit :=
  onSocket (BlockSocket.openSocket ephemeral openError)

/-- The body of the loop of `Listen`.  It does not ask whether it can write. -/
def listen (order : ByteOrder) (input : ListenInput) : EStateM Fault Listener Unit := do
  match input.ready with
  | .error error => throw (.system error)
  | .ok ready =>
      let status := BlockSocket.select ready false
      if status = .read ∨ status = .both then
        let message ← onSocket (BlockSocket.receive order receiveReserve input.arrival)
        modify fun listener =>
          { listener with printed := listener.printed ++ [message.getType order] }

end Listener

/-- The listener, and the exception that ended its loop. -/
structure ListenRun where
  listener : Listener
  fault : Option Fault

namespace ListenRun

def ofResult : EStateM.Result Fault Listener Unit → ListenRun
  | .ok _ listener => ⟨listener, none⟩
  | .error fault listener => ⟨listener, some fault⟩

def start (ephemeral : UInt16) (openError : Option String) (listener : Listener) : ListenRun :=
  ofResult (Listener.start ephemeral openError listener)

def step (order : ByteOrder) (run : ListenRun) (input : ListenInput) : ListenRun :=
  match run.fault with
  | none => ofResult (Listener.listen order input run.listener)
  | some _ => run

def steps (order : ByteOrder) (run : ListenRun) (inputs : List ListenInput) : ListenRun :=
  inputs.foldl (step order) run

end ListenRun

/-! ## One turn -/

namespace ListenInput

variable {order : ByteOrder} {input : ListenInput}

/-- The message that can be read. -/
def message? (input : ListenInput) : Option Message :=
  match input.ready, input.arrival with
  | .ok ready, .ok arrival =>
      if ready.readable then some (Message.received receiveReserve arrival.2) else none
  | _, _ => none

/-- The error of the turn: of the wait, of the reception, or of the message. -/
def fault? (order : ByteOrder) (input : ListenInput) : Option Fault :=
  match input.ready, input.arrival with
  | .error error, _ => some (.system error)
  | .ok ready, .error error => if ready.readable then some (.system error) else none
  | .ok ready, .ok arrival =>
      if ready.readable then
        if arrival.2 = [] then some .receivedZeroBytes
        else if (Message.received receiveReserve arrival.2).Framed order then none
        else some .invalidPacketLength
      else none

end ListenInput

namespace Listener

variable {order : ByteOrder} {input : ListenInput} {listener : Listener}

theorem listen_of_ready (ready : Ready) (hready : input.ready = .ok ready) :
    listen order input listener =
      if ready.readable = true then
        match BlockSocket.receive order receiveReserve input.arrival listener.socket with
        | .ok message socket =>
            .ok () ⟨socket, listener.printed ++ [message.getType order]⟩
        | .error fault socket => .error fault { listener with socket := socket }
      else .ok () listener := by
  have hreads := BlockSocket.select_reads ready false
  rw [listen, hready]
  simp only [hreads]
  split_ifs
  · simp only [bind_apply, onSocket, zoom]
    cases BlockSocket.receive order receiveReserve input.arrival listener.socket with
    | ok message socket => rfl
    | error fault socket => rfl
  · rfl

/-- One turn of the loop: an error ends it, and otherwise the type of the message that was
read is printed. -/
theorem listen_outcome (order : ByteOrder) (input : ListenInput) (listener : Listener) :
    ∃ socket, socket.sent = listener.socket.sent ∧
      listen order input listener =
        match input.fault? order with
        | some fault => .error fault { listener with socket := socket }
        | none => .ok () ⟨socket, listener.printed ++
            input.message?.toList.map fun message => message.getType order⟩ := by
  cases hready : input.ready with
  | error error =>
      refine ⟨listener.socket, rfl, ?_⟩
      rw [listen, ListenInput.fault?, hready]
      rfl
  | ok ready =>
      rw [listen_of_ready ready hready, ListenInput.fault?, ListenInput.message?, hready]
      cases harrival : input.arrival with
      | error error =>
          refine ⟨listener.socket, rfl, ?_⟩
          cases hreadable : ready.readable with
          | false => simp [hreadable]
          | true => simp [hreadable, BlockSocket.receive_failed]
      | ok datagram =>
          cases hreadable : ready.readable with
          | false => exact ⟨listener.socket, rfl, by simp [hreadable]⟩
          | true =>
              refine ⟨{ listener.socket with sender := datagram.1 }, rfl, ?_⟩
              rw [BlockSocket.receive_datagram]
              simp only [hreadable, if_true]
              split_ifs
              · rfl
              · rfl
              · rfl

end Listener

/-! ## Runs -/

namespace ListenRun

variable {order : ByteOrder}

/-- What a listener has done in the waits so far: in the first of them no error occurred,
and it has printed the types of their messages; the next ended it. -/
structure Listened (order : ByteOrder) (run : ListenRun) (before after : List ListenInput)
    (final : ListenRun) : Prop where
  faultless : ∀ input ∈ before, input.fault? order = none
  printed : final.listener.printed = run.listener.printed ++
    (before.filterMap ListenInput.message?).map fun message => message.getType order
  sent : final.listener.socket.sent = run.listener.socket.sent
  fault : final.fault = after.head?.bind (ListenInput.fault? order)
  ended : final.fault = none → after = []

theorem steps_of_fault {run : ListenRun} {fault : Fault} (hfault : run.fault = some fault)
    (inputs : List ListenInput) : run.steps order inputs = run := by
  induction inputs with
  | nil => rfl
  | cons input inputs ih =>
      have hstep : run.step order input = run := by
        rw [step, hfault]
      rw [steps, List.foldl_cons, hstep]
      exact ih

/-- The listener prints the types of the messages it reads up to the first error. -/
theorem steps_listened {run : ListenRun} (hlive : run.fault = none)
    (inputs : List ListenInput) :
    ∃ before after, inputs = before ++ after ∧
      Listened order run before after (run.steps order inputs) := by
  induction inputs generalizing run with
  | nil => exact ⟨[], [], rfl, by simp, by simp [steps], rfl, hlive, fun _ => rfl⟩
  | cons input inputs ih =>
      obtain ⟨socket, hsent, houtcome⟩ := Listener.listen_outcome order input run.listener
      have hstep : run.step order input =
          ofResult (Listener.listen order input run.listener) := by
        rw [step, hlive]
      rw [steps, List.foldl_cons, hstep, houtcome]
      cases hfault : input.fault? order with
      | some fault =>
          refine ⟨[], input :: inputs, rfl, ?_⟩
          have hstay := @steps_of_fault order
            ⟨{ run.listener with socket := socket }, some fault⟩ fault rfl inputs
          rw [steps] at hstay
          simp only [ofResult, hstay]
          exact ⟨by simp, by simp, hsent, by simp [hfault], by simp⟩
      | none =>
          obtain ⟨before, after, rfl, hlistened⟩ := @ih ⟨⟨socket, run.listener.printed ++
            input.message?.toList.map fun message => message.getType order⟩, none⟩ rfl
          refine ⟨input :: before, after, rfl, ?_, ?_, hlistened.sent.trans hsent,
            hlistened.fault, hlistened.ended⟩
          · intro other hother
            rcases List.mem_cons.mp hother with rfl | hrest
            · exact hfault
            · exact hlistened.faultless other hrest
          · refine hlistened.printed.trans ?_
            cases hmessage : input.message? with
            | none => simp [hmessage]
            | some message => simp [hmessage]

end ListenRun

/-! ## In the group of a closed network -/

namespace Network

variable {ι : Type} [DecidableEq ι] {site : Site ι} {conditions : Conditions} {source : Bytes}

/-- A party of a closed network has sent the datagram. -/
def Overheard (site : Site ι) (conditions : Conditions) (bytes : Bytes) : Prop :=
  ∃ net, Lossy site conditions empty net ∧ net.Sent bytes

theorem Overheard.harmless (hserves : site.server.ServesFile site.serverOrder source)
    (hcount : blockCount blockSize source < 2 ^ 32) (hpath : site.server.path.length ≤ 4056)
    (hread : ∀ input, conditions.serverInput input → input.readError = false) {bytes : Bytes}
    (hbytes : Overheard site conditions bytes) : Harmless bytes := by
  have hcontract := contract_endures hserves hcount hpath hread
  obtain ⟨net, hnet, ⟨run, hrun, datagram, hmem, rfl⟩ | ⟨i, run, hrun, datagram, hmem, rfl⟩⟩ :=
    hbytes
  · exact hcontract.serverSent run ((hcontract.lossy hnet).server run hrun) datagram hmem
  · exact hcontract.clientSent i run ((hcontract.lossy hnet).clients i run hrun) datagram hmem

end Network

/-! ## What a listener reads there -/

theorem Harmless.framed {bytes : Bytes} (hbytes : Harmless bytes) (order : ByteOrder) :
    (Message.received receiveReserve bytes).Framed order :=
  (hbytes.client order (BlockClient.create order 0 0 0 0 FileStore.empty)).1

namespace ListenInput

variable {order : ByteOrder} {input : ListenInput}

theorem fault?_of_harmless {fault : Fault} (hbrought : Network.Brought Harmless input.arrival)
    (hfault : input.fault? order = some fault) : ∃ error, fault = .system error := by
  unfold fault? at hfault
  split at hfault
  next _ error _ =>
    cases hfault
    exact ⟨error, rfl⟩
  next ready error _ _ =>
    split_ifs at hfault
    cases hfault
    exact ⟨error, rfl⟩
  next ready datagram _ harrival =>
    have hharmless := hbrought datagram harrival
    rw [if_neg hharmless.nonempty, if_pos (hharmless.framed order)] at hfault
    split_ifs at hfault

theorem getType_of_harmless {message : Message}
    (hbrought : Network.Brought Harmless input.arrival)
    (hmessage : input.message? = some message) :
    ∃ type ∈ spoken, message.getType order = type.code := by
  unfold message? at hmessage
  split at hmessage
  next ready datagram _ harrival =>
    split_ifs at hmessage
    cases hmessage
    obtain ⟨type, hmem, htype⟩ := (hbrought datagram harrival).typed
    exact ⟨type, hmem, htype order⟩
  next => contradiction

end ListenInput

/-- A listener in the group of a closed network prints the types of what it reads, which
are those of announcements, blocks and hellos; only the system stops it, and it sends
nothing. -/
theorem ListenRun.overhears {ι : Type} [DecidableEq ι] {site : Site ι}
    {conditions : Network.Conditions} {source : Bytes}
    (hserves : site.server.ServesFile site.serverOrder source)
    (hcount : blockCount blockSize source < 2 ^ 32) (hpath : site.server.path.length ≤ 4056)
    (hread : ∀ input, conditions.serverInput input → input.readError = false)
    {order : ByteOrder} {run : ListenRun} (hlive : run.fault = none)
    {inputs : List ListenInput}
    (hinputs : ∀ input ∈ inputs, ∀ datagram, input.arrival = .ok datagram →
      Network.Overheard site conditions datagram.2) :
    ∃ before after, inputs = before ++ after ∧
      Listened order run before after (run.steps order inputs) ∧
      (∀ message ∈ before.filterMap ListenInput.message?,
        ∃ type ∈ spoken, message.getType order = type.code) ∧
      ∀ fault, (run.steps order inputs).fault = some fault →
        ∃ error, fault = .system error := by
  have hbrought : ∀ input ∈ inputs, Network.Brought Harmless input.arrival :=
    fun input hinput datagram harrival =>
      (hinputs input hinput datagram harrival).harmless hserves hcount hpath hread
  obtain ⟨before, after, rfl, hlistened⟩ := @steps_listened order run hlive inputs
  refine ⟨before, after, rfl, hlistened, fun message hmem => ?_, fun fault hfault => ?_⟩
  · obtain ⟨input, hinput, hmessage⟩ := List.mem_filterMap.mp hmem
    exact ListenInput.getType_of_harmless
      (hbrought input (List.mem_append_left _ hinput)) hmessage
  · rw [hlistened.fault] at hfault
    obtain ⟨input, hhead, hinput⟩ := Option.bind_eq_some_iff.mp hfault
    have hmem : input ∈ after := List.mem_of_mem_head? hhead
    exact ListenInput.fault?_of_harmless
      (hbrought input (List.mem_append_right _ hmem)) hinput

namespace Network

def overhearingInput (datagram : Address × Bytes) : ListenInput where
  ready := .ok ⟨true, false⟩
  arrival := .ok datagram

/-- A listener that is bound to the port. -/
def boundListener : ListenRun := ListenRun.start 0 none (Listener.create 1 9000)

/-- The listener reads the announcement and the block of the three bytes. -/
theorem sentNetwork_overheard : ∃ run, sentNetwork.server = some run ∧
    ∃ before after, run.server.socket.sent.map overhearingInput = before ++ after ∧
      ListenRun.Listened .big boundListener before after
        (boundListener.steps .big (run.server.socket.sent.map overhearingInput)) ∧
      ∀ message ∈ before.filterMap ListenInput.message?,
        ∃ type ∈ spoken, message.getType .big = type.code := by
  obtain ⟨run, hrun⟩ := Option.isSome_iff_exists.mp
    (show sentNetwork.server.isSome by decide +kernel)
  have hinputs : ∀ input ∈ run.server.socket.sent.map overhearingInput,
      ∀ datagram, input.arrival = .ok datagram →
        Overheard fileSite (fresh fileSite) datagram.2 := by
    intro input hinput datagram harrival
    obtain ⟨sent, hsent, rfl⟩ := List.mem_map.mp hinput
    cases harrival
    exact ⟨sentNetwork, lossy_sentNetwork, Or.inl ⟨run, hrun, datagram, hsent, rfl⟩⟩
  obtain ⟨before, after, hsplit, hlistened, htypes, _⟩ := ListenRun.overhears
    fileSite_offers.servesFile (by decide) fileSite_offers.path_le (fun _ hread => hread)
    (rfl : boundListener.fault = none) hinputs
  exact ⟨run, hrun, before, after, hsplit, hlistened, htypes⟩

end Network

end Multisync
