import Multisync.EndToEnd
import Mathlib.Tactic

/-!
# A network that loses, repeats and reorders

Datagrams that lie unread at a socket may disappear, may be there several times, and
have no order; but none is made up, and no other host sends.  What each party does by
itself, as long as it only reads what the parties send, holds of every network that any
number of steps leads to.
-/

namespace Multisync

open ByteLayout Effects

namespace Network

variable {ι : Type} [DecidableEq ι]

/-- What the system calls may give; for a client it may depend on its state. -/
structure Conditions where
  serverInput : ServerInput → Prop
  clientInput : BlockClient → ClientInput → Prop

/-- A step of a closed network, or a change of what lies unread. -/
inductive LossyStep (site : Site ι) (conditions : Conditions) :
    Network ι → Network ι → Prop
  | startServer {net : Network ι} (ephemeral : UInt16) (openError : Option String)
      (input : ServerInput) (hnone : net.server = none)
      (hinput : conditions.serverInput input) :
      LossyStep site conditions net (net.serverStart site ephemeral openError input)
  | startClient {net : Network ι} (i : ι) (ephemeral : UInt16)
      (openError : Option String) (hnone : net.clients i = none) :
      LossyStep site conditions net (net.clientStart site i ephemeral openError)
  | server {net : Network ι} {run : ServerRun} (input : ServerInput)
      (hrun : net.server = some run) (hlive : run.socket?.isSome)
      (hinput : conditions.serverInput input)
      (harrives : Arrives input.ready input.arrival net.serverInbox) :
      LossyStep site conditions net (net.serverStep site run input)
  | client {net : Network ι} (i : ι) {run : ClientRun} (input : ClientInput)
      (hrun : net.clients i = some run) (hlive : run.socket?.isSome)
      (hinput : conditions.clientInput run.client input)
      (harrives : Arrives input.ready input.arrival (net.clientInbox i)) :
      LossyStep site conditions net (net.clientStep site i run input)
  | redeliver {net : Network ι} (serverInbox : List (Address × Bytes))
      (clientInbox : ι → List (Address × Bytes))
      (hserver : ∀ datagram ∈ serverInbox, datagram ∈ net.serverInbox)
      (hclients : ∀ i, ∀ datagram ∈ clientInbox i, datagram ∈ net.clientInbox i) :
      LossyStep site conditions net
        { net with serverInbox := serverInbox, clientInbox := clientInbox }

/-- The networks that any number of such steps leads to. -/
def Lossy (site : Site ι) (conditions : Conditions) : Network ι → Network ι → Prop :=
  Relation.ReflTransGen (LossyStep site conditions)

variable {site : Site ι} {conditions : Conditions} {net net' : Network ι}

/-- A network without losses is one of these, if no other host sends. -/
theorem Reachable.lossy {circumstances : Circumstances}
    (hclosed : ¬ circumstances.outsiders)
    (hserver : ∀ input, circumstances.serverInput input → conditions.serverInput input)
    (hclient : ∀ client input, circumstances.clientInput input →
      conditions.clientInput client input)
    (hnet : Reachable site circumstances net net') : Lossy site conditions net net' := by
  refine Relation.ReflTransGen.mono (fun first second hstep => ?_) _ _ hnet
  cases hstep with
  | startServer ephemeral openError input hnone hinput =>
      exact .startServer ephemeral openError input hnone (hserver input hinput)
  | startClient i ephemeral openError hnone => exact .startClient i ephemeral openError hnone
  | server input hrun hlive hinput harrives =>
      exact .server input hrun hlive (hserver input hinput) harrives
  | client i input hrun hlive hinput harrives =>
      exact .client i input hrun hlive (hclient _ input hinput) harrives
  | outsider source destination bytes houtsiders => exact absurd houtsiders hclosed

/-! ## Parties that keep to their part -/

/-- What arrives in a wait has the property. -/
def Brought (D : Bytes → Prop) (arrival : Except String (Address × Bytes)) : Prop :=
  ∀ datagram, arrival = .ok datagram → D datagram.2

/-- A property of the server's run, one of each client's, and one of what they send,
which each party keeps as long as it reads nothing else. -/
structure Contract (site : Site ι) (conditions : Conditions) (S : ServerRun → Prop)
    (C : ι → ClientRun → Prop) (D : Bytes → Prop) : Prop where
  serverStart : ∀ ephemeral openError input, conditions.serverInput input →
    S (ServerRun.start site.serverOrder ephemeral openError input site.server)
  serverStep : ∀ run input, S run → conditions.serverInput input →
    Brought D input.arrival → S (run.step site.serverOrder input)
  serverSent : ∀ run, S run → ∀ datagram ∈ run.server.socket.sent, D datagram.2
  clientStart : ∀ i ephemeral openError,
    C i (ClientRun.start (site.clientOrder i) ephemeral openError (site.client i))
  clientStep : ∀ i run input, C i run → conditions.clientInput run.client input →
    Brought D input.arrival → C i (run.step (site.clientOrder i) input)
  clientSent : ∀ i run, C i run → ∀ datagram ∈ run.client.socket.sent, D datagram.2

/-- The runs and what lies unread have the properties. -/
structure Keeping (S : ServerRun → Prop) (C : ι → ClientRun → Prop) (D : Bytes → Prop)
    (net : Network ι) : Prop where
  server : ∀ run, net.server = some run → S run
  clients : ∀ i run, net.clients i = some run → C i run
  serverInbox : ∀ datagram ∈ net.serverInbox, D datagram.2
  clientInbox : ∀ i, ∀ datagram ∈ net.clientInbox i, D datagram.2

theorem Arrives.brought {D : Bytes → Prop} {ready : Except String Ready}
    {arrival : Except String (Address × Bytes)} {inbox : List (Address × Bytes)}
    (harrives : Arrives ready arrival inbox)
    (hinbox : ∀ datagram ∈ inbox, D datagram.2) : Brought D arrival :=
  fun datagram harrival => hinbox datagram (harrives datagram harrival).1

theorem clientStep_inbox_self {i : ι} {run : ClientRun} {input : ClientInput} :
    (net.clientStep site i run input).clientInbox i =
      unread input.arrival (net.clientInbox i) ++
        taken (site.clientIp i) (net.clientSocket? i)
          ⟨site.clientIp i, run.client.socket.bound.getD 0⟩
          ((run.step (site.clientOrder i) input).client.socket.sent.drop
            run.client.socket.sent.length) := by
  simp [Network.clientStep, transmit, clientSocket?]

theorem clientStep_inbox_ne {i j : ι} {run : ClientRun} {input : ClientInput}
    (hne : j ≠ i) :
    (net.clientStep site i run input).clientInbox j = net.clientInbox j ++
      taken (site.clientIp j) (net.clientSocket? j)
        ⟨site.clientIp i, run.client.socket.bound.getD 0⟩
        ((run.step (site.clientOrder i) input).client.socket.sent.drop
          run.client.socket.sent.length) := by
  simp [Network.clientStep, transmit, clientSocket?, hne]

/-! ## What lies unread -/

/-- A party has sent the datagram. -/
def Sent (net : Network ι) (bytes : Bytes) : Prop :=
  (∃ run, net.server = some run ∧ ∃ datagram ∈ run.server.socket.sent, datagram.2 = bytes) ∨
    ∃ i run, net.clients i = some run ∧
      ∃ datagram ∈ run.client.socket.sent, datagram.2 = bytes

/-- What lies unread after a step lay there before, or a party has sent it. -/
structure Passes (net net' : Network ι) : Prop where
  serverInbox : ∀ datagram ∈ net'.serverInbox,
    datagram ∈ net.serverInbox ∨ net'.Sent datagram.2
  clientInbox : ∀ i, ∀ datagram ∈ net'.clientInbox i,
    datagram ∈ net.clientInbox i ∨ net'.Sent datagram.2

omit [DecidableEq ι] in
theorem mem_or_sent {ip : UInt32} {socket? : Option BlockSocket}
    {source : Address} {arrival : Except String (Address × Bytes)}
    {inbox sent : List (Address × Bytes)} (hsent : ∀ datagram ∈ sent, net.Sent datagram.2) :
    ∀ datagram ∈ unread arrival inbox ++ taken ip socket? source sent,
      datagram ∈ inbox ∨ net.Sent datagram.2 :=
  forall_mem_unread_taken (fun _ hmem => Or.inl hmem)
    fun datagram hmem _ => Or.inr (hsent datagram hmem)

theorem LossyStep.passes (hstep : LossyStep site conditions net net') :
    Passes net net' := by
  cases hstep with
  | startServer ephemeral openError input hnone hinput =>
      exact ⟨fun _ hmem => Or.inl hmem, fun _ _ hmem => Or.inl hmem⟩
  | startClient i ephemeral openError hnone =>
      exact ⟨fun _ hmem => Or.inl hmem, fun _ _ hmem => Or.inl hmem⟩
  | @server run input hrun hlive hinput harrives =>
      have hsent : ∀ datagram ∈ (run.step site.serverOrder input).server.socket.sent.drop
          run.server.socket.sent.length, (net.serverStep site run input).Sent datagram.2 :=
        fun datagram hmem => Or.inl ⟨_, rfl, datagram, List.mem_of_mem_drop hmem, rfl⟩
      refine ⟨mem_or_sent hsent, fun i => ?_⟩
      exact @mem_or_sent _ _ _ _ _ (.error "") _ _ hsent
  | @client i run input hrun hlive hinput harrives =>
      have hsent : ∀ datagram ∈ (run.step (site.clientOrder i) input).client.socket.sent.drop
          run.client.socket.sent.length, (net.clientStep site i run input).Sent datagram.2 :=
        fun datagram hmem =>
          Or.inr ⟨i, _, clientStep_self, datagram, List.mem_of_mem_drop hmem, rfl⟩
      refine ⟨@mem_or_sent _ _ _ _ _ (.error "") _ _ hsent, fun j => ?_⟩
      by_cases hji : j = i
      · subst hji
        rw [clientStep_inbox_self]
        exact mem_or_sent hsent
      · rw [clientStep_inbox_ne hji]
        exact @mem_or_sent _ _ _ _ _ (.error "") _ _ hsent
  | redeliver serverInbox clientInbox hserver hclients =>
      exact ⟨fun datagram hmem => Or.inl (hserver datagram hmem),
        fun i datagram hmem => Or.inl (hclients i datagram hmem)⟩

/-- A server that runs goes on, and what it has sent stays sent. -/
theorem LossyStep.server_sent (hstep : LossyStep site conditions net net') {run : ServerRun}
    (hrun : net.server = some run) :
    ∃ run', net'.server = some run' ∧ run.server.socket.sent <+: run'.server.socket.sent := by
  cases hstep with
  | startServer ephemeral openError input hnone hinput =>
      rw [hrun] at hnone
      contradiction
  | startClient i ephemeral openError hnone => exact ⟨run, hrun, List.prefix_refl _⟩
  | server input hsome hlive hinput harrives =>
      cases hrun.symm.trans hsome
      exact ⟨_, rfl, run.step_sent input⟩
  | client i input hsome hlive hinput harrives => exact ⟨run, hrun, List.prefix_refl _⟩
  | redeliver serverInbox clientInbox hserver hclients =>
      exact ⟨run, hrun, List.prefix_refl _⟩

theorem LossyStep.client_sent (hstep : LossyStep site conditions net net') {i : ι}
    {run : ClientRun} (hrun : net.clients i = some run) :
    ∃ run', net'.clients i = some run' ∧
      run.client.socket.sent <+: run'.client.socket.sent := by
  cases hstep with
  | startServer ephemeral openError input hnone hinput =>
      exact ⟨run, hrun, List.prefix_refl _⟩
  | startClient j ephemeral openError hnone =>
      have hne : i ≠ j := by
        rintro rfl
        rw [hrun] at hnone
        contradiction
      exact ⟨run, (clientStart_ne hne).trans hrun, List.prefix_refl _⟩
  | server input hsome hlive hinput harrives => exact ⟨run, hrun, List.prefix_refl _⟩
  | client j input hsome hlive hinput harrives =>
      by_cases hij : i = j
      · subst hij
        cases hrun.symm.trans hsome
        exact ⟨_, clientStep_self, run.step_sent input⟩
      · exact ⟨run, (clientStep_ne hij).trans hrun, List.prefix_refl _⟩
  | redeliver serverInbox clientInbox hserver hclients =>
      exact ⟨run, hrun, List.prefix_refl _⟩

theorem LossyStep.sent (hstep : LossyStep site conditions net net') {bytes : Bytes}
    (hbytes : net.Sent bytes) : net'.Sent bytes := by
  rcases hbytes with ⟨run, hrun, datagram, hmem, hdatagram⟩ |
    ⟨i, run, hrun, datagram, hmem, hdatagram⟩
  · obtain ⟨run', hrun', hprefix⟩ := hstep.server_sent hrun
    exact Or.inl ⟨run', hrun', datagram, hprefix.subset hmem, hdatagram⟩
  · obtain ⟨run', hrun', hprefix⟩ := hstep.client_sent hrun
    exact Or.inr ⟨i, run', hrun', datagram, hprefix.subset hmem, hdatagram⟩

/-- What lies unread has been sent. -/
structure Genuine (net : Network ι) : Prop where
  serverInbox : ∀ datagram ∈ net.serverInbox, net.Sent datagram.2
  clientInbox : ∀ i, ∀ datagram ∈ net.clientInbox i, net.Sent datagram.2

theorem LossyStep.genuine (hstep : LossyStep site conditions net net')
    (hnet : Genuine net) : Genuine net' where
  serverInbox datagram hmem := (hstep.passes.serverInbox datagram hmem).elim
    (fun hold => hstep.sent (hnet.serverInbox datagram hold)) id
  clientInbox i datagram hmem := (hstep.passes.clientInbox i datagram hmem).elim
    (fun hold => hstep.sent (hnet.clientInbox i datagram hold)) id

/-- Losses and repetitions make nothing up. -/
theorem Lossy.genuine (hnet : Lossy site conditions empty net) : Genuine net := by
  induction hnet with
  | refl =>
      constructor
      · intro datagram hmem
        contradiction
      · intro i datagram hmem
        contradiction
  | tail _ hstep ih => exact hstep.genuine ih

section Contract

variable {S : ServerRun → Prop} {C : ι → ClientRun → Prop} {D : Bytes → Prop}

theorem Contract.server (hcontract : Contract site conditions S C D)
    (hnet : Keeping S C D net) (hstep : LossyStep site conditions net net')
    {run : ServerRun} (hrun : net'.server = some run) : S run := by
  cases hstep with
  | startServer ephemeral openError input hnone hinput =>
      cases hrun
      exact hcontract.serverStart ephemeral openError input hinput
  | startClient i ephemeral openError hnone => exact hnet.server run hrun
  | @server before input hbefore hlive hinput harrives =>
      cases hrun
      exact hcontract.serverStep before input (hnet.server before hbefore) hinput
        (harrives.brought hnet.serverInbox)
  | client i input hsome hlive hinput harrives => exact hnet.server run hrun
  | redeliver serverInbox clientInbox hserver hclients => exact hnet.server run hrun

theorem Contract.client (hcontract : Contract site conditions S C D)
    (hnet : Keeping S C D net) (hstep : LossyStep site conditions net net') {i : ι}
    {run : ClientRun} (hrun : net'.clients i = some run) : C i run := by
  cases hstep with
  | startServer ephemeral openError input hnone hinput => exact hnet.clients i run hrun
  | startClient j ephemeral openError hnone =>
      by_cases hij : i = j
      · subst hij
        rw [clientStart_self] at hrun
        cases hrun
        exact hcontract.clientStart i ephemeral openError
      · rw [clientStart_ne hij] at hrun
        exact hnet.clients i run hrun
  | server input hsome hlive hinput harrives => exact hnet.clients i run hrun
  | @client j before input hbefore hlive hinput harrives =>
      by_cases hij : i = j
      · subst hij
        rw [clientStep_self] at hrun
        cases hrun
        exact hcontract.clientStep i before input (hnet.clients i before hbefore) hinput
          (harrives.brought (hnet.clientInbox i))
      · rw [clientStep_ne hij] at hrun
        exact hnet.clients i run hrun
  | redeliver serverInbox clientInbox hserver hclients => exact hnet.clients i run hrun

theorem Contract.lossyStep (hcontract : Contract site conditions S C D)
    (hnet : Keeping S C D net) (hstep : LossyStep site conditions net net') :
    Keeping S C D net' := by
  have hsent : ∀ bytes, net'.Sent bytes → D bytes := by
    rintro bytes (⟨run, hrun, datagram, hmem, rfl⟩ | ⟨i, run, hrun, datagram, hmem, rfl⟩)
    · exact hcontract.serverSent run (hcontract.server hnet hstep hrun) datagram hmem
    · exact hcontract.clientSent i run (hcontract.client hnet hstep hrun) datagram hmem
  refine ⟨fun run => hcontract.server hnet hstep, fun i run => hcontract.client hnet hstep,
    fun datagram hmem => ?_, fun i datagram hmem => ?_⟩
  · exact (hstep.passes.serverInbox datagram hmem).elim (hnet.serverInbox datagram)
      (hsent datagram.2)
  · exact (hstep.passes.clientInbox i datagram hmem).elim (hnet.clientInbox i datagram)
      (hsent datagram.2)

theorem Contract.lossy_of_keeping (hcontract : Contract site conditions S C D)
    (hkeeping : Keeping S C D net) (hnet : Lossy site conditions net net') :
    Keeping S C D net' := by
  induction hnet with
  | refl => exact hkeeping
  | tail _ hstep ih => exact hcontract.lossyStep ih hstep

omit [DecidableEq ι] in
theorem keeping_empty : Keeping S C D (empty : Network ι) where
  server := by
    intro run hrun
    contradiction
  clients := by
    intro i run hrun
    contradiction
  serverInbox := by
    intro datagram hmem
    contradiction
  clientInbox := by
    intro i datagram hmem
    contradiction

theorem Contract.lossy (hcontract : Contract site conditions S C D)
    (hnet : Lossy site conditions empty net) : Keeping S C D net :=
  hcontract.lossy_of_keeping keeping_empty hnet

end Contract

end Network

end Multisync
