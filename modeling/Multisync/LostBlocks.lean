import Multisync.Agreement
import Multisync.WrittenBlocks
import Mathlib.Tactic

/-!
# A block that was lost

Nothing asks for a block again, and when `start` of the server has ended nothing
sends it again.  So a client that lacks a block then, and has no datagram with it left to read,
lacks it for good.
-/

namespace Multisync

open ByteLayout Effects

namespace BlockClient

/-- No record has the block with this number. -/
def Missing (number : ℕ) (client : BlockClient) : Prop :=
  ∀ info status, client.syncSet.find? info = some status →
    status.blockArray[number]? ≠ some true

variable {order : ByteOrder} {env : Environment} {message : Message} {address : Address}
  {number : ℕ}

/-- A message that is no goodbye and does not bring the block. -/
theorem handle_missing (hquiet : message.getType order ≠ MessageType.sgoodbye.code)
    {id : UInt32} (hnot : message.fileMessage? order id ≠ some (.block number)) :
    Keeps (Missing number) (Missing number) (handle order env message address) := by
  apply handle_triple_of_quiet hquiet fun _ hclient => hclient
  · intro info client status files _ hclient hnone hcreate
    obtain ⟨_, hstatus, _⟩ := SyncStatus.create_eq_ok hcreate
    refine OrderedMap.forall_insert hnone (fun other found _ => hclient other found) ?_
    rw [hstatus, List.getElem?_replicate]
    split
    · simp
    · simp
  · intro info client status state _ hclient hfind hworks
    refine OrderedMap.forall_replace hfind (fun other found _ => hclient other found) ?_
    rw [ne_eq, hworks.marks]
    rintro (hmarked | ⟨⟨htype, block, hblock, hnumber⟩, _⟩)
    · exact hclient info status hfind hmarked
    · apply hnot
      rw [Message.fileMessage?_of_block htype hblock, hnumber]
  · intro info client status _ hclient hfind _
    refine OrderedMap.forall_erase fun other found hother hfound => ?_
    rw [publish, putStatus, OrderedMap.find?_replace_ne hother] at hfound
    exact hclient other found hfound

end BlockClient

namespace Network

variable {ι : Type} [DecidableEq ι] {site : Site ι} {conditions : Conditions}
  {net net' : Network ι}

/-- What a client of a closed network has is what a run of `start` has. -/
theorem Lossy.clientRun (hnet : Lossy site conditions empty net) {i : ι} {run : ClientRun}
    (hrun : net.clients i = some run) :
    ClientRun.Reachable (site.clientOrder i) (site.client i) run := by
  have hcontract : Contract site conditions (fun _ => True)
      (fun i run => ClientRun.Reachable (site.clientOrder i) (site.client i) run)
      (fun _ => True) := by
    constructor
    · exact fun _ _ _ _ => trivial
    · exact fun _ _ _ _ _ => trivial
    · exact fun _ _ _ _ => trivial
    · exact fun i ephemeral openError => .start ephemeral openError
    · exact fun i run input hrun _ _ => hrun.step input
    · exact fun _ _ _ _ _ => trivial
  exact (hcontract.lossy hnet).clients i run hrun

/-- The client does not take the bytes for the block with this number. -/
def Silent (site : Site ι) (i : ι) (number : ℕ) (bytes : Bytes) : Prop :=
  (Message.received receiveReserve bytes).fileMessage? (site.clientOrder i)
    (site.clientId i) ≠ some (.block number)

/-- The client lacks the block, and no datagram that it has not read brings it. -/
structure Lacking (site : Site ι) (i : ι) (number : ℕ) (net : Network ι) : Prop where
  client : ∃ run, net.clients i = some run ∧ run.client.Missing number
  inbox : ∀ datagram ∈ net.clientInbox i, Silent site i number datagram.2

omit [DecidableEq ι] in
/-- A hello brings no block. -/
theorem Listening.silent {i j : ι} {run : ClientRun} (hrun : Listening site i run)
    {number : ℕ} : ∀ datagram ∈ run.client.socket.sent, Silent site j number datagram.2 := by
  intro datagram hmem
  obtain ⟨hello, _, hgreeting, hposted⟩ := hrun.posted
  have hbytes : datagram.2 ∈ hello := by
    rw [← hposted]
    exact List.mem_append_left _ (List.mem_map_of_mem hmem)
  have hhails := hello_hails site i j
  rw [← hgreeting _ hbytes] at hhails
  intro hblock
  have hnone : (site.only j).hear datagram = none := hhails.hear_eq_none
  rw [Site.hear] at hnone
  exact Option.some_ne_none _ (hblock.symm.trans hnone)

omit [DecidableEq ι] in
/-- What a client reads that does not bring the block. -/
theorem missing_step {i : ι} {number : ℕ} {run : ClientRun} {input : ClientInput}
    (hmissing : run.client.Missing number)
    (htyped : Brought (Typed spoken) input.arrival)
    (hsilent : Brought (Silent site i number) input.arrival) :
    (run.step (site.clientOrder i) input).client.Missing number := by
  refine ClientRun.step_keeps ?_ hmissing
  apply BlockClient.select_keeps_of_message
  · exact fun _ _ _ hclient => hclient
  · intro message sender hmessage
    have hquiet := @BlockClient.quiet_of_message (site.clientOrder i) input spoken message
      htyped (by decide) hmessage
    obtain ⟨datagram, harrival, rfl⟩ := ClientInput.arrival_of_message hmessage
    exact BlockClient.handle_missing hquiet (hsilent datagram harrival)

theorem Lacking.step {i : ι} {number : ℕ} {serverRun : ServerRun}
    (hnet : Lossy site conditions empty net) (hserver : net.server = some serverRun)
    (hended : serverRun.socket? = none) (hlacking : Lacking site i number net)
    (hstep : LossyStep site conditions net net') :
    net'.server = some serverRun ∧ Lacking site i number net' := by
  have hkeeping := contract_closed.lossy hnet
  obtain ⟨⟨run, hrun, hmissing⟩, hinbox⟩ := hlacking
  cases hstep with
  | startServer ephemeral openError input hnone hinput =>
      rw [hserver] at hnone
      contradiction
  | startClient j ephemeral openError hnone =>
      have hij : i ≠ j := by
        rintro rfl
        rw [hrun] at hnone
        contradiction
      exact ⟨hserver, ⟨run, (clientStart_ne hij).trans hrun, hmissing⟩, hinbox⟩
  | server input hsome hlive hinput harrives =>
      rw [hserver] at hsome
      cases hsome
      rw [hended] at hlive
      contradiction
  | @client j other input hother hlive hinput harrives =>
      have hstep : LossyStep site conditions net (net.clientStep site j other input) :=
        .client j input hother hlive hinput harrives
      have hlistening := (contract_closed.lossyStep hkeeping hstep).clients j _ clientStep_self
      have hsent : ∀ datagram ∈ (other.step (site.clientOrder j) input).client.socket.sent.drop
          other.client.socket.sent.length, Silent site i number datagram.2 :=
        fun datagram hmem => hlistening.silent datagram (List.mem_of_mem_drop hmem)
      refine ⟨hserver, ?_, ?_⟩
      · by_cases hij : i = j
        · subst hij
          rw [hrun] at hother
          cases hother
          exact ⟨_, clientStep_self, missing_step hmissing
            (harrives.brought (hkeeping.clientInbox i)) (harrives.brought hinbox)⟩
        · exact ⟨run, (clientStep_ne hij).trans hrun, hmissing⟩
      · by_cases hij : i = j
        · subst hij
          rw [clientStep_inbox_self]
          exact forall_mem_unread_taken hinbox fun datagram hmem _ => hsent datagram hmem
        · rw [clientStep_inbox_ne hij]
          exact @forall_mem_unread_taken _ _ _ _ (.error "") _ _ hinbox
            fun datagram hmem _ => hsent datagram hmem
  | redeliver serverInbox clientInbox hinboxes hclients =>
      exact ⟨hserver, ⟨run, hrun, hmissing⟩, fun datagram hmem =>
        hinbox datagram (hclients i datagram hmem)⟩

/-- After the server has ended, a block that a client lacks and cannot read any more is
lost: no record of the client gets it, and none that needs it is ever complete. -/
theorem Lossy.lost (hnet : Lossy site conditions empty net) {serverRun : ServerRun}
    (hserver : net.server = some serverRun) (hended : serverRun.socket? = none) {i : ι}
    {number : ℕ} (hlacking : Lacking site i number net)
    (hlater : Lossy site conditions net net') :
    ∃ run, net'.clients i = some run ∧
      ∀ info status, run.client.syncSet.find? info = some status →
        status.blockArray[number]? ≠ some true ∧
          (number < (info.getBlockCount (site.clientOrder i)).toNat → ¬ status.Complete) := by
  have hstill : net'.server = some serverRun ∧ Lacking site i number net' := by
    induction hlater with
    | refl => exact ⟨hserver, hlacking⟩
    | tail hmid hstep ih => exact ih.2.step (hnet.trans hmid) ih.1 hended hstep
  obtain ⟨run, hrun, hmissing⟩ := hstill.2.client
  refine ⟨run, hrun, fun info status hfind => ⟨hmissing info status hfind, ?_⟩⟩
  intro hlt hcomplete
  have hnet' : Lossy site conditions empty net' := hnet.trans hlater
  obtain ⟨past, hobserved⟩ := (hnet'.clientRun hrun).exists_observed
  have haccounted := BlockClient.accounted_of_led hobserved.led hfind
  rw [← haccounted.length] at hlt
  have hnone : false ∉ status.blockArray := by
    rw [← List.count_eq_zero, ← haccounted.remaining, hcomplete.1]
  apply hmissing info status hfind
  rw [List.getElem?_eq_getElem hlt]
  cases hget : status.blockArray[number] with
  | true => rfl
  | false => exact absurd (hget ▸ List.getElem_mem hlt) hnone

/-- The server has ended, and of what it sent only the announcement is left. -/
def announcedNetwork : Network Unit :=
  { sentNetwork with clientInbox := fun i => (sentNetwork.clientInbox i).take 1 }

theorem lacking_announcedNetwork : Lacking fileSite () 0 announcedNetwork := by
  constructor
  · obtain ⟨run, hrun, hempty⟩ := Option.map_eq_some_iff.mp
      (show (announcedNetwork.clients ()).map (fun run => run.client.syncSet.isEmpty) =
        some true by decide +kernel)
    refine ⟨run, hrun, fun info status hfind => ?_⟩
    rw [OrderedMap.find?_of_isEmpty hempty] at hfind
    contradiction
  · have hsilent : ∀ datagram ∈ announcedNetwork.clientInbox (),
        (Message.received receiveReserve datagram.2).fileMessage? .little 5 ≠
          some (.block 0) := by
      decide +kernel
    exact hsilent

/-- The client reads the announcement, and waits for a block that does not come. -/
theorem announcedNetwork_lost : ∃ run,
    (announcedNetwork.clientReads false).clients () = some run ∧
      ∀ info status, run.client.syncSet.find? info = some status →
        status.blockArray[0]? ≠ some true ∧
          (0 < (info.getBlockCount (fileSite.clientOrder ())).toNat → ¬ status.Complete) := by
  have hnet : Lossy fileSite (fresh fileSite) empty announcedNetwork := by
    apply lossy_sentNetwork.tail
    apply LossyStep.redeliver
    · exact fun _ hmem => hmem
    · exact fun i datagram hmem => List.mem_of_mem_take hmem
  obtain ⟨serverRun, hserver, hended⟩ := Option.map_eq_some_iff.mp
    (show announcedNetwork.server.map (fun run => decide (run.phase = .ok .returned)) =
      some true by decide +kernel)
  have hclosed : serverRun.socket? = none := by
    rw [ServerRun.socket?, of_decide_eq_true hended]
  apply hnet.lost hserver hclosed lacking_announcedNetwork
  apply lossy_clientReads .refl (by decide +kernel)
  intro run datagram hrun _
  have hname : (announcedNetwork.clients ()).map (fun run =>
      run.client.files.directory fileTemp) = some none := by
    decide +kernel
  rw [hrun, Option.map_some] at hname
  exact ⟨Option.some.inj hname, show fileTemp ≠ cstr fileSite.path by decide +kernel⟩

end Network

end Multisync
