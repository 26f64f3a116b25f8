import Multisync.EndToEnd
import Mathlib.Tactic

/-!
# Delivery of a file

The client puts the file into its place as soon as it has handled the announcement and
every block, if the flag of its record holds true, for no server sends the goodbye that
would set it.
-/

namespace Multisync

open ByteLayout Effects BlockAssembly

namespace Network

section Statement

variable {ι : Type} [DecidableEq ι]

/-- The networks steps lead to, where what may happen depends on the network. -/
def Leads (site : Site ι) (allowed : Network ι → Circumstances) :
    Network ι → Network ι → Prop :=
  Relation.ReflTransGen fun net net' => Step site (allowed net) net net'

end Statement

/-- The client has put the file into its place. -/
def Delivered (site : Site Unit) (source : Bytes) (net : Network Unit) : Prop :=
  ∃ run, net.clients () = some run ∧
    (∃ publication, .published site.readInfo publication ∈ run.client.trace ∧
      publication.path = site.path ∧ publication.content = source) ∧
    run.client.files.file? (cstr site.path) = some source

/-- `start` of the server has returned. -/
def Returned (net : Network Unit) : Prop :=
  ∃ run, net.server = some run ∧ run.phase = .ok .returned

/-- The client runs, and nothing else has happened. -/
def oneClient (site : Site Unit) (ephemeral : UInt16) : Network Unit :=
  empty.clientStart site () ephemeral none

/-- Whenever the server has returned and the client has read all it was sent, the file is
in its place. -/
def DeliversFile (site : Site Unit) (allowed : Network Unit → Circumstances)
    (source : Bytes) : Prop :=
  ∀ ephemeral net, Leads site allowed (oneClient site ephemeral) net →
    net.Returned → net.clientInbox () = [] → net.Delivered site source

/-- No operation on a file and no call on the client's socket fails, and no one else
sends. -/
def undisturbed (_ : Network Unit) : Circumstances where
  serverInput := fun input => input.readError = false
  clientInput := BlockClient.Smooth
  outsiders := False

/-- Besides, the flag of a new record holds true, and the server does not only read when
its queue is full and it has another block to post. -/
def attended (site : Site Unit) (net : Network Unit) : Circumstances where
  serverInput := fun input => input.readError = false ∧
    ∀ run phase, net.server = some run → run.phase = .ok phase →
      BlockServer.Crowded site.serverOrder phase run.server → input.Paced
  clientInput := fun input => BlockClient.Smooth input ∧ input.env.goodbyeReceived = true
  outsiders := False

/-! ## Between two steps -/

variable {site : Site Unit} {source : Bytes} {net : Network Unit}

/-- Either the server has thrown an exception, or what it has sent is with the client or
on its way. -/
def Attended (site : Site Unit) (source : Bytes) (net : Network Unit) : Prop :=
  net.ServerDead ∨ ∃ heard run, Conveying site source heard run net

theorem ServerDead.step {circumstances : Circumstances} {net' : Network Unit}
    (hdead : net.ServerDead) (hstep : Step site circumstances net net') :
    net'.ServerDead := by
  obtain ⟨dead, fault, hserver, hphase⟩ := hdead
  cases hstep with
  | startServer _ _ _ hnone _ =>
      rw [hserver] at hnone
      contradiction
  | startClient _ _ _ _ => exact ⟨dead, fault, hserver, hphase⟩
  | server _ hrun hlive _ _ =>
      rw [hserver] at hrun
      cases hrun
      rw [ServerRun.socket?, hphase] at hlive
      contradiction
  | client _ _ _ _ _ _ => exact ⟨dead, fault, hserver, hphase⟩
  | outsider _ _ _ _ => exact ⟨dead, fault, hserver, hphase⟩

theorem conveying_oneClient (hport : site.port ≠ 0) (ephemeral : UInt16) :
    Conveying site source [] (ClientRun.start (site.clientOrder ()) ephemeral none
      (site.client ())) (oneClient site ephemeral) where
  client := clientStart_self
  sound := rfl
  socket := ⟨rfl, congrArg some (if_neg hport)⟩
  posted := BlockClient.start_posted_hello _ _ _ _ _ _
  gathered := .waiting rfl rfl
  serverInbox := by
    intro datagram hmem
    contradiction
  clientInbox := by
    intro datagram hmem
    contradiction
  server := by
    intro serverRun hserver
    contradiction
  heard := List.Perm.refl _

/-- Everything the server has sent is the announcement or a block. -/
theorem sending_conveys {phase : ServerPhase} {server : BlockServer}
    (hsending : BlockServer.Sending site.serverOrder site.server source phase server) :
    ∀ datagram ∈ server.socket.sent, site.Conveys source datagram.2 := by
  intro datagram hmem
  obtain ⟨count, hle, hserves⟩ := hsending.serves
  have hposted : datagram.2 ∈ server.posted :=
    List.mem_append_left _ (List.mem_map_of_mem hmem)
  rw [hserves.posted] at hposted
  obtain ⟨post, hpost, hbytes⟩ := List.mem_map.mp hposted
  exact Or.inr ⟨post, mem_filePosts_of_le hle hpost, hbytes.symm⟩

section ServerSide

variable {heard : List (FileMessage UInt8)} {run : ClientRun} {serverRun : ServerRun}
  {input : ServerInput}

theorem Conveying.quiet (hnet : Conveying site source heard run net)
    (hoffers : site.Offers source) (hlong : blockCount blockSize source ≤ 2 ^ 22)
    (harrives : Arrives input.ready input.arrival net.serverInbox) :
    input.Quiet site.serverOrder := by
  intro sender datagram harrival
  rcases hnet.serverInbox _ (harrives _ harrival).1 with hhails | ⟨post, hpost, hbytes⟩
  · rcases hhails.fromClient site.serverOrder with htype | htype
    · rw [htype]
      decide
    · rw [htype]
      decide
  · rw [show datagram = _ from hbytes]
    exact (hoffers.carries hlong hpost).quiet

theorem Conveying.clientSocket (hnet : Conveying site source heard run net) :
    net.clientSocket? () = some run.client.socket := by
  rw [clientSocket?, hnet.client, Option.bind_some, ClientRun.socket?, hnet.sound]

/-- What the server sends is on its way to the client. -/
theorem Conveying.serverStep (hnet : Conveying site source heard run net)
    (hoffers : site.Offers source) (hlong : blockCount blockSize source ≤ 2 ^ 22)
    (hrun : net.server = some serverRun) (hread : input.readError = false)
    (hpaced : ∀ phase, serverRun.phase = .ok phase →
      BlockServer.Crowded site.serverOrder phase serverRun.server → input.Paced)
    (harrives : Arrives input.ready input.arrival net.serverInbox) :
    (net.serverStep site serverRun input).Attended site source := by
  obtain ⟨phase, hphase, hsending⟩ := hnet.server serverRun hrun
  have hholds : serverRun.Holds
      (BlockServer.Sending site.serverOrder site.server source) fun _ => True := by
    rw [ServerRun.Holds, hphase]
    exact hsending
  have hstep := ServerRun.step_sending (hoffers.servesFile.count (by omega)) hlong hread
    hpaced (hnet.quiet hoffers hlong harrives) hholds
  obtain ⟨new, hsent⟩ := @ServerRun.step_sent site.serverOrder serverRun input
  rw [ServerRun.Holds] at hstep
  cases hphase' : (serverRun.step site.serverOrder input).phase with
  | error fault => exact Or.inl ⟨_, fault, rfl, hphase'⟩
  | ok phase' =>
      rw [hphase'] at hstep
      have hnew : (serverRun.step site.serverOrder input).server.socket.sent.drop
          serverRun.server.socket.sent.length = new := by
        rw [← hsent, List.drop_left]
      have hconveys : ∀ datagram ∈ new, site.Conveys source datagram.2 := by
        intro datagram hmem
        apply sending_conveys hstep
        rw [← hsent]
        exact List.mem_append_right _ hmem
      obtain ⟨count, hle, hserves⟩ := hstep.serves
      have htakes : ∀ datagram ∈ new,
          run.client.socket.Takes (site.clientIp ()) datagram.1 := by
        intro datagram hmem
        have hdestination : datagram.1 = ⟨site.group, site.port⟩ := by
          apply hserves.sent
          rw [← hsent]
          exact List.mem_append_right _ hmem
        rw [hdestination]
        exact ⟨hnet.socket.2, Or.inl hnet.socket.1⟩
      refine Or.inr ⟨heard, run, hnet.client, hnet.sound, hnet.socket, hnet.posted,
        hnet.gathered, ?_, ?_, ?_, ?_⟩
      · rw [Network.serverStep, hnew]
        exact forall_mem_unread_taken hnet.serverInbox fun datagram hmem _ => hconveys datagram hmem
      · rw [Network.serverStep, hnew]
        exact @forall_mem_unread_taken _ _ _ _ (.error "") _ _ hnet.clientInbox
          fun datagram hmem _ => hconveys datagram hmem
      · intro serverRun' hserver
        cases hserver
        exact ⟨phase', hphase', hstep⟩
      · have hheard := hnet.heard
        rw [sentByServer, hrun] at hheard
        have htaken := site.heard_of_bytes (@taken_of_takes (site.clientIp ())
          run.client.socket ⟨site.serverIp, serverRun.server.socket.bound.getD 0⟩ new htakes)
        rw [Network.serverStep, hnew, sentByServer]
        simp only [transmit, ← hsent, Site.heard_append]
        rw [← List.append_assoc]
        have hsocket : ({ net with serverInbox := unread input.arrival net.serverInbox } :
            Network Unit).clientSocket? () = some run.client.socket := hnet.clientSocket
        rw [hsocket, htaken]
        exact hheard.append_right _

end ServerSide

section ClientSide

variable {heard : List (FileMessage UInt8)} {run : ClientRun} {input : ClientInput}

/-- What a client has sent is its hello or a goodbye. -/
theorem hails_of_posted {client : BlockClient}
    (hposted : (site.client ()).Posted (site.clientOrder ())
      [((site.client ()).helloMessage (site.clientOrder ())).buffer] client) :
    ∀ datagram ∈ client.socket.sent, site.Hails datagram.2 := by
  intro datagram hmem
  have hbuffer : datagram.2 ∈ client.socket.sent.map Prod.snd ++
      client.messageQueue.map Message.buffer :=
    List.mem_append_left _ (List.mem_map_of_mem hmem)
  rw [hposted.posted] at hbuffer
  rcases List.mem_append.mp hbuffer with hhello | hgoodbye
  · rw [List.mem_singleton.mp hhello]
    have himage := Message.length_metadataImage (site.clientOrder ()) (site.client ()).info
    have hform := (@BlockClient.helloMessage_wireForm (site.clientOrder ())
      (site.client ())).received (by
        rw [himage]
        decide)
    exact ⟨hform.framed (by decide) _, hform.buffer_ne_nil,
      fun order => Or.inl (hform.getType order)⟩
  · obtain ⟨_, _, hbytes⟩ := List.mem_map.mp hgoodbye
    rw [← hbytes]
    have hform := (@BlockClient.goodbyeMessage_wireForm (site.clientOrder ())
      (site.client ())).received (by decide)
    exact ⟨hform.framed (by decide) _, hform.buffer_ne_nil,
      fun order => Or.inr (hform.getType order)⟩

/-- A call of `select` that reads what is on its way, or nothing. -/
theorem Conveying.clientTurn (hnet : Conveying site source heard run net)
    (hoffers : site.Offers source) (hlong : blockCount blockSize source ≤ 2 ^ 22)
    (hsmooth : BlockClient.Smooth input) (hflag : input.env.goodbyeReceived = true)
    (harrives : Arrives input.ready input.arrival (net.clientInbox ())) :
    (run.step (site.clientOrder ()) input).fault = none ∧
      (site.client ()).Posted (site.clientOrder ())
        [((site.client ()).helloMessage (site.clientOrder ())).buffer]
        (run.step (site.clientOrder ()) input).client ∧
      (run.step (site.clientOrder ()) input).client.Gathered site.readInfo source
        (heard ++ (site.hearArrival input.arrival).toList) := by
  have hwelcome : ∀ message, input.message? = some message →
      BlockClient.Welcome (site.clientOrder ()) site.readInfo source heard message
        (site.hearArrival input.arrival) := by
    intro message hmessage
    obtain ⟨datagram, harrival, rfl⟩ := ClientInput.arrival_of_message hmessage
    rw [harrival]
    exact hnet.welcome hoffers hlong (harrives datagram harrival).1
  have hnothing : input.message? = none → site.hearArrival input.arrival = none := by
    intro hnone
    cases harrival : input.arrival with
    | error error => rfl
    | ok datagram =>
        obtain ⟨_, writable, hready⟩ := harrives datagram harrival
        rw [ClientInput.message?, hready, harrival] at hnone
        contradiction
  have hturn := BlockClient.select_gathered
    (hoffers.count hlong) site.digest_nul hsmooth hflag hwelcome hnothing
    run.client ⟨hnet.posted, hnet.gathered⟩
  unfold ClientRun.step
  rw [hnet.sound]
  split_ifs with hwakes
  · revert hturn
    cases hresult : BlockClient.select (site.clientOrder ()) input run.client with
    | ok value client => exact fun hturn => ⟨rfl, hturn⟩
    | error fault client => exact fun hturn => hturn.elim
  · have hidle : site.hearArrival input.arrival = none := by
      cases harrival : input.arrival with
      | error error => rfl
      | ok datagram =>
          obtain ⟨_, writable, hready⟩ := harrives datagram harrival
          rw [hready] at hwakes
          exact absurd (by simp [Endpoint.Wakes, Ready.wakes]) hwakes
    rw [hidle]
    refine ⟨hnet.sound, hnet.posted, ?_⟩
    simpa using hnet.gathered

theorem heard_hails {datagrams : List (Address × Bytes)}
    (hhails : ∀ datagram ∈ datagrams, site.Hails datagram.2) :
    site.heard datagrams = [] :=
  List.filterMap_eq_nil_iff.mpr fun datagram hmem =>
    (hhails datagram hmem).hear_eq_none

/-- What a client hears was on its way before. -/
theorem heard_unread {ready : Except String Ready}
    {arrival : Except String (Address × Bytes)} {inbox : List (Address × Bytes)}
    (harrives : Arrives ready arrival inbox) :
    ((site.hearArrival arrival).toList ++ site.heard (unread arrival inbox)).Perm
      (site.heard inbox) := by
  cases arrival with
  | error error => exact List.Perm.refl _
  | ok datagram =>
      have hperm := (List.perm_cons_erase (harrives datagram rfl).1).filterMap site.hear
      have hcons : (datagram :: inbox.erase datagram).filterMap site.hear =
          (site.hear datagram).toList ++ site.heard (inbox.erase datagram) := by
        cases hhear : site.hear datagram with
        | none => exact List.filterMap_cons_none hhear
        | some new => exact List.filterMap_cons_some hhear
      rw [hcons] at hperm
      exact hperm.symm

theorem clientStep_inbox : (net.clientStep site () run input).clientInbox () =
    unread input.arrival (net.clientInbox ()) ++
      taken (site.clientIp ()) (net.clientSocket? ())
        ⟨site.clientIp (), run.client.socket.bound.getD 0⟩
        ((run.step (site.clientOrder ()) input).client.socket.sent.drop
          run.client.socket.sent.length) :=
  rfl

theorem Conveying.clientStep (hnet : Conveying site source heard run net)
    (hoffers : site.Offers source) (hlong : blockCount blockSize source ≤ 2 ^ 22)
    (hsmooth : BlockClient.Smooth input) (hflag : input.env.goodbyeReceived = true)
    (harrives : Arrives input.ready input.arrival (net.clientInbox ())) :
    Conveying site source (heard ++ (site.hearArrival input.arrival).toList)
      (run.step (site.clientOrder ()) input) (net.clientStep site () run input) := by
  obtain ⟨hsound, hposted, hgathered⟩ :=
    hnet.clientTurn hoffers hlong hsmooth hflag harrives
  let new := (run.step (site.clientOrder ()) input).client.socket.sent.drop
    run.client.socket.sent.length
  have hhails : ∀ datagram ∈ new, site.Hails datagram.2 := fun datagram hmem =>
    hails_of_posted hposted datagram (List.mem_of_mem_drop hmem)
  have hconveys : ∀ datagram ∈ new, site.Conveys source datagram.2 :=
    fun datagram hmem => Or.inl (hhails datagram hmem)
  refine ⟨clientStep_self, hsound, ?_, hposted, hgathered, ?_, ?_, hnet.server, ?_⟩
  · exact ClientRun.step_keeps BlockClient.select_socket hnet.socket
  · exact @forall_mem_unread_taken _ _ _ _ (.error "") _ new hnet.serverInbox
      fun datagram hmem _ => hconveys datagram hmem
  · rw [clientStep_inbox]
    exact forall_mem_unread_taken hnet.clientInbox fun datagram hmem _ => hconveys datagram hmem
  · have htaken : site.heard (taken (site.clientIp ()) (net.clientSocket? ())
        ⟨site.clientIp (), run.client.socket.bound.getD 0⟩ new) = [] := by
      apply heard_hails
      intro datagram hmem
      obtain ⟨other, hother, hbytes⟩ := mem_taken hmem
      rw [← hbytes]
      exact hhails other hother
    rw [clientStep_inbox, Site.heard_append, htaken, List.append_nil, List.append_assoc]
    exact ((heard_unread harrives).append_left heard).trans hnet.heard

end ClientSide

/-! ## The whole run -/

theorem Conveying.startServer {heard : List (FileMessage UInt8)} {run : ClientRun}
    (hnet : Conveying site source heard run net) (hoffers : site.Offers source)
    (hlong : blockCount blockSize source ≤ 2 ^ 22) (hnone : net.server = none)
    {ephemeral : UInt16} {openError : Option String} {input : ServerInput}
    (hread : input.readError = false) :
    (net.serverStart site ephemeral openError input).Attended site source := by
  obtain ⟨hslicing, hgood⟩ := hoffers.servesFile.slicing
  have hstart := @BlockServer.start_sending site.serverOrder site.server source input
    (hoffers.servesFile.count (by omega)) hlong ephemeral openError hread hslicing.serves
    rfl hslicing.source hgood
  let serverRun := ServerRun.start site.serverOrder ephemeral openError input site.server
  rw [ServerRun.Holds] at hstart
  cases hphase : serverRun.phase with
  | error fault => exact Or.inl ⟨serverRun, fault, rfl, hphase⟩
  | ok phase =>
      rw [hphase] at hstart
      refine Or.inr ⟨heard, run, hnet.client, hnet.sound, hnet.socket, hnet.posted,
        hnet.gathered, hnet.serverInbox, hnet.clientInbox, ?_, ?_⟩
      · intro serverRun' hserver
        cases hserver
        exact ⟨phase, hphase, hstart⟩
      · have hheard := hnet.heard
        rw [sentByServer, hnone] at hheard
        have hunsent : serverRun.server.socket.sent = [] := ServerRun.start_sent rfl
        show (heard ++ site.heard (net.clientInbox ())).Perm
          (site.heard serverRun.server.socket.sent)
        rw [hunsent]
        exact hheard

/-- One step of the network. -/
theorem Attended.step {net' : Network Unit} (hnet : net.Attended site source)
    (hoffers : site.Offers source) (hlong : blockCount blockSize source ≤ 2 ^ 22)
    (hstep : Step site (attended site net) net net') : net'.Attended site source := by
  rcases hnet with hdead | ⟨heard, run, hnet⟩
  · exact Or.inl (hdead.step hstep)
  · cases hstep with
    | startServer ephemeral openError input hnone hinput =>
        exact hnet.startServer hoffers hlong hnone hinput.1
    | startClient i ephemeral openError hnone =>
        rw [hnet.client] at hnone
        contradiction
    | server input hrun hlive hinput harrives =>
        exact hnet.serverStep hoffers hlong hrun hinput.1
          (fun phase hphase => hinput.2 _ phase hrun hphase) harrives
    | client i input hrun hlive hinput harrives =>
        have hsame := hnet.client.symm.trans hrun
        cases hsame
        exact Or.inr ⟨_, _, hnet.clientStep hoffers hlong hinput.1 hinput.2 harrives⟩
    | outsider address destination bytes houtsiders => exact houtsiders.elim

theorem Leads.attended (hoffers : site.Offers source)
    (hlong : blockCount blockSize source ≤ 2 ^ 22) {ephemeral : UInt16}
    (hnet : Leads site (attended site) (oneClient site ephemeral) net) :
    net.Attended site source := by
  induction hnet with
  | refl => exact Or.inr ⟨[], _, conveying_oneClient hoffers.port ephemeral⟩
  | tail _ hstep ih => exact ih.step hoffers hlong hstep

/-- With nothing left to read the file is complete. -/
theorem Conveying.delivered {heard : List (FileMessage UInt8)} {run : ClientRun}
    (hnet : Conveying site source heard run net) (hoffers : site.Offers source)
    (hlong : blockCount blockSize source ≤ 2 ^ 22) (hreturned : net.Returned)
    (hinbox : net.clientInbox () = []) : net.Delivered site source := by
  obtain ⟨serverRun, hserver, hphase⟩ := hreturned
  obtain ⟨phase, hphase', hsending⟩ := hnet.server serverRun hserver
  rw [hphase] at hphase'
  cases hphase'
  obtain ⟨hserves, hempty⟩ := hsending.of_returned
  obtain ⟨rest, hrest, hnil⟩ := hoffers.heard_sent hlong (le_refl _) hserves
  have hperm := hnet.heard
  rw [hinbox, sentByServer, hserver] at hperm
  rw [hnil hempty, List.append_nil] at hrest
  simp only [Site.heard, List.filterMap_nil, List.append_nil] at hperm hrest
  rw [hrest] at hperm
  have hmem : ∀ message, message ∈ heard ↔ message = .info site.path ∨
      ∃ number < blockCount blockSize source, message = .block number :=
    fun message => hperm.mem_iff.trans mem_fileMessages
  have hpath : Transfer.path heard = site.path := by
    apply Transfer.path_of_mem ((hmem _).mpr (Or.inl rfl))
    intro other hother
    rcases (hmem _).mp hother with heq | ⟨_, _, heq⟩
    · exact FileMessage.info.inj heq
    · cases heq
  have hcomplete : Transfer.Complete (blockCount blockSize source) heard := by
    refine ⟨fun number hlt => (hmem _).mpr (Or.inr ⟨number, hlt, rfl⟩), ?_⟩
    rw [hpath]
    rintro hnil
    exact hoffers.path (by rw [hnil]; rfl)
  cases hnet.gathered with
  | waiting _ hheard =>
      have hnot := (hmem (.info site.path)).mpr (Or.inl rfl)
      rw [hheard] at hnot
      contradiction
  | gathering _ _ hincomplete => exact absurd hcomplete hincomplete
  | delivered _ hpublished hfile =>
      rw [hpath] at hpublished hfile
      exact ⟨run, hnet.client, hpublished, hfile⟩

/-- The file is delivered in every run that is attended. -/
theorem deliversFile_of_attended (hoffers : site.Offers source)
    (hlong : blockCount blockSize source ≤ 2 ^ 22) :
    DeliversFile site (attended site) source := by
  intro ephemeral net hnet hreturned hinbox
  rcases hnet.attended hoffers hlong with ⟨run, fault, hserver, hphase⟩ | ⟨heard, run, hnet⟩
  · obtain ⟨returned, hserver', hphase'⟩ := hreturned
    rw [hserver] at hserver'
    cases hserver'
    rw [hphase] at hphase'
    contradiction
  · exact hnet.delivered hoffers hlong hreturned hinbox

/-! ## A file of three bytes -/

def fileSite : Site Unit :=
  { sampleSite with opened := some [1, 2, 3], measured := some (.regular [1, 2, 3]) }

def readingInput (flag : Bool) (datagram : Address × Bytes) : ClientInput where
  ready := .ok ⟨true, false⟩
  arrival := .ok datagram
  env := Environment.plain [116] flag
  sendError := none

/-- The server sends the front of its queue. -/
def serverSends (net : Network Unit) : Network Unit :=
  match net.server with
  | some run => net.serverStep fileSite run writableServerInput
  | none => net

/-- The client reads the first datagram it was sent. -/
def clientReads (flag : Bool) (net : Network Unit) : Network Unit :=
  match net.clients (), net.clientInbox () with
  | some run, datagram :: _ => net.clientStep fileSite () run (readingInput flag datagram)
  | _, _ => net

theorem leads_serverSends {allowed : Network Unit → Circumstances} {first : Network Unit}
    (hnet : Leads fileSite allowed first net) (hlive : net.serverSocket?.isSome)
    (hinput : (allowed net).serverInput writableServerInput) :
    Leads fileSite allowed first net.serverSends := by
  obtain ⟨socket, hbind⟩ := Option.isSome_iff_exists.mp hlive
  obtain ⟨run, hrun, hsome⟩ := Option.bind_eq_some_iff.mp hbind
  have hsocket := Option.isSome_iff_exists.mpr ⟨socket, hsome⟩
  rw [serverSends, hrun]
  apply hnet.tail
  apply Step.server writableServerInput hrun hsocket hinput
  intro datagram harrival
  contradiction

theorem leads_clientReads {allowed : Network Unit → Circumstances} {first : Network Unit}
    {flag : Bool} (hnet : Leads fileSite allowed first net)
    (hlive : (net.clientSocket? ()).isSome)
    (hinput : ∀ datagram, (allowed net).clientInput (readingInput flag datagram)) :
    Leads fileSite allowed first (net.clientReads flag) := by
  obtain ⟨socket, hbind⟩ := Option.isSome_iff_exists.mp hlive
  obtain ⟨run, hrun, hsome⟩ := Option.bind_eq_some_iff.mp hbind
  have hsocket := Option.isSome_iff_exists.mpr ⟨socket, hsome⟩
  rw [clientReads, hrun]
  cases hinbox : net.clientInbox () with
  | nil => exact hnet
  | cons datagram rest =>
      apply hnet.tail
      apply Step.client () _ hrun hsocket (hinput datagram)
      rintro other hother
      cases hother
      rw [hinbox]
      exact ⟨List.mem_cons_self, false, rfl⟩

/-- The announcement and the block are sent, the server returns, and the client reads
both. -/
def fileNetwork (flag : Bool) : Network Unit :=
  (((((oneClient fileSite 0).serverStart fileSite 40000 none
    writableServerInput).serverSends).serverSends).clientReads flag).clientReads flag

theorem leads_fileNetwork {allowed : Network Unit → Circumstances} {flag : Bool}
    (hserver : ∀ net, (allowed net).serverInput writableServerInput)
    (hclient : ∀ net datagram, (allowed net).clientInput (readingInput flag datagram)) :
    Leads fileSite allowed (oneClient fileSite 0) (fileNetwork flag) := by
  have hstart : Leads fileSite allowed (oneClient fileSite 0)
      ((oneClient fileSite 0).serverStart fileSite 40000 none writableServerInput) :=
    .single (.startServer 40000 none writableServerInput rfl (hserver _))
  have hinfo := leads_serverSends hstart (by decide +kernel) (hserver _)
  have hblock := leads_serverSends hinfo (by decide +kernel) (hserver _)
  have hread := leads_clientReads hblock (by decide +kernel) (hclient _)
  cases flag with
  | false => exact leads_clientReads hread (by decide +kernel) (hclient _)
  | true => exact leads_clientReads hread (by decide +kernel) (hclient _)

theorem fileNetwork_returned (flag : Bool) : (fileNetwork flag).Returned := by
  have hphase : (fileNetwork flag).server.map ServerRun.phase = some (.ok .returned) := by
    cases flag <;> decide +kernel
  obtain ⟨run, hrun, hreturned⟩ := Option.map_eq_some_iff.mp hphase
  exact ⟨run, hrun, hreturned⟩

theorem smooth_readingInput (flag : Bool) (datagram : Address × Bytes) :
    BlockClient.Smooth (readingInput flag datagram) :=
  ⟨⟨rfl, rfl, rfl, rfl⟩, rfl, _, rfl, fun _ => ⟨datagram, rfl⟩⟩

theorem fileSite_offers : fileSite.Offers [1, 2, 3] where
  opened := rfl
  measured := rfl
  path := by decide
  path_le := by decide
  port := by decide

theorem fileNetwork_delivered : (fileNetwork true).Delivered fileSite [1, 2, 3] := by
  apply deliversFile_of_attended fileSite_offers (by decide) 0
  · apply leads_fileNetwork
    · refine fun net => ⟨rfl, fun run phase _ _ _ datagram harrival => ?_⟩
      contradiction
    · exact fun net datagram => ⟨smooth_readingInput true datagram, rfl⟩
  · exact fileNetwork_returned true
  · decide +kernel

/-- With a flag that holds false the client waits for a goodbye that no server sends. -/
theorem fileSite_not_delivers : ¬ DeliversFile fileSite undisturbed [1, 2, 3] := by
  intro hdelivers
  have hleads : Leads fileSite undisturbed (oneClient fileSite 0) (fileNetwork false) :=
    leads_fileNetwork (fun _ => rfl) fun _ => smooth_readingInput false
  obtain ⟨run, hrun, _, hfile⟩ := hdelivers 0 (fileNetwork false) hleads
    (fileNetwork_returned false) (by decide +kernel)
  have hnone : ((fileNetwork false).clients ()).map (fun run =>
      run.client.files.file? (cstr fileSite.path)) = some none := by
    decide +kernel
  rw [hrun, Option.map_some, hfile] at hnone
  exact Option.some_ne_none _ (Option.some.inj hnone)

end Network

end Multisync
