import Multisync.Agreement
import Multisync.Unattended
import Mathlib.Tactic

/-!
# What a server sends, and for whom it waits

Nothing that a client sends makes the server post anything.  So the announcement and the
blocks leave it in their order, each at most once; a block may be passed over, but none
is sent again.  And the hosts it waits for are those of clients that have sent a hello.
-/

namespace Multisync

open ByteLayout Effects BlockAssembly

namespace BlockServer

variable {order : ByteOrder} {initial server : BlockServer} {source : Bytes}
  {posts : List Post} {input : ServerInput}

/-- What was sent are the first of these posts. -/
def SentFrom (order : ByteOrder) (initial : BlockServer) (posts : List Post)
    (server : BlockServer) : Prop :=
  server.socket.sent.map Prod.snd <+: posts.map (initial.render order)

theorem Serves.sentFrom (hserves : Serves order initial posts server) :
    SentFrom order initial posts server := by
  rw [SentFrom, ← hserves.posted]
  exact List.prefix_append _ _

/-- A send that throws has sent nothing, or the next post. -/
theorem Serves.sentFrom_of_send (hserves : Serves order initial posts server)
    {message : Message} {rest : List Message} {sendError : Option String}
    (hqueue : server.messageQueue = message :: rest) :
    SentFrom order initial posts
      { server with socket := endState (BlockSocket.send order message sendError
          server.socket) } := by
  cases sendError with
  | some error => exact hserves.sentFrom
  | none =>
      have hsent : (endState (BlockSocket.send order message none server.socket)).sent =
          server.socket.sent ++ [(server.socket.destination, message.buffer)] := by
        rw [BlockSocket.send_eq]
        split_ifs <;> rfl
      have hposted := hserves.posted
      rw [BlockServer.posted, hqueue, List.map_cons, List.append_cons] at hposted
      rw [SentFrom, hsent, ← hposted, List.map_append]
      exact List.prefix_append _ _

theorem processMessage_serves {E : BlockServer → Prop} {stream : InStream}
    (hweak : ∀ server, Serves order initial posts server ∧ server.input = stream → E server)
    (hbrought : Network.Brought (Typed spoken) input.arrival) :
    Keeps (fun server => Serves order initial posts server ∧ server.input = stream) E
      (processMessage order input) := by
  apply processMessage_keeps_of_hellos hweak hbrought
  · exact fun _ _ _ _ hserver =>
      ⟨hserver.1.of_same rfl rfl rfl rfl rfl rfl, hserver.2⟩
  · exact fun _ _ _ _ _ _ hserver =>
      ⟨hserver.1.of_same rfl rfl rfl rfl rfl rfl, hserver.2⟩

/-- A wait in which hellos can be read at most posts nothing, and reads nothing of the
source. -/
theorem select_serves {stream : InStream}
    (hbrought : Network.Brought (Typed spoken) input.arrival) :
    Keeps (fun server => Serves order initial posts server ∧ server.input = stream)
      (SentFrom order initial posts) (select order input) := by
  have hweak : ∀ server : BlockServer,
      Serves order initial posts server ∧ server.input = stream →
        SentFrom order initial posts server := fun _ hserver => hserver.1.sentFrom
  apply Endpoint.select_keeps hweak
  · exact processMessage_serves hweak hbrought
  · apply Endpoint.sendFront_keeps hweak
    · intro server message rest socket hqueue hserver hok
      rw [BlockSocket.send_eq_ok order hok]
      exact ⟨hserver.1.pop hqueue, hserver.2⟩
    · intro server message rest fault socket hqueue hserver herror
      have hsent := @Serves.sentFrom_of_send order initial server posts hserver.1 message rest
        input.sendError hqueue
      rwa [show BlockSocket.send order message input.sendError server.socket = _ from herror,
        endState_error] at hsent

/-- A wait after which the source still stands where it stood. -/
theorem select_slicing {stream : InStream}
    (hbrought : Network.Brought (Typed spoken) input.arrival) :
    Keeps (fun server => Slicing order initial source posts server ∧ server.input = stream)
      (SentFrom order initial posts) (select order input) := by
  intro server ⟨hslicing, hstream⟩
  have hselect := @select_serves order initial posts input stream hbrought server
    ⟨hslicing.serves, hstream⟩
  cases hrun : select order input server with
  | error fault mid =>
      rw [hrun] at hselect
      exact hselect
  | ok value mid =>
      rw [hrun] at hselect
      obtain ⟨hmid, hinput⟩ := hselect
      have hsame : mid.input = server.input := hinput.trans hstream.symm
      exact ⟨⟨hmid, hslicing.sliced, hsame ▸ hslicing.source, hsame ▸ hslicing.bad⟩, hinput⟩

/-- While the source can be read, `start` throws only when the socket cannot be opened. -/
theorem start_fault {ephemeral : UInt16} {openError : Option String} {fault : Fault}
    {final : BlockServer} (hread : input.readError = false)
    (hbad : initial.input.bad = false)
    (herror : start order ephemeral openError input initial = .error fault final) :
    (∃ error, fault = .system error) ∧ final = initial := by
  cases openError with
  | some error =>
      cases herror
      exact ⟨⟨error, rfl⟩, rfl⟩
  | none =>
      obtain ⟨_, mid, hopen, hnext⟩ : ∃ value mid, zoom BlockServer.socket
          (fun socket server => { server with socket := socket })
          (BlockSocket.openSocket ephemeral none) initial = .ok value mid ∧
            mid.input = initial.input := ⟨_, _, rfl, rfl⟩
      obtain ⟨phase, final', hok⟩ := @serveHead_returns order
        { mid with messageQueue := mid.messageQueue ++ [mid.infoMessage order] } input
        hread (hnext ▸ hbad) (BlockInfo.ofBlock order mid.fileInfo 0)
      rw [start, bind_of_ok hopen] at herror
      exact absurd (herror.symm.trans hok) (by simp)

/-- Where a run waits or has returned: the posts are some of the announcement and the
blocks so far, in their order. -/
def Ascending (order : ByteOrder) (initial : BlockServer) (source : Bytes) :
    ServerPhase → BlockServer → Prop
  | .serving i, server => ∃ posts number, Slicing order initial source posts server ∧
      posts.Sublist (wrappedPosts source (number + 1)) ∧
      i = initial.fileInfo.blockAt order number ∧ number < blockCount blockSize source ∧
      (number + 1 < blockCount blockSize source → server.input.good = true)
  | _, server => ∃ posts, Slicing order initial source posts server ∧
      posts.Sublist (wrappedPosts source (blockCount blockSize source))

/-- What was sent is some of the announcement and the blocks, in their order. -/
def SentAscending (order : ByteOrder) (initial : BlockServer) (source : Bytes)
    (server : BlockServer) : Prop :=
  ∃ posts : List Post, posts.Sublist (wrappedPosts source (blockCount blockSize source)) ∧
    SentFrom order initial posts server

theorem wrappedPosts_sublist {first count : ℕ} (hle : first ≤ count) :
    (wrappedPosts source first).Sublist (wrappedPosts source count) := by
  rw [← take_wrappedPosts hle]
  exact List.take_sublist _ _

theorem Ascending.sent {phase : ServerPhase}
    (hserver : Ascending order initial source phase server) :
    SentAscending order initial source server := by
  cases phase with
  | serving i =>
      obtain ⟨posts, number, hslicing, hsublist, _, hlt, _⟩ := hserver
      exact ⟨posts, hsublist.trans (wrappedPosts_sublist hlt), hslicing.serves.sentFrom⟩
  | draining =>
      obtain ⟨posts, hslicing, hsublist⟩ := hserver
      exact ⟨posts, hsublist, hslicing.serves.sentFrom⟩
  | returned =>
      obtain ⟨posts, hslicing, hsublist⟩ := hserver
      exact ⟨posts, hsublist, hslicing.serves.sentFrom⟩

variable (hfile : (initial.fileInfo.getBlockCount order).toNat =
  blockCount blockSize source)

include hfile in
/-- The head of the first loop posts the next block, or passes it over. -/
theorem HeadStep.ascending {number : ℕ} {phase : ServerPhase} {final : BlockServer}
    {posts' : List Post} (hslicing : Slicing order initial source posts server)
    (hsublist : posts.Sublist (wrappedPosts source number))
    (hle : number ≤ blockCount blockSize source)
    (hgood : number < blockCount blockSize source → server.input.good = true)
    (hstep : HeadStep order false number posts server phase final posts')
    (hserves : Serves order initial posts' final) :
    Ascending order initial source phase final := by
  have hcount : (server.fileInfo.getBlockCount order).toNat =
      blockCount blockSize source := by
    rw [hslicing.serves.fileInfo, hfile]
  cases hstep with
  | posted hlt hroom hread =>
      rw [hcount] at hlt
      obtain ⟨hpayload, hsource, hnext⟩ :=
        @readBlock_of_good order server.fileInfo _ _ _ (hgood hlt) hslicing.source
      refine ⟨_, number, ⟨hserves, ?_, hsource, hread⟩, ?_, ?_, hlt, fun hsucc => hnext ?_⟩
      · intro other payload hmem
        rcases List.mem_append.mp hmem with hold | hnew
        · exact hslicing.sliced other payload hold
        · cases List.mem_singleton.mp hnew
          exact ⟨hlt.trans_eq hfile.symm, hpayload⟩
      · rw [wrappedPosts_succ, hpayload]
        exact hsublist.append_right _
      · rw [hslicing.serves.fileInfo]
      · apply length_slice_of_succ_lt
        have := Nat.mod_le number (2 ^ 22)
        omega
  | skipped hlt hfull =>
      rw [hcount] at hlt
      refine ⟨posts, number, hslicing,
        hsublist.trans (wrappedPosts_sublist (Nat.le_succ number)), ?_, hlt, fun _ => hgood hlt⟩
      rw [hslicing.serves.fileInfo]
  | drained hdone => exact ⟨posts, hslicing, hsublist.trans (wrappedPosts_sublist hle)⟩
  | returned hdone hempty =>
      exact ⟨posts, hslicing, hsublist.trans (wrappedPosts_sublist hle)⟩

include hfile in
theorem start_ascending {ephemeral : UInt16} {openError : Option String}
    (hread : input.readError = false)
    (hinitial : Slicing order initial source [] initial)
    (hgood : initial.input.good = true) :
    (ServerRun.start order ephemeral openError input initial).Holds
      (Ascending order initial source) (SentAscending order initial source) := by
  have hnothing : SentAscending order initial source initial :=
    ⟨[], List.nil_sublist _, hinitial.serves.sentFrom⟩
  apply ServerRun.holds_ofResult
  · intro phase final hok
    obtain ⟨mid, posts', hmid, hinput, _, hstep, hfinal⟩ :=
      start_step hinitial.serves hok
    rw [hread] at hstep
    have hslicing : Slicing order initial source [.info] mid :=
      ⟨hmid, hinitial.sliced.append (by simp), hinput ▸ hinitial.source,
        hinput ▸ hinitial.bad⟩
    exact hstep.ascending hfile hslicing (List.Sublist.refl _) (Nat.zero_le _)
      (fun _ => hinput ▸ hgood) hfinal
  · intro fault final herror
    rw [(start_fault hread hinitial.bad herror).2]
    exact hnothing

include hfile in
theorem resume_ascending (hread : input.readError = false)
    (hbrought : Network.Brought (Typed spoken) input.arrival) (phase : ServerPhase)
    (hserver : Ascending order initial source phase server) :
    (ServerRun.ofResult (resume order input phase server)).Holds
      (Ascending order initial source) (SentAscending order initial source) := by
  have hbound := (initial.fileInfo.getBlockCount order).toNat_lt
  rw [hfile] at hbound
  cases phase with
  | serving i =>
      obtain ⟨posts, number, hslicing, hsublist, rfl, hlt, hgood⟩ := hserver
      have hselect := @select_slicing order initial source posts input server.input hbrought
      cases hrun : select order input server with
      | error fault mid =>
          rw [resume, bind_of_error hrun]
          exact ⟨posts, hsublist.trans (wrappedPosts_sublist hlt),
            hselect.error ⟨hslicing, rfl⟩ hrun⟩
      | ok value mid =>
          obtain ⟨hmid, hinput⟩ := hselect.ok ⟨hslicing, rfl⟩ hrun
          obtain ⟨phase', final, hok⟩ := @serveHead_returns order mid input hread hmid.bad
            (mid.fileInfo.blockAt order (number + 1))
          obtain ⟨posts', hstep, hfinal⟩ := serveHead_step hmid.serves (by omega) hok
          rw [hread] at hstep
          rw [resume, bind_of_ok hrun, FileInfo.succ_blockAt, ← hmid.serves.fileInfo, hok]
          exact hstep.ascending hfile hmid hsublist hlt (fun hsucc => hinput ▸ hgood hsucc)
            hfinal
  | draining =>
      obtain ⟨posts, hslicing, hsublist⟩ := hserver
      have hselect := @select_slicing order initial source posts input server.input hbrought
      cases hrun : select order input server with
      | error fault mid =>
          rw [resume, bind_of_error hrun]
          exact ⟨posts, hsublist, hselect.error ⟨hslicing, rfl⟩ hrun⟩
      | ok value mid =>
          obtain ⟨hmid, _⟩ := hselect.ok ⟨hslicing, rfl⟩ hrun
          rw [resume, bind_of_ok hrun]
          rcases drainHead_apply mid with hmore | ⟨hnone, _⟩
          · rw [hmore]
            exact ⟨posts, hmid, hsublist⟩
          · rw [hnone]
            exact ⟨posts, hmid, hsublist⟩
  | returned => exact hserver

end BlockServer

namespace Network

variable {ι : Type} [DecidableEq ι] {site : Site ι} {conditions : Conditions}
  {net : Network ι} {source : Bytes}

/-- In a closed network the server sends some of the announcement and the blocks, in their
order and each at most once. -/
theorem Lossy.sent_ascending (hserves : site.server.ServesFile site.serverOrder source)
    (hcount : blockCount blockSize source < 2 ^ 32)
    (hread : ∀ input, conditions.serverInput input → input.readError = false)
    (hnet : Lossy site conditions empty net) {run : ServerRun}
    (hrun : net.server = some run) :
    (run.server.socket.sent.map Prod.snd).Sublist
      ((wrappedPosts source (blockCount blockSize source)).map
        (site.server.render site.serverOrder)) := by
  have hfile := hserves.count hcount
  obtain ⟨hslicing, hgood⟩ := hserves.slicing
  have hclosed := @contract_closed ι site conditions
  have hcontract : Contract site conditions
      (fun run => Serving run ∧
        run.Holds (BlockServer.Ascending site.serverOrder site.server source)
          (BlockServer.SentAscending site.serverOrder site.server source))
      (Listening site) (Typed spoken) := by
    refine ⟨?_, ?_, fun run hrun => hclosed.serverSent run hrun.1, hclosed.clientStart,
      hclosed.clientStep, hclosed.clientSent⟩
    · intro ephemeral openError input hinput
      exact ⟨hclosed.serverStart ephemeral openError input hinput,
        BlockServer.start_ascending hfile (hread input hinput) hslicing hgood⟩
    · intro run input hrun hinput hbrought
      exact ⟨hclosed.serverStep run input hrun.1 hinput hbrought,
        ServerRun.step_holds (fun phase server hserver => BlockServer.resume_ascending hfile
          (hread input hinput) hbrought phase hserver) hrun.2⟩
  have hholds := ((hcontract.lossy hnet).server run hrun).2
  have hsent : BlockServer.SentAscending site.serverOrder site.server source run.server := by
    unfold ServerRun.Holds at hholds
    split at hholds
    · exact hholds.sent
    · exact hholds
  obtain ⟨posts, hsublist, hprefix⟩ := hsent
  exact hprefix.sublist.trans (hsublist.map _)

/-- The server of the three bytes has sent the announcement and the block. -/
theorem sentNetwork_ascending : ∃ run, sentNetwork.server = some run ∧
    (run.server.socket.sent.map Prod.snd).Sublist
      ((wrappedPosts [1, 2, 3] (blockCount blockSize [1, 2, 3])).map
        (fileSite.server.render fileSite.serverOrder)) := by
  obtain ⟨run, hrun⟩ := Option.isSome_iff_exists.mp
    (show sentNetwork.server.isSome by decide +kernel)
  exact ⟨run, hrun, lossy_sentNetwork.sent_ascending fileSite_offers.servesFile (by decide)
    (fun _ hread => hread) hrun⟩

end Network

/-! ## For whom it waits -/

/-- The host that the server reads in the hello of the client. -/
def Site.greeter {ι : Type} (site : Site ι) (i : ι) : HostInfo :=
  Metadata.load site.serverOrder (Metadata.store (site.clientOrder i) (site.client i).info)

/-- Only these hosts are registered. -/
def BlockServer.Registers (hosts : Set HostInfo) (server : BlockServer) : Prop :=
  ∀ host, (server.hostInfo.find? host).isSome → host ∈ hosts

theorem BlockServer.Registers.mono {hosts hosts' : Set HostInfo} {server : BlockServer}
    (hserver : server.Registers hosts) (hsubset : hosts ⊆ hosts') :
    server.Registers hosts' :=
  fun host hhost => hsubset (hserver host hhost)

theorem BlockServer.Registers.insert {hosts : Set HostInfo} {server : BlockServer}
    (hserver : server.Registers hosts) {info : HostInfo} (hinfo : info ∈ hosts) :
    ({ server with hostInfo := server.hostInfo.insert info () } : BlockServer).Registers
      hosts := by
  intro host hhost
  by_cases heq : host = info
  · rw [heq]
    exact hinfo
  · rw [OrderedMap.find?_insert_ne heq] at hhost
    exact hserver host hhost

namespace Network

variable {ι : Type} [DecidableEq ι] {site : Site ι} {conditions : Conditions}
  {net net' : Network ι}

/-- The client has sent its hello. -/
def Greeted (site : Site ι) (net : Network ι) (i : ι) : Prop :=
  ∃ run, net.clients i = some run ∧ ∃ datagram ∈ run.client.socket.sent,
    datagram.2 = ((site.client i).helloMessage (site.clientOrder i)).buffer

/-- The hosts of the clients that have sent their hellos. -/
def greeters (site : Site ι) (net : Network ι) : Set HostInfo :=
  site.greeter '' {i | net.Greeted site i}

theorem LossyStep.greeters (hstep : LossyStep site conditions net net') :
    net.greeters site ⊆ net'.greeters site := by
  rintro host ⟨i, ⟨run, hrun, datagram, hmem, hbytes⟩, rfl⟩
  obtain ⟨run', hrun', hprefix⟩ := hstep.client_sent hrun
  exact ⟨i, ⟨run', hrun', datagram, hprefix.subset hmem, hbytes⟩, rfl⟩

/-- What a server sends, or the hello of a client that has greeted. -/
def Introduces (site : Site ι) (net : Network ι) (bytes : Bytes) : Prop :=
  Typed announced bytes ∨
    ∃ i, net.Greeted site i ∧
      bytes = ((site.client i).helloMessage (site.clientOrder i)).buffer

omit [DecidableEq ι] in
theorem Introduces.typed {bytes : Bytes} (hbytes : Introduces site net bytes) :
    Typed spoken bytes := by
  rcases hbytes with htyped | ⟨i, _, rfl⟩
  · exact htyped.mono (by decide)
  · exact (BlockClient.helloMessage_wireForm (site.client i)).typed (by decide)

omit [DecidableEq ι] in
/-- A hello introduces the client that sent it. -/
theorem Introduces.greeter {bytes : Bytes} (hbytes : Introduces site net bytes)
    {info : HostInfo}
    (hmetadata : (Message.received receiveReserve bytes).getMetadata site.serverOrder HostInfo =
      .ok info)
    (htype : (Message.received receiveReserve bytes).getType site.serverOrder =
      MessageType.chello.code) : info ∈ net.greeters site := by
  rcases hbytes with htyped | ⟨i, hgreeted, rfl⟩
  · exact absurd htype (htyped.ne (by decide) _)
  · have himage := Message.length_metadataImage (site.clientOrder i) (site.client i).info
    have hform := (@BlockClient.helloMessage_wireForm (site.clientOrder i)
      (site.client i)).received (by
        rw [himage]
        decide)
    rw [hform.getMetadata (M := HostInfo)] at hmetadata
    exact ⟨i, hgreeted, Except.ok.inj hmetadata⟩

omit [DecidableEq ι] in
/-- The parties of a closed network send nothing else. -/
theorem Sent.introduces {bytes : Bytes} (hsent : net.Sent bytes)
    (hnet : Keeping Serving (Listening site) (Typed spoken) net) :
    Introduces site net bytes := by
  rcases hsent with ⟨run, hrun, datagram, hmem, rfl⟩ | ⟨i, run, hrun, datagram, hmem, rfl⟩
  · exact Or.inl ((hnet.server run hrun).1 _ (List.mem_append_left _ (List.mem_map_of_mem hmem)))
  · obtain ⟨hello, _, hgreeting, hposted⟩ := (hnet.clients i run hrun).posted
    have hbytes : datagram.2 = ((site.client i).helloMessage (site.clientOrder i)).buffer := by
      apply hgreeting
      rw [← hposted]
      exact List.mem_append_left _ (List.mem_map_of_mem hmem)
    exact Or.inr ⟨i, ⟨run, hrun, datagram, hmem, hbytes⟩, hbytes⟩

omit [DecidableEq ι] in
theorem start_registers {hosts : Set HostInfo} {ephemeral : UInt16}
    {openError : Option String} {input : ServerInput} :
    (ServerRun.start site.serverOrder ephemeral openError input
      site.server).server.Registers hosts := by
  have hweak : ∀ server : BlockServer, server.Registers hosts → server.Registers hosts :=
    fun _ hserver => hserver
  rw [ServerRun.start, ServerRun.server_ofResult]
  apply (@BlockServer.start_keeps site.serverOrder _ _ ephemeral openError input hweak
    (fun _ hserver _ => hserver) (fun _ hserver => hserver)
    (fun _ => BlockServer.enqueueBlock_keeps hweak fun _ hserver _ _ _ => hserver)).endState
  intro host hhost
  rw [Site.server, BlockServer.create, OrderedMap.find?_empty] at hhost
  contradiction

omit [DecidableEq ι] in
theorem resume_registers {input : ServerInput}
    (hbrought : Brought (Introduces site net) input.arrival) (phase : ServerPhase) :
    Keeps (BlockServer.Registers (net.greeters site))
      (BlockServer.Registers (net.greeters site))
      (BlockServer.resume site.serverOrder input phase) := by
  have hweak : ∀ server : BlockServer, server.Registers (net.greeters site) →
      server.Registers (net.greeters site) := fun _ hserver => hserver
  apply BlockServer.resume_keeps hweak
  · apply BlockServer.processMessage_keeps_of_hellos hweak fun datagram harrival =>
      (hbrought datagram harrival).typed
    · exact fun _ _ _ _ hserver => hserver
    · intro datagram harrival info hmetadata htype server hserver
      exact hserver.insert ((hbrought datagram harrival).greeter hmetadata htype)
  · apply Endpoint.sendFront_keeps_of_sent
    · exact fun _ _ hserver _ => hserver
    · exact fun _ _ hserver => hserver
  · exact fun _ => BlockServer.enqueueBlock_keeps hweak fun _ hserver _ _ _ => hserver

/-- In a closed network a server registers the hosts of clients that have greeted. -/
theorem Lossy.registers (hnet : Lossy site conditions empty net) {run : ServerRun}
    (hrun : net.server = some run) : run.server.Registers (net.greeters site) := by
  induction hnet generalizing run with
  | refl => contradiction
  | @tail net net' hmid hstep ih =>
      have hgreeters := hstep.greeters
      cases hstep with
      | startServer ephemeral openError input hnone hinput =>
          cases hrun
          exact start_registers
      | startClient i ephemeral openError hnone => exact (ih hrun).mono hgreeters
      | @server before input hbefore hlive hinput harrives =>
          cases hrun
          refine BlockServer.Registers.mono ?_ hgreeters
          apply ServerRun.step_keeps (resume_registers ?_) (ih hbefore)
          intro datagram harrival
          have hmem := (harrives datagram harrival).1
          exact ((Lossy.genuine hmid).serverInbox datagram hmem).introduces
            (contract_closed.lossy hmid)
      | client i input hsome hlive hinput harrives => exact (ih hrun).mono hgreeters
      | redeliver serverInbox clientInbox hserver hclients => exact ih hrun

/-- A host that a server has registered is that of a client which has sent its hello. -/
theorem Lossy.registered (hnet : Lossy site conditions empty net) {run : ServerRun}
    (hrun : net.server = some run) {host : HostInfo}
    (hhost : (run.server.hostInfo.find? host).isSome) :
    ∃ i, site.greeter i = host ∧
      ∃ run, net.clients i = some run ∧ ∃ datagram ∈ run.client.socket.sent,
        datagram.2 = ((site.client i).helloMessage (site.clientOrder i)).buffer := by
  obtain ⟨i, hgreeted, hhost⟩ := hnet.registers hrun host hhost
  exact ⟨i, hhost, hgreeted⟩

/-- The server has handled the hello. -/
theorem repeatedNetwork_registered : ∃ i, fileSite.greeter i = HostInfo.ofId .little 7 ∧
    ∃ run, repeatedNetwork.serverReads.clients i = some run ∧
      ∃ datagram ∈ run.client.socket.sent,
        datagram.2 = ((fileSite.client i).helloMessage (fileSite.clientOrder i)).buffer := by
  have hhost : (repeatedNetwork.serverReads.server.map fun run =>
      (run.server.hostInfo.find? (HostInfo.ofId .little 7)).isSome) = some true := by
    decide +kernel
  obtain ⟨run, hrun⟩ := Option.isSome_iff_exists.mp
    (show repeatedNetwork.serverReads.server.isSome by decide +kernel)
  rw [hrun, Option.map_some] at hhost
  exact (lossy_serverReads lossy_repeatedNetwork (by decide +kernel)).registered hrun
    (Option.some.inj hhost)

end Network

end Multisync
