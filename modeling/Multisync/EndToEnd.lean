import Multisync.Gathering
import Multisync.Sending
import Mathlib.Tactic

/-!
# From one end to the other

One server and one client that is there before it.  The datagrams the client has handled
and those it has not read are together those the server has sent, and these are the
announcement and the blocks in their order.
-/

namespace Multisync

open ByteLayout Effects BlockAssembly

/-- The message of the post, as it is heard by the receiver of the file. -/
def Post.fileMessage (path : Bytes) : Post → FileMessage UInt8
  | .info => .info path
  | .block number _ => .block number

/-- The site has the file: it can be opened and measured, its path is one for the system
and fits a message, and the client can be bound to the port of the group. -/
structure Site.Offers (site : Site Unit) (source : Bytes) : Prop where
  opened : site.opened = some source
  measured : site.measured = some (.regular source)
  path : cstr site.path ≠ []
  path_le : site.path.length ≤ 4056
  port : site.port ≠ 0

/-- The file as the client names it. -/
def Site.readInfo (site : Site Unit) : FileInfo :=
  Metadata.load (site.clientOrder ()) (Metadata.store site.serverOrder site.server.fileInfo)

/-- What the client hears in a datagram. -/
def Site.hear (site : Site Unit) (datagram : Address × Bytes) :
    Option (FileMessage UInt8) :=
  (Message.received receiveReserve datagram.2).fileMessage? (site.clientOrder ())
    (site.clientId ())

/-- What the client hears in what arrives, if something does. -/
def Site.hearArrival (site : Site Unit) (arrival : Except String (Address × Bytes)) :
    Option (FileMessage UInt8) :=
  match arrival with
  | .ok datagram => site.hear datagram
  | .error _ => none

def Site.heard (site : Site Unit) (datagrams : List (Address × Bytes)) :
    List (FileMessage UInt8) :=
  datagrams.filterMap site.hear

section Datagrams

variable {site : Site Unit} {source : Bytes}

theorem Site.Offers.servesFile (hoffers : site.Offers source) :
    site.server.ServesFile site.serverOrder source := by
  refine ⟨site.md5, site.path, site.group, site.port, site.serverId, ?_⟩
  rw [Site.server, hoffers.opened, hoffers.measured]

theorem Site.Offers.count (hoffers : site.Offers source)
    (hlong : blockCount blockSize source ≤ 2 ^ 22) :
    (site.readInfo.getBlockCount (site.clientOrder ())).toNat =
      blockCount blockSize source := by
  rw [Site.readInfo, FileInfo.getBlockCount_load]
  exact hoffers.servesFile.count (by omega)

theorem Site.digest_nul (site : Site Unit) : 0 ∈ site.readInfo.digest := by
  rw [Site.readInfo, FileInfo.digest_load]
  exact List.mem_append_right _ List.mem_cons_self

/-- A datagram of a client: it passes the checks, and asks for nothing. -/
structure Site.Hails (site : Site Unit) (bytes : Bytes) : Prop where
  framed : (Message.received receiveReserve bytes).Framed (site.clientOrder ())
  nonempty : (Message.received receiveReserve bytes).buffer ≠ []
  fromClient : ∀ order,
    BlockClient.FromClient order (Message.received receiveReserve bytes)

/-- What travels: the messages of a client, the announcement and the blocks. -/
def Site.Conveys (site : Site Unit) (source bytes : Bytes) : Prop :=
  site.Hails bytes ∨ ∃ post ∈ filePosts source (blockCount blockSize source),
    bytes = site.server.render site.serverOrder post

theorem mem_filePosts {count number : ℕ} {payload : Bytes}
    (hmem : Post.block number payload ∈ filePosts source count) :
    number < count ∧ payload = slice blockSize source number := by
  obtain ⟨found, hfound, heq⟩ := List.mem_map.mp ((List.mem_cons.mp hmem).resolve_left
    (by simp))
  cases heq
  exact ⟨List.mem_range.mp hfound, rfl⟩

/-- A message of the server as it is received: it passes the checks, asks for nothing
and brings what was posted. -/
structure Site.Carries (site : Site Unit) (source : Bytes) (post : Post)
    (message : Message) : Prop where
  framed : message.Framed (site.clientOrder ())
  nonempty : message.buffer ≠ []
  quiet : message.getType site.serverOrder ≠ MessageType.getinfo.code
  brings : BlockClient.Brings (site.clientOrder ()) site.readInfo source message
    (post.fileMessage site.path)

theorem Site.Offers.carries_info (hoffers : site.Offers source) :
    site.Carries source .info (Message.received receiveReserve
      (site.server.render site.serverOrder .info)) := by
  have hpath : site.server.path.length ≤ 4056 := hoffers.path_le
  have himage : (Message.metadataImage site.serverOrder site.server.fileInfo).length = 40 :=
    Message.length_metadataImage site.serverOrder site.server.fileInfo
  have hform : WireForm site.serverOrder site.server.id MessageType.info.code
      (Message.metadataImage site.serverOrder site.server.fileInfo) site.server.path
      (Message.received receiveReserve (site.server.render site.serverOrder .info)) := by
    apply (infoMessage_wireForm site.serverOrder site.server).received
    rw [himage, headerSize]
    omega
  have htype := hform.getType (site.clientOrder ())
  have htext := hform.getText (site.clientOrder ())
  have hmetadata := hform.getMetadata (M := FileInfo) (site.clientOrder ())
  refine ⟨hform.framed (by omega) _, hform.buffer_ne_nil, ?_, ?_⟩
  · rw [hform.getType]
    decide
  constructor
  · intro id
    rw [Message.fileMessage?, if_pos htype, htext]
    rfl
  · rw [Message.fileInfo?, if_pos (Or.inl htype), hmetadata]
    rfl
  · intro path heq hnil
    cases heq
    exact absurd hnil hoffers.path
  · intro number heq
    cases heq
  · intro named heq
    cases heq

theorem Site.carries_block (site : Site Unit)
    (hlong : blockCount blockSize source ≤ 2 ^ 22) {number : ℕ}
    (hlt : number < blockCount blockSize source) :
    site.Carries source (.block number (slice blockSize source number))
      (Message.received receiveReserve (site.server.render site.serverOrder
        (.block number (slice blockSize source number)))) := by
  let i := site.server.fileInfo.blockAt site.serverOrder number
  have hlength : (slice blockSize source number).length ≤ blockSize := by
    rw [length_slice]
    omega
  have hsize : blockSize = 1024 := rfl
  have himage : (Message.metadataImage site.serverOrder i).length = 44 :=
    Message.length_metadataImage site.serverOrder i
  have hform : WireForm site.serverOrder site.server.id MessageType.block.code
      (Message.metadataImage site.serverOrder i) (slice blockSize source number)
      (Message.received receiveReserve (site.server.render site.serverOrder
        (.block number (slice blockSize source number)))) := by
    apply (BlockServer.blockMessage_wireForm site.server.id i hlength).received
    rw [himage, headerSize]
    omega
  have htype := hform.getType (site.clientOrder ())
  have hmetadata := hform.getMetadata (M := BlockInfo) (site.clientOrder ())
  have hinfo := Message.fileInfo?_of_block htype hmetadata
  rw [BlockInfo.fileInfo_load] at hinfo
  have hnumber : ((Metadata.load (site.clientOrder ())
      (Metadata.store site.serverOrder i) : BlockInfo).getBlock
        (site.clientOrder ())).toNat = number := by
    rw [BlockInfo.getBlock_load, FileInfo.getBlock_blockAt _ _ (by omega)]
  refine ⟨hform.framed (by omega) _, hform.buffer_ne_nil, ?_, ?_⟩
  · rw [hform.getType]
    decide
  constructor
  · intro id
    rw [Message.fileMessage?_of_block htype hmetadata, hnumber]
    rfl
  · exact hinfo
  · intro path heq
    cases heq
  · intro other heq
    cases heq
    exact ⟨hlt, hform.getText (site.clientOrder ())⟩
  · intro named heq
    cases heq

theorem Site.Offers.carries (hoffers : site.Offers source)
    (hlong : blockCount blockSize source ≤ 2 ^ 22) {post : Post}
    (hpost : post ∈ filePosts source (blockCount blockSize source)) :
    site.Carries source post (Message.received receiveReserve
      (site.server.render site.serverOrder post)) := by
  cases post with
  | info => exact hoffers.carries_info
  | block number payload =>
      obtain ⟨hlt, rfl⟩ := mem_filePosts hpost
      exact site.carries_block hlong hlt

/-- A client hears nothing of the file in the datagram of a client. -/
theorem Site.Hails.hear_eq_none {datagram : Address × Bytes}
    (hhails : site.Hails datagram.2) : site.hear datagram = none := by
  obtain ⟨hinfo, hblock, hgoodbye⟩ := (hhails.fromClient (site.clientOrder ())).ne
  rw [Site.hear, Message.fileMessage?, if_neg hinfo, if_neg hblock, if_neg hgoodbye]

theorem Site.heard_append (site : Site Unit) (first second : List (Address × Bytes)) :
    site.heard (first ++ second) = site.heard first ++ site.heard second :=
  List.filterMap_append

/-- What was heard depends on the bytes only. -/
theorem Site.heard_of_bytes (site : Site Unit) {first second : List (Address × Bytes)}
    (hbytes : first.map Prod.snd = second.map Prod.snd) :
    site.heard first = site.heard second := by
  have hmap : ∀ datagrams : List (Address × Bytes), site.heard datagrams =
      (datagrams.map Prod.snd).filterMap fun bytes => site.hear (⟨0, 0⟩, bytes) := by
    intro datagrams
    rw [List.filterMap_map]
    rfl
  rw [hmap, hmap, hbytes]

/-- What the client is to hear of the first blocks. -/
def fileMessages (path source : Bytes) (count : ℕ) : List (FileMessage UInt8) :=
  (filePosts source count).map (Post.fileMessage path)

theorem fileMessages_nodup (path source : Bytes) (count : ℕ) :
    (fileMessages path source count).Nodup := by
  have hblocks : (List.range count).map FileMessage.block =
      ((List.range count).map fun number =>
        Post.block number (slice blockSize source number)).map (Post.fileMessage path) := by
    rw [List.map_map]
    rfl
  rw [fileMessages, filePosts, List.map_cons, ← hblocks, List.nodup_cons]
  constructor
  · simp [Post.fileMessage]
  · exact List.nodup_range.map fun first second heq => FileMessage.block.inj heq

theorem mem_fileMessages {path : Bytes} {count : ℕ} {message : FileMessage UInt8} :
    message ∈ fileMessages path source count ↔
      message = .info path ∨ ∃ number < count, message = .block number := by
  simp only [fileMessages, filePosts, List.map_cons, List.mem_cons, List.map_map,
    List.mem_map, List.mem_range, Function.comp_apply, Post.fileMessage]
  exact or_congr_right (exists_congr fun number => and_congr_right fun _ => eq_comm)

theorem mem_filePosts_of_le {count total : ℕ} (hle : count ≤ total) {post : Post}
    (hmem : post ∈ filePosts source count) : post ∈ filePosts source total := by
  rcases List.mem_cons.mp hmem with rfl | hblock
  · exact List.mem_cons_self
  · obtain ⟨number, hnumber, rfl⟩ := List.mem_map.mp hblock
    refine List.mem_cons_of_mem _ (List.mem_map.mpr ⟨number, ?_, rfl⟩)
    exact List.mem_range.mpr ((List.mem_range.mp hnumber).trans_le hle)

/-- The client is to hear all that was posted; what was sent comes first. -/
theorem Site.Offers.heard_sent (hoffers : site.Offers source)
    (hlong : blockCount blockSize source ≤ 2 ^ 22) {count : ℕ}
    (hle : count ≤ blockCount blockSize source) {server : BlockServer}
    (hserves : BlockServer.Serves site.serverOrder site.server (filePosts source count)
      server) :
    ∃ rest, site.heard server.socket.sent ++ rest = fileMessages site.path source count ∧
      (server.messageQueue = [] → rest = []) := by
  have hposted : site.heard (server.posted.map fun bytes => (⟨0, 0⟩, bytes)) =
      fileMessages site.path source count := by
    rw [hserves.posted, Site.heard, List.filterMap_map, List.filterMap_map, fileMessages,
      ← List.filterMap_eq_map]
    apply List.filterMap_congr
    intro post hpost
    exact (hoffers.carries hlong (mem_filePosts_of_le hle hpost)).brings.heard _
  refine ⟨site.heard (server.messageQueue.map fun message => (⟨0, 0⟩, message.buffer)),
    ?_, ?_⟩
  · rw [← hposted, BlockServer.posted, List.map_append, Site.heard_append]
    congr 1
    · apply site.heard_of_bytes
      simp
    · apply site.heard_of_bytes
      simp
  · intro hempty
    rw [hempty]
    rfl

theorem Transfer.path_of_mem {heard : List (FileMessage UInt8)} {path : Bytes}
    (hmem : .info path ∈ heard) (hall : ∀ other, .info other ∈ heard → other = path) :
    Transfer.path heard = path := by
  induction heard using List.reverseRecOn with
  | nil => contradiction
  | append_singleton heard message ih =>
      have hrest : ∀ other, .info other ∈ heard → other = path := fun other hother =>
        hall other (List.mem_append_left _ hother)
      cases message with
      | info new =>
          rw [Transfer.path_concat_info]
          exact hall new (by simp)
      | block number =>
          rw [Transfer.path_concat_block]
          exact ih (by simpa using hmem) hrest
      | goodbye named =>
          rw [Transfer.path_concat_goodbye]
          exact ih (by simpa using hmem) hrest

end Datagrams

/-! ## What the socket of the client keeps -/

/-- What looks at the socket only, and bears a new sender and sending, is kept. -/
theorem BlockClient.select_keeps_of_socket {order : ByteOrder} {input : ClientInput}
    {P : BlockSocket → Prop}
    (hsender : ∀ socket sender, P socket → P { socket with sender := sender })
    (hsent : ∀ socket sent, P socket → socket.sent <+: sent →
      P { socket with sent := sent }) :
    Keeps (fun client => P client.socket) (fun client => P client.socket)
      (select order input) := by
  have hweak : ∀ client : BlockClient, P client.socket → P client.socket :=
    fun _ hclient => hclient
  apply Endpoint.select_keeps hweak
  · apply processMessage_keeps hweak
    · exact fun _ hclient sender => hsender _ sender hclient
    · intro message address
      apply handle_keeps_of_records
      · exact fun _ hclient _ _ _ => hclient
      · exact fun _ hclient => hclient
  · apply Endpoint.sendFront_keeps_of_sent
    · exact fun _ sent hclient hprefix => hsent _ sent hclient hprefix
    · exact fun _ _ hclient => hclient

/-- The socket keeps its group and its port. -/
theorem BlockClient.select_socket {order : ByteOrder} {input : ClientInput}
    {group : UInt32} {bound : Option UInt16} :
    Keeps (fun client => client.socket.group.ip = group ∧ client.socket.bound = bound)
      (fun client => client.socket.group.ip = group ∧ client.socket.bound = bound)
      (select order input) :=
  @select_keeps_of_socket order input
    (fun socket => socket.group.ip = group ∧ socket.bound = bound)
    (fun _ _ hsocket => hsocket) fun _ _ hsocket _ => hsocket

/-- What was sent stays sent. -/
theorem ClientRun.step_sent {order : ByteOrder} (run : ClientRun) (input : ClientInput) :
    run.client.socket.sent <+: (run.step order input).client.socket.sent :=
  step_keeps (@BlockClient.select_keeps_of_socket order input
    (fun socket => run.client.socket.sent <+: socket.sent)
    (fun _ _ hsocket => hsocket) fun _ _ hsocket hsent => hsocket.trans hsent)
    (List.prefix_refl _)

/-! ## The datagrams under way -/

namespace Network

variable {site : Site Unit} {source : Bytes} {net : Network Unit}

/-- The server has thrown an exception. -/
def ServerDead (net : Network Unit) : Prop :=
  ∃ run fault, net.server = some run ∧ run.phase = .error fault

def sentByServer (net : Network Unit) : List (Address × Bytes) :=
  match net.server with
  | none => []
  | some run => run.server.socket.sent

/-- What the client has handled and what it has not read are what the server has sent. -/
structure Conveying (site : Site Unit) (source : Bytes) (heard : List (FileMessage UInt8))
    (run : ClientRun) (net : Network Unit) : Prop where
  client : net.clients () = some run
  sound : run.fault = none
  socket : run.client.socket.group.ip = site.group ∧
    run.client.socket.bound = some site.port
  posted : (site.client ()).Posted (site.clientOrder ())
    [((site.client ()).helloMessage (site.clientOrder ())).buffer] run.client
  gathered : run.client.Gathered site.readInfo source heard
  serverInbox : ∀ datagram ∈ net.serverInbox, site.Conveys source datagram.2
  clientInbox : ∀ datagram ∈ net.clientInbox (), site.Conveys source datagram.2
  server : ∀ serverRun, net.server = some serverRun → ∃ phase,
    serverRun.phase = .ok phase ∧
      BlockServer.Sending site.serverOrder site.server source phase serverRun.server
  heard : (heard ++ site.heard (net.clientInbox ())).Perm (site.heard net.sentByServer)

/-- What a socket takes of the datagrams. -/
theorem mem_taken {ip : UInt32} {socket? : Option BlockSocket} {address : Address}
    {sent : List (Address × Bytes)} {datagram : Address × Bytes}
    (hmem : datagram ∈ taken ip socket? address sent) :
    ∃ other ∈ sent, other.2 = datagram.2 := by
  cases socket? with
  | none => contradiction
  | some socket =>
      obtain ⟨other, hother, rfl⟩ := List.mem_map.mp hmem
      exact ⟨other, (List.mem_filter.mp hother).1, rfl⟩

theorem taken_of_takes {ip : UInt32} {socket : BlockSocket} {address : Address}
    {sent : List (Address × Bytes)} (htakes : ∀ datagram ∈ sent, socket.Takes ip datagram.1) :
    (taken ip (some socket) address sent).map Prod.snd = sent.map Prod.snd := by
  have hall : (sent.filter fun datagram => socket.Takes ip datagram.1) = sent := by
    rw [List.filter_eq_self]
    exact fun datagram hmem => decide_eq_true (htakes datagram hmem)
  rw [taken, hall, List.map_map]
  rfl

theorem mem_of_mem_unread {arrival : Except String (Address × Bytes)}
    {inbox : List (Address × Bytes)} {datagram : Address × Bytes}
    (hmem : datagram ∈ unread arrival inbox) : datagram ∈ inbox := by
  cases arrival with
  | error error => exact hmem
  | ok read => exact List.mem_of_mem_erase hmem

/-- What lies unread after a wait and a transmission. -/
theorem forall_mem_unread_taken {P : Address × Bytes → Prop} {ip : UInt32}
    {socket? : Option BlockSocket} {address : Address}
    {arrival : Except String (Address × Bytes)} {inbox sent : List (Address × Bytes)}
    (hinbox : ∀ datagram ∈ inbox, P datagram)
    (hsent : ∀ datagram ∈ sent, ∀ source, P (source, datagram.2)) :
    ∀ datagram ∈ unread arrival inbox ++ taken ip socket? address sent, P datagram := by
  intro datagram hmem
  rcases List.mem_append.mp hmem with hold | hnew
  · exact hinbox datagram (mem_of_mem_unread hold)
  · obtain ⟨other, hother, hbytes⟩ := mem_taken hnew
    have hother := hsent other hother datagram.1
    rwa [hbytes] at hother

section Invariant

variable {heard : List (FileMessage UInt8)} {run : ClientRun}

/-- Nothing is under way twice. -/
theorem Conveying.underWay (hnet : Conveying site source heard run net)
    (hoffers : site.Offers source) (hlong : blockCount blockSize source ≤ 2 ^ 22) :
    ∃ count ≤ blockCount blockSize source, ∃ rest,
      (heard ++ site.heard (net.clientInbox ()) ++ rest).Perm
        (fileMessages site.path source count) := by
  have hheard := hnet.heard
  unfold sentByServer at hheard
  cases hserver : net.server with
  | none =>
      rw [hserver] at hheard
      refine ⟨0, Nat.zero_le _, fileMessages site.path source 0, ?_⟩
      exact hheard.append_right _
  | some serverRun =>
      rw [hserver] at hheard
      obtain ⟨phase, _, hsending⟩ := hnet.server serverRun hserver
      obtain ⟨count, hle, hserves⟩ := hsending.serves
      obtain ⟨rest, hrest, _⟩ := hoffers.heard_sent hlong hle hserves
      refine ⟨count, hle, rest, ?_⟩
      rw [← hrest]
      exact hheard.append_right rest

/-- The file is not complete as long as the client has a message of it to read. -/
theorem Conveying.incomplete (hnet : Conveying site source heard run net)
    (hoffers : site.Offers source) (hlong : blockCount blockSize source ≤ 2 ^ 22)
    {datagram : Address × Bytes} (hmem : datagram ∈ net.clientInbox ())
    {heardNow : FileMessage UInt8} (hhear : site.hear datagram = some heardNow) :
    ¬ Transfer.Complete (blockCount blockSize source) heard := by
  intro hcomplete
  obtain ⟨count, hle, rest, hperm⟩ := hnet.underWay hoffers hlong
  have hnodup := hperm.nodup_iff.mpr (fileMessages_nodup site.path source count)
  rw [List.append_assoc, List.nodup_append] at hnodup
  have hinbox : heardNow ∈ site.heard (net.clientInbox ()) ++ rest :=
    List.mem_append_left _ (List.mem_filterMap.mpr ⟨datagram, hmem, hhear⟩)
  have hnot : heardNow ∉ heard := fun hold => hnodup.2.2 heardNow hold heardNow hinbox rfl
  have hall : ∀ message ∈ heard ++ site.heard (net.clientInbox ()) ++ rest,
      message = .info site.path ∨ ∃ number < count, message = .block number :=
    fun message hmessage => mem_fileMessages.mp (hperm.mem_iff.mp hmessage)
  apply hnot
  rcases hall heardNow (by rw [List.append_assoc]; exact List.mem_append_right _ hinbox) with
    rfl | ⟨number, hlt, rfl⟩
  · have hpath := Transfer.info_path_mem hcomplete.2
    rcases hall (.info (Transfer.path heard)) (by simp [hpath]) with heq | ⟨_, _, heq⟩
    · rw [heq] at hpath
      exact hpath
    · cases heq
  · exact hcomplete.1 number (hlt.trans_le hle)

theorem Conveying.welcome (hnet : Conveying site source heard run net)
    (hoffers : site.Offers source) (hlong : blockCount blockSize source ≤ 2 ^ 22)
    {datagram : Address × Bytes} (hmem : datagram ∈ net.clientInbox ()) :
    BlockClient.Welcome (site.clientOrder ()) site.readInfo source heard
      (Message.received receiveReserve datagram.2) (site.hear datagram) := by
  rcases hnet.clientInbox datagram hmem with hhails | ⟨post, hpost, hbytes⟩
  · have hnone := hhails.hear_eq_none
    refine ⟨hhails.framed, hhails.nonempty, fun _ => hhails.fromClient _, fun new hnew => ?_⟩
    rw [hnone] at hnew
    contradiction
  · have hcarries := hoffers.carries hlong hpost
    rw [← hbytes] at hcarries
    have hhear : site.hear datagram = some (post.fileMessage site.path) :=
      hcarries.brings.heard _
    refine ⟨hcarries.framed, hcarries.nonempty, fun hnone => ?_, fun new hnew => ?_⟩
    · rw [hhear] at hnone
      contradiction
    · rw [hhear] at hnew
      cases hnew
      exact ⟨hcarries.brings, hnet.incomplete hoffers hlong hmem hhear⟩

end Invariant

end Network

end Multisync
