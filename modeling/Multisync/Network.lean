import Multisync.BlockClient
import Multisync.BlockServer
import Mathlib.Tactic

/-!
# One server, its clients and the network

A datagram reaches exactly the sockets that are bound to its destination port and
have joined its destination group or own its destination address.  What reaches a
socket stays there unread until its owner reads it, in any order.

`wire` is no part of the program or of the network: it notes what the clients have
sent, with the port the server's socket was bound to and whether it got there.
-/

namespace Multisync

open ByteLayout Effects

/-- The socket of a host takes what is sent to the destination. -/
def BlockSocket.Takes (ip : UInt32) (destination : Address) (socket : BlockSocket) :
    Prop :=
  socket.bound = some destination.port ∧
    (socket.group.ip = destination.ip ∨ ip = destination.ip)

instance (ip : UInt32) (destination : Address) (socket : BlockSocket) :
    Decidable (socket.Takes ip destination) :=
  inferInstanceAs (Decidable (_ ∧ _))

/-- The socket while the program runs. -/
def ServerRun.socket? (run : ServerRun) : Option BlockSocket :=
  match run.phase with
  | .ok .returned => none
  | .ok _ => some run.server.socket
  | .error _ => none

def ClientRun.socket? (run : ClientRun) : Option BlockSocket :=
  match run.fault with
  | none => some run.client.socket
  | some _ => none

/-- A server and its clients, all with the same group and port, as their
constructors get them, and the addresses of their hosts. -/
structure Site (ι : Type) where
  group : UInt32
  port : UInt16
  serverOrder : ByteOrder
  md5 : Bytes → Md5Digest
  opened : Option Bytes
  measured : Option FileSource
  path : Bytes
  serverId : UInt32
  serverIp : UInt32
  clientOrder : ι → ByteOrder
  pid : ι → UInt32
  clientId : ι → UInt32
  files : ι → FileStore Bytes
  clientIp : ι → UInt32

namespace Site

variable {ι : Type} (site : Site ι)

def server : BlockServer :=
  BlockServer.create site.serverOrder site.md5 site.opened site.measured site.path
    site.group site.port site.serverId

def client (i : ι) : BlockClient :=
  BlockClient.create (site.clientOrder i) site.group site.port (site.pid i)
    (site.clientId i) (site.files i)

end Site

/-- What the system calls may give, and whether other hosts send. -/
structure Circumstances where
  serverInput : ServerInput → Prop
  clientInput : ClientInput → Prop
  outsiders : Prop

/-- A datagram a client has sent. -/
structure Transmission (ι : Type) where
  source : ι
  destination : Address
  bytes : Bytes
  serverPort : Option UInt16
  reachedServer : Bool

/-- Whose `start` has been called, and what lies unread at each socket. -/
structure Network (ι : Type) where
  server : Option ServerRun
  clients : ι → Option ClientRun
  serverInbox : List (Address × Bytes)
  clientInbox : ι → List (Address × Bytes)
  wire : List (Transmission ι)

namespace Network

variable {ι : Type} [DecidableEq ι]

/-- Nothing has been started. -/
def empty : Network ι where
  server := none
  clients := fun _ => none
  serverInbox := []
  clientInbox := fun _ => []
  wire := []

def serverSocket? (net : Network ι) : Option BlockSocket :=
  net.server.bind ServerRun.socket?

def clientSocket? (net : Network ι) (i : ι) : Option BlockSocket :=
  (net.clients i).bind ClientRun.socket?

omit [DecidableEq ι] in
theorem serverSocket?_eq_some {net : Network ι} {socket : BlockSocket}
    (hsocket : net.serverSocket? = some socket) :
    ∃ run, net.server = some run ∧ socket = run.server.socket := by
  obtain ⟨run, hrun, hsocket⟩ := Option.bind_eq_some_iff.mp hsocket
  refine ⟨run, hrun, ?_⟩
  unfold ServerRun.socket? at hsocket
  split at hsocket
  · contradiction
  · exact (Option.some.inj hsocket).symm
  · contradiction

/-- Those of the datagrams that the socket takes, with their source. -/
def taken (ip : UInt32) (socket? : Option BlockSocket) (source : Address)
    (sent : List (Address × Bytes)) : List (Address × Bytes) :=
  match socket? with
  | none => []
  | some socket =>
      (sent.filter fun datagram => socket.Takes ip datagram.1).map fun datagram =>
        (source, datagram.2)

/-- Handing datagrams to the sockets that take them. -/
def transmit (site : Site ι) (source : Address) (sent : List (Address × Bytes))
    (net : Network ι) : Network ι :=
  { net with
    serverInbox := net.serverInbox ++
      taken site.serverIp net.serverSocket? source sent
    clientInbox := fun i => net.clientInbox i ++
      taken (site.clientIp i) (net.clientSocket? i) source sent }

/-- What is unread after a wait that ended with this arrival. -/
def unread (arrival : Except String (Address × Bytes))
    (inbox : List (Address × Bytes)) : List (Address × Bytes) :=
  match arrival with
  | .ok datagram => inbox.erase datagram
  | .error _ => inbox

/-- Only what is unread can be read, and only when the wait says so. -/
def Arrives (ready : Except String Ready) (arrival : Except String (Address × Bytes))
    (inbox : List (Address × Bytes)) : Prop :=
  ∀ datagram, arrival = .ok datagram →
    datagram ∈ inbox ∧ ∃ writable, ready = .ok ⟨true, writable⟩

/-- The server after one call of `select`, and what it has sent handed on. -/
def serverStep (site : Site ι) (run : ServerRun) (input : ServerInput)
    (net : Network ι) : Network ι :=
  let run' := run.step site.serverOrder input
  { transmit site ⟨site.serverIp, run.server.socket.bound.getD 0⟩
      (run'.server.socket.sent.drop run.server.socket.sent.length)
      { net with serverInbox := unread input.arrival net.serverInbox } with
    server := some run' }

/-- A client after one call of `select`, and what it has sent handed on. -/
def clientStep (site : Site ι) (i : ι) (run : ClientRun) (input : ClientInput)
    (net : Network ι) : Network ι :=
  let run' := run.step (site.clientOrder i) input
  let sent := run'.client.socket.sent.drop run.client.socket.sent.length
  { transmit site ⟨site.clientIp i, run.client.socket.bound.getD 0⟩ sent
      { net with clientInbox :=
          Function.update net.clientInbox i (unread input.arrival (net.clientInbox i)) }
    with
    clients := Function.update net.clients i (some run')
    wire := net.wire ++ sent.map fun datagram => {
      source := i
      destination := datagram.1
      bytes := datagram.2
      serverPort := net.serverSocket?.bind BlockSocket.bound
      reachedServer := net.serverSocket?.any fun socket =>
        socket.Takes site.serverIp datagram.1 } }

def serverStart (site : Site ι) (ephemeral : UInt16) (openError : Option String)
    (input : ServerInput) (net : Network ι) : Network ι :=
  { net with
    server := some
      (ServerRun.start site.serverOrder ephemeral openError input site.server) }

def clientStart (site : Site ι) (i : ι) (ephemeral : UInt16)
    (openError : Option String) (net : Network ι) : Network ι :=
  { net with
    clients := Function.update net.clients i (some
      (ClientRun.start (site.clientOrder i) ephemeral openError (site.client i))) }

section Fields

variable {site : Site ι} {net : Network ι} {i j : ι} {ephemeral : UInt16}
  {openError : Option String} {run : ClientRun} {input : ClientInput}

theorem clientStart_self : (net.clientStart site i ephemeral openError).clients i =
    some (ClientRun.start (site.clientOrder i) ephemeral openError (site.client i)) :=
  Function.update_self i _ _

theorem clientStart_ne (hne : j ≠ i) :
    (net.clientStart site i ephemeral openError).clients j = net.clients j :=
  Function.update_of_ne hne _ _

theorem clientStep_self : (net.clientStep site i run input).clients i =
    some (run.step (site.clientOrder i) input) :=
  Function.update_self i _ _

theorem clientStep_ne (hne : j ≠ i) :
    (net.clientStep site i run input).clients j = net.clients j :=
  Function.update_of_ne hne _ _

end Fields

inductive Step (site : Site ι) (circumstances : Circumstances) :
    Network ι → Network ι → Prop
  | startServer {net : Network ι} (ephemeral : UInt16) (openError : Option String)
      (input : ServerInput) (hnone : net.server = none)
      (hinput : circumstances.serverInput input) :
      Step site circumstances net (net.serverStart site ephemeral openError input)
  | startClient {net : Network ι} (i : ι) (ephemeral : UInt16)
      (openError : Option String) (hnone : net.clients i = none) :
      Step site circumstances net (net.clientStart site i ephemeral openError)
  | server {net : Network ι} {run : ServerRun} (input : ServerInput)
      (hrun : net.server = some run) (hlive : run.socket?.isSome)
      (hinput : circumstances.serverInput input)
      (harrives : Arrives input.ready input.arrival net.serverInbox) :
      Step site circumstances net (net.serverStep site run input)
  | client {net : Network ι} (i : ι) {run : ClientRun} (input : ClientInput)
      (hrun : net.clients i = some run) (hlive : run.socket?.isSome)
      (hinput : circumstances.clientInput input)
      (harrives : Arrives input.ready input.arrival (net.clientInbox i)) :
      Step site circumstances net (net.clientStep site i run input)
  | outsider {net : Network ι} (source destination : Address) (bytes : Bytes)
      (houtsiders : circumstances.outsiders) :
      Step site circumstances net (net.transmit site source [(destination, bytes)])

/-- The networks that any number of steps leads to. -/
def Reachable (site : Site ι) (circumstances : Circumstances) :
    Network ι → Network ι → Prop :=
  Relation.ReflTransGen (Step site circumstances)

end Network

end Multisync
