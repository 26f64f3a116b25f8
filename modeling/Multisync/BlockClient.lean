import Multisync.MessageLoop
import Multisync.OrderedMap
import Multisync.SyncStatus
import Mathlib.Tactic

/-!
# The client

The client keeps one record for each file it has heard of, in a map ordered by
the comparison of file infos, and a queue of messages to send.  A handler works
on the record of the file its message names, makes it when there is none, and
erases it once the transfer and the goodbye are complete.

`trace` is no part of the program: it notes what the handlers did to the
records, in the order in which they did it.
-/

namespace Multisync

open ByteLayout Effects

inductive ClientEvent where
  | created (info : FileInfo) (temp : Bytes)
  | published (info : FileInfo) (publication : Publication)
  | answered (info : FileInfo) (serverAddress : Address)
  | erased (info : FileInfo)
  deriving DecidableEq, Repr

/-- The record and the server address for which a goodbye was queued. -/
def ClientEvent.answer? : ClientEvent → Option (FileInfo × Address)
  | .answered info serverAddress => some (info, serverAddress)
  | _ => none

/-- The file whose record the event is about. -/
def ClientEvent.info : ClientEvent → FileInfo
  | .created info _ => info
  | .published info _ => info
  | .answered info _ => info
  | .erased info => info

structure BlockClient where
  info : HostInfo
  id : UInt32
  socket : BlockSocket
  syncSet : OrderedMap FileInfo.Lt SyncStatus
  messageQueue : List Message
  files : FileStore Bytes
  trace : List ClientEvent

/-- What the environment supplies during one call of `select`: the results of
the system calls, and what the handlers meet. -/
structure ClientInput where
  ready : Except String Ready
  arrival : Except String (Address × Bytes)
  env : Environment
  sendError : Option String

namespace BlockClient

/-- The constructor.  The member `id` is not initialised. -/
def create (order : ByteOrder) (group : UInt32) (port : UInt16)
    (pid id : UInt32) (files : FileStore Bytes) : BlockClient where
  info := HostInfo.ofId order pid
  id := id
  socket := BlockSocket.create group port
  syncSet := OrderedMap.empty
  messageQueue := []
  files := files
  trace := []

def endpoint : Endpoint BlockClient where
  socket := socket
  putSocket socket client := { client with socket := socket }
  messageQueue := messageQueue
  putQueue queue client := { client with messageQueue := queue }

/-- Storing a record back, with what happened to its file. -/
def putStatus (client : BlockClient) (info : FileInfo) (state : StatusState) :
    BlockClient :=
  { client with
    syncSet := client.syncSet.replace info state.status
    files := state.files
    trace := client.trace ++
      state.publications.map (ClientEvent.published info) }

/-- A program on the record a reference points to. -/
def onStatus {α : Type} (info : FileInfo) (program : EStateM Fault StatusState α) :
    EStateM Fault BlockClient α := fun client =>
  match client.syncSet.find? info with
  | none => .error .undefined client
  | some status =>
      match program ⟨status, client.files, []⟩ with
      | .ok value state => .ok value (client.putStatus info state)
      | .error fault state => .error fault (client.putStatus info state)

/-- `sync_set.erase`. -/
def eraseStatus (info : FileInfo) : EStateM Fault BlockClient Unit :=
  modify fun client => { client with
    syncSet := client.syncSet.erase info
    trace := client.trace ++ [.erased info] }

variable (order : ByteOrder)

/-- `get_sync_status`: afterwards there is a record. -/
def getSyncStatus (env : Environment) (info : FileInfo) (address : Address) :
    EStateM Fault BlockClient Unit := do
  let client ← get
  match client.syncSet.find? info with
  | some _ => pure ()
  | none =>
      let (status, files) ← ofResult
        (SyncStatus.create order env info address client.files)
      modify fun client => { client with
        syncSet := client.syncSet.insert info status
        files := files
        trace := client.trace ++ [.created info status.temp] }

def handleInfo (env : Environment) (message : Message) (address : Address) :
    EStateM Fault BlockClient Unit := do
  let info ← ofResult (message.getMetadata order FileInfo)
  getSyncStatus order env info address
  let text ← ofResult (message.getText order)
  onStatus info (SyncStatus.setPath text)
  if ← onStatus info (SyncStatus.syncComplete env.first) then
    eraseStatus info

def handleBlock (env : Environment) (message : Message) (address : Address) :
    EStateM Fault BlockClient Unit := do
  let block ← ofResult (message.getMetadata order BlockInfo)
  let info := block.fileInfo
  getSyncStatus order env info address
  onStatus info
    (SyncStatus.writeBlock order env (block.getBlock order).toNat message)
  if ← onStatus info (SyncStatus.syncComplete env.first) then
    eraseStatus info

/-- The body of the loop over the client list: the raw word of the packet is
compared with the member `id`. -/
def answerClient (info : FileInfo) (message : Message) (clients : Extent)
    (i : ℕ) : EStateM Fault BlockClient Unit := do
  let word ← ofResult (message.arrayElement order clients i)
  let client ← get
  if word = client.id then
    onStatus info SyncStatus.setGoodbyeReceived
    modify fun client => { client with
      messageQueue := client.messageQueue ++
        [Message.bare order client.id MessageType.cgoodbye.code]
      trace := client.trace ++ ((client.syncSet.find? info).map fun status =>
        ClientEvent.answered info status.serverAddress).toList }

def handleSgoodbye (env : Environment) (message : Message) (address : Address) :
    EStateM Fault BlockClient Unit := do
  let info ← ofResult (message.getMetadata order FileInfo)
  getSyncStatus order env info address
  if ← onStatus info (SyncStatus.transferComplete env.first) then
    let clients ← ofResult (message.arrayExtent order 4)
    (List.range (clients.length / 4)).forM
      (answerClient order info message clients)
  if ← onStatus info (SyncStatus.syncComplete env.second) then
    eraseStatus info

/-- The handler of the type, if the client has one. -/
def handle (env : Environment) (message : Message) (address : Address) :
    EStateM Fault BlockClient Unit :=
  if message.getType order = MessageType.info.code then
    handleInfo order env message address
  else if message.getType order = MessageType.block.code then
    handleBlock order env message address
  else if message.getType order = MessageType.sgoodbye.code then
    handleSgoodbye order env message address
  else pure ()

def processMessage (input : ClientInput) : EStateM Fault BlockClient Unit := do
  let message ← endpoint.receiveMessage order input.arrival
  let client ← get
  handle order input.env message client.socket.sender

def select (input : ClientInput) : EStateM Fault BlockClient Unit :=
  endpoint.select order input.ready (processMessage order input) input.sendError

/-- `start` up to its loop: the socket is opened and the hello is queued. -/
def start (ephemeral : UInt16) (error : Option String) :
    EStateM Fault BlockClient Unit := do
  zoom BlockClient.socket
    (fun socket client => { client with socket := socket })
    (BlockSocket.openSocket ephemeral error)
  modify fun client => { client with
    messageQueue := client.messageQueue ++
      [Message.withMetadata order client.id MessageType.chello.code client.info] }

end BlockClient

/-- A run of `start`, which ends only by an exception. -/
structure ClientRun where
  client : BlockClient
  fault : Option Fault

namespace ClientRun

def ofResult : EStateM.Result Fault BlockClient Unit → ClientRun
  | .ok _ client => ⟨client, none⟩
  | .error fault client => ⟨client, some fault⟩

def start (order : ByteOrder) (ephemeral : UInt16) (openError : Option String)
    (client : BlockClient) : ClientRun :=
  ofResult (BlockClient.start order ephemeral openError client)

/-- One call of `select`, when its wait ends. -/
def step (order : ByteOrder) (run : ClientRun) (input : ClientInput) : ClientRun :=
  match run.fault with
  | none =>
      if BlockClient.endpoint.Wakes input.ready run.client then
        ofResult (BlockClient.select order input run.client)
      else run
  | some _ => run

def steps (order : ByteOrder) (run : ClientRun) (inputs : List ClientInput) :
    ClientRun :=
  inputs.foldl (step order) run

/-- The runs a client goes through once its `start` is called. -/
inductive Reachable (order : ByteOrder) (client : BlockClient) : ClientRun → Prop
  | start (ephemeral : UInt16) (openError : Option String) :
      Reachable order client (start order ephemeral openError client)
  | step {run : ClientRun} (hrun : Reachable order client run)
      (input : ClientInput) : Reachable order client (run.step order input)

end ClientRun

end Multisync
