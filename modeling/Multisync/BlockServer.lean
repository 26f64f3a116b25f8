import Multisync.MessageLoop
import Multisync.OrderedMap
import Mathlib.Tactic

/-!
# The server

The server announces its file, queues each block once while the queue is short,
and then serves requests until no host is registered and nothing is left to
send.  Both loops of `start` spend their time in `select`, so a run is a
sequence of calls of it: the phase says in which loop the server waits.

`dispatched` and `handled` are no part of the program: they note the messages
whose handlers were called, and those whose handlers have returned, oldest first.
-/

namespace Multisync

open ByteLayout Effects

structure BlockServer where
  socket : BlockSocket
  id : UInt32
  path : Bytes
  input : InStream
  hostInfo : OrderedMap HostInfo.Lt Unit
  messageQueue : List Message
  fileInfo : FileInfo
  dispatched : List Message
  handled : List Message

/-- What the environment supplies between two waits: the results of the system
calls, and whether the source can be read. -/
structure ServerInput where
  ready : Except String Ready
  arrival : Except String (Address × Bytes)
  sendError : Option String
  getblockError : Bool
  readError : Bool
  error : String

/-- The loop in which `start` waits, if it has not returned. -/
inductive ServerPhase where
  | serving (i : BlockInfo)
  | draining
  | returned
  deriving DecidableEq, Repr

namespace BlockServer

variable (order : ByteOrder)

/-- The constructor.  The source is opened twice: to be read, and by the
constructor of `FileInfo`. -/
def create (md5 : Bytes → Md5Digest) (opened : Option Bytes)
    (measured : Option FileSource) (path : Bytes) (group : UInt32) (port : UInt16)
    (id : UInt32) : BlockServer where
  socket := (BlockSocket.create group 0).setDestination ⟨group, port⟩
  id := id
  path := path
  input := InStream.openFile opened
  hostInfo := OrderedMap.empty
  messageQueue := []
  fileInfo := FileInfo.ofFile order md5 measured
  dispatched := []
  handled := []

def endpoint : Endpoint BlockServer where
  socket := socket
  putSocket socket server := { server with socket := socket }
  messageQueue := messageQueue
  putQueue queue server := { server with messageQueue := queue }

/-- The message that announces the file. -/
def infoMessage (server : BlockServer) : Message :=
  Message.withText order server.id MessageType.info.code server.fileInfo
    server.path

/-- Queueing a block and filling it from the source.  The position is a product
of unsigned 32-bit integers. -/
def enqueueBlock (readError : Bool) (error : String) (i : BlockInfo) :
    EStateM Fault BlockServer Unit :=
  zoom
    (fun server =>
      (Message.withReserve order server.id MessageType.block.code i
          (UInt32.ofNat blockSize),
        server.input.seekg
          (UInt32.ofNat blockSize * i.getBlock order).toNat))
    (fun (message, input) server => { server with
      messageQueue := server.messageQueue ++ [message]
      input := input })
    (Message.extract order readError error)

def insertHost (info : HostInfo) : EStateM Fault BlockServer Unit :=
  modify fun server =>
    { server with hostInfo := server.hostInfo.insert info () }

def handleChello (message : Message) : EStateM Fault BlockServer Unit := do
  let info ← ofResult (message.getMetadata order HostInfo)
  insertHost info

def handleGetinfo (message : Message) : EStateM Fault BlockServer Unit := do
  let info ← ofResult (message.getMetadata order HostInfo)
  insertHost info
  modify fun server => { server with
    messageQueue := server.messageQueue ++ [server.infoMessage order] }

/-- The same message is read as two types of metadata. -/
def handleGetblock (input : ServerInput) (message : Message) :
    EStateM Fault BlockServer Unit := do
  let info ← ofResult (message.getMetadata order HostInfo)
  insertHost info
  let i ← ofResult (message.getMetadata order BlockInfo)
  let server ← get
  if i.fileInfo.equal server.fileInfo then
    enqueueBlock order input.getblockError input.error i

def handleCgoodbye (message : Message) : EStateM Fault BlockServer Unit := do
  let info ← ofResult (message.getMetadata order HostInfo)
  modify fun server =>
    { server with hostInfo := server.hostInfo.erase info }

/-- The handler of the type, if the server has one. -/
def handle (input : ServerInput) (message : Message) :
    EStateM Fault BlockServer Unit :=
  if message.getType order = MessageType.chello.code then
    handleChello order message
  else if message.getType order = MessageType.getinfo.code then
    handleGetinfo order message
  else if message.getType order = MessageType.getblock.code then
    handleGetblock order input message
  else if message.getType order = MessageType.cgoodbye.code then
    handleCgoodbye order message
  else pure ()

def processMessage (input : ServerInput) : EStateM Fault BlockServer Unit := do
  let message ← endpoint.receiveMessage order input.arrival
  modify fun server =>
    { server with dispatched := server.dispatched ++ [message] }
  handle order input message
  modify fun server => { server with handled := server.handled ++ [message] }

def select (input : ServerInput) : EStateM Fault BlockServer Unit :=
  endpoint.select order input.ready (processMessage order input) input.sendError

/-- The head of the second loop. -/
def drainHead : EStateM Fault BlockServer ServerPhase := do
  let server ← get
  if !server.hostInfo.isEmpty ∨ 0 < server.messageQueue.length then
    return .draining
  else return .returned

/-- The head of the first loop, and its body up to the wait. -/
def serveHead (input : ServerInput) (i : BlockInfo) :
    EStateM Fault BlockServer ServerPhase := do
  let server ← get
  if i.getBlock order < server.fileInfo.getBlockCount order then
    if server.messageQueue.length < 5 then
      enqueueBlock order input.readError input.error i
    return .serving i
  else drainHead

/-- `start` up to its first wait. -/
def start (ephemeral : UInt16) (openError : Option String)
    (input : ServerInput) : EStateM Fault BlockServer ServerPhase := do
  zoom BlockServer.socket
    (fun socket server => { server with socket := socket })
    (BlockSocket.openSocket ephemeral openError)
  modify fun server => { server with
    messageQueue := server.messageQueue ++ [server.infoMessage order] }
  let server ← get
  serveHead order input (BlockInfo.ofBlock order server.fileInfo 0)

/-- From one wait to the next. -/
def resume (input : ServerInput) :
    ServerPhase → EStateM Fault BlockServer ServerPhase
  | .serving i => do
      select order input
      serveHead order input (i.succ order)
  | .draining => do
      select order input
      drainHead
  | .returned => pure .returned

end BlockServer

/-- A run of `start`: the server, and where it waits or what it has thrown. -/
structure ServerRun where
  server : BlockServer
  phase : Except Fault ServerPhase

namespace ServerRun

variable (order : ByteOrder)

def ofResult : EStateM.Result Fault BlockServer ServerPhase → ServerRun
  | .ok phase server => ⟨server, .ok phase⟩
  | .error fault server => ⟨server, .error fault⟩

/-- One call of `select` and the code up to the next. -/
def step (run : ServerRun) (input : ServerInput) : ServerRun :=
  match run.phase with
  | .ok phase =>
      if BlockServer.endpoint.Wakes input.ready run.server then
        ofResult (BlockServer.resume order input phase run.server)
      else run
  | .error _ => run

def start (ephemeral : UInt16) (openError : Option String)
    (input : ServerInput) (server : BlockServer) : ServerRun :=
  ofResult (BlockServer.start order ephemeral openError input server)

def steps (run : ServerRun) (inputs : List ServerInput) : ServerRun :=
  inputs.foldl (step order) run

/-- The runs a server goes through once its `start` is called. -/
inductive Reachable (server : BlockServer) : ServerRun → Prop
  | start (ephemeral : UInt16) (openError : Option String) (input : ServerInput) :
      Reachable server (start order ephemeral openError input server)
  | step {run : ServerRun} (hrun : Reachable server run) (input : ServerInput) :
      Reachable server (run.step order input)

end ServerRun

end Multisync
