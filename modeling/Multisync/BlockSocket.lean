import Multisync.Message
import Mathlib.Tactic

/-!
# The datagram socket

A socket joins a multicast group, is bound to a port, and sends to the address
`to`, called `destination` here.  The outcomes of the system calls are arguments; what was handed to the
network is kept in `sent`, oldest first.
-/

namespace Multisync

open ByteLayout Effects

/-- An IP address, as `inet_addr` gives it, and a port. -/
structure Address where
  ip : UInt32
  port : UInt16
  deriving DecidableEq, Repr

/-- `BlockSocket::Status`. -/
inductive Status where
  | read
  | write
  | both
  | none
  deriving DecidableEq, Repr

structure BlockSocket where
  group : Address
  sender : Address
  destination : Address
  bound : Option UInt16
  sent : List (Address × Bytes)
  deriving DecidableEq, Repr

/-- Which of its two conditions the socket meets. -/
structure Ready where
  readable : Bool
  writable : Bool
  deriving DecidableEq, Repr

/-- `::select` without a timeout returns once a polled condition is met. -/
def Ready.wakes (ready : Ready) (pollRead : Bool) : Bool :=
  ready.readable || (pollRead && ready.writable)

/-- The storage received into holds the datagram, cut off at its size, before
the zeros it was made with; the buffer is trimmed to the datagram. -/
def Message.received (reserve : ℕ) (datagram : Bytes) : Message where
  buffer := datagram.take (reserve + headerSize)
  capacity := reserve + headerSize
  length_le := List.length_take_le (reserve + headerSize) datagram
  header_le := Nat.le_add_left headerSize reserve

/-- The check both operators make: the two header fields add up, as 32-bit
integers, to the number of bytes. -/
def Message.Framed (order : ByteOrder) (message : Message) : Prop :=
  (message.header order).getPacketLength order =
    UInt32.ofNat message.buffer.length

instance (order : ByteOrder) (message : Message) :
    Decidable (message.Framed order) :=
  inferInstanceAs (Decidable (_ = _))

theorem Message.framed_iff (order : ByteOrder) (message : Message) :
    message.Framed order ↔
      ((message.getLength order).toNat + message.getOffset order) % 2 ^ 32 =
        message.buffer.length % 2 ^ 32 := by
  have hoffset : (order.ntohs (message.header order).offset).toUInt32.toNat =
      message.getOffset order := by
    simp [getOffset]
  rw [Framed, ← UInt32.toNat_inj, Header.getPacketLength, UInt32.toNat_add,
    UInt32.toNat_ofNat', hoffset, getLength]

namespace BlockSocket

/-- The constructor: the destination is the group until it is changed. -/
def create (group : UInt32) (port : UInt16) : BlockSocket where
  group := ⟨group, port⟩
  sender := ⟨0, 0⟩
  destination := ⟨group, port⟩
  bound := none
  sent := []

/-- `open`: joins the group and binds to the port of the constructor, or to an
ephemeral port when that is zero. -/
def openSocket (ephemeral : UInt16) (error : Option String) :
    EStateM Fault BlockSocket Unit := do
  match error with
  | some error => throw (.system error)
  | none =>
      modify fun socket => { socket with
        bound := some
          (if socket.group.port = 0 then ephemeral else socket.group.port) }

/-- `operator<<(Address)`: sets the destination. -/
def setDestination (socket : BlockSocket) (address : Address) : BlockSocket :=
  { socket with destination := address }

/-- `select`, after `::select` has returned.  On a positive return the sets that
were passed hold the ready descriptors; the set of writers still holds the
socket when it was not passed. -/
def select (ready : Ready) (pollRead : Bool) : Status :=
  let readfds := ready.readable
  let writefds := if pollRead then ready.writable else true
  let ret := readfds.toNat + (pollRead && ready.writable).toNat
  if 0 < ret then
    if readfds && writefds && pollRead then .both
    else if readfds then .read
    else if writefds then .write
    else .none
  else .none

theorem select_reads (ready : Ready) (pollRead : Bool) :
    select ready pollRead = .read ∨ select ready pollRead = .both ↔
      ready.readable = true := by
  rcases ready with ⟨readable, writable⟩
  cases readable <;> cases writable <;> cases pollRead <;> decide

theorem select_writes (ready : Ready) (pollRead : Bool) :
    select ready pollRead = .write ∨ select ready pollRead = .both ↔
      pollRead = true ∧ ready.writable = true := by
  rcases ready with ⟨readable, writable⟩
  cases readable <;> cases writable <;> cases pollRead <;> decide

variable (order : ByteOrder)

/-- `operator>>(Message&)` into a message made with the given reserve. -/
def receive (reserve : ℕ) (arrival : Except String (Address × Bytes)) :
    EStateM Fault BlockSocket Message := do
  match arrival with
  | .error error => throw (.system error)
  | .ok (sender, datagram) =>
      modify fun socket => { socket with sender := sender }
      let message := Message.received reserve datagram
      if message.buffer.length = 0 then throw .receivedZeroBytes
      else if ¬ message.Framed order then throw .invalidPacketLength
      else return message

/-- `operator<<(Message)`: the check of the length comes after the datagram has
been sent. -/
def send (message : Message) (error : Option String) :
    EStateM Fault BlockSocket Unit := do
  match error with
  | some error => throw (.system error)
  | none =>
      modify fun socket =>
        { socket with sent := socket.sent ++ [(socket.destination, message.buffer)] }
      if message.buffer.length = 0 then throw .sentZeroBytes
      else if ¬ message.Framed order then throw .invalidPacketLength

theorem receive_failed (reserve : ℕ) (error : String) (socket : BlockSocket) :
    receive order reserve (.error error) socket =
      .error (.system error) socket := rfl

/-- What a reception does: it notes the sender, and gives the message out when
it is not empty and its length is consistent. -/
theorem receive_datagram (reserve : ℕ) (sender : Address) (datagram : Bytes)
    (socket : BlockSocket) :
    receive order reserve (.ok (sender, datagram)) socket =
      if datagram = [] then
        .error .receivedZeroBytes { socket with sender := sender }
      else if (Message.received reserve datagram).Framed order then
        .ok (Message.received reserve datagram) { socket with sender := sender }
      else .error .invalidPacketLength { socket with sender := sender } := by
  have hempty : (Message.received reserve datagram).buffer.length = 0 ↔
      datagram = [] := by
    simp [Message.received, headerSize]
  simp only [receive, bind_apply, modify_apply, hempty]
  split_ifs <;> simp_all

theorem send_eq (message : Message) (socket : BlockSocket) :
    send order message none socket =
      if message.buffer.length = 0 then
        .error .sentZeroBytes
          { socket with sent := socket.sent ++ [(socket.destination, message.buffer)] }
      else if message.Framed order then
        .ok () { socket with
          sent := socket.sent ++ [(socket.destination, message.buffer)] }
      else
        .error .invalidPacketLength
          { socket with sent := socket.sent ++ [(socket.destination, message.buffer)] } := by
  simp only [send, bind_apply, modify_apply]
  split_ifs <;> simp_all

/-- Sending changes nothing but what was sent, and that only at the end. -/
theorem send_endState (message : Message) (error : Option String)
    (socket : BlockSocket) :
    ∃ sent, socket.sent <+: sent ∧
      endState (send order message error socket) = { socket with sent := sent } := by
  cases error with
  | some error => exact ⟨socket.sent, List.prefix_refl _, rfl⟩
  | none =>
      have hprefix := List.prefix_append socket.sent [(socket.destination, message.buffer)]
      rw [send_eq]
      split_ifs
      · exact ⟨_, hprefix, rfl⟩
      · exact ⟨_, hprefix, rfl⟩
      · exact ⟨_, hprefix, rfl⟩

/-- What a send that does not throw does. -/
theorem send_eq_ok {message : Message} {error : Option String} {socket socket' : BlockSocket}
    (hok : send order message error socket = .ok () socket') :
    socket' = { socket with
      sent := socket.sent ++ [(socket.destination, message.buffer)] } := by
  cases error with
  | some error => contradiction
  | none =>
      rw [send_eq] at hok
      split_ifs at hok
      cases hok
      rfl

/-- A message with a consistent length is sent, unless the system call fails. -/
theorem send_framed {message : Message} (hframed : message.Framed order)
    (hne : message.buffer ≠ []) (error : Option String) (socket : BlockSocket) :
    send order message error socket =
      match error with
      | some error => .error (.system error) socket
      | none => .ok () { socket with
          sent := socket.sent ++ [(socket.destination, message.buffer)] } := by
  cases error with
  | some error => rfl
  | none =>
      have hlength : message.buffer.length ≠ 0 := by simpa using hne
      rw [send_eq, if_neg hlength, if_pos hframed]

end BlockSocket

end Multisync
