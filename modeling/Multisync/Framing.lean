import Multisync.BlockSocket
import Mathlib.Tactic

/-!
# What the framing check guarantees

The receiving operator compares the sum of two header fields, a 32-bit integer,
with the number of bytes received.  A datagram that passes is safe to read when
its offset field points past the header and not past the end; the check does
not see that.  A sum that wraps, an offset inside the header, and a datagram
shorter than the header pass it too.
-/

namespace Multisync

open ByteLayout Effects

/-- The reserve of the message both ends receive into. -/
def receiveReserve : ℕ := 4096

/-- The accessors read inside the buffer, whatever type they are asked for. -/
structure Message.ReadsInside (order : ByteOrder) (message : Message) : Prop where
  header : (Extent.mk 0 headerSize).Inside message
  metadata : ∀ layout extent,
    message.metadataExtent order layout = .ok extent → extent.Inside message
  text : ∀ extent, message.textExtent order = .ok extent → extent.Inside message
  array : ∀ elementSize extent,
    message.arrayExtent order elementSize = .ok extent → extent.Inside message

/-- Every message the socket accepts from this datagram has consistent fields,
and its accessors read inside the buffer. -/
def FramingSound (order : ByteOrder) (datagram : Bytes) : Prop :=
  ∀ socket sender message socket',
    BlockSocket.receive order receiveReserve (.ok (sender, datagram)) socket =
        .ok message socket' →
      headerSize ≤ datagram.length ∧
      headerSize ≤ message.getOffset order ∧
      message.getOffset order ≤ message.buffer.length ∧
      (message.getLength order).toNat =
        message.buffer.length - message.getOffset order ∧
      message.ReadsInside order

theorem Message.received_buffer {datagram : Bytes}
    (hle : datagram.length ≤ receiveReserve + headerSize) :
    (Message.received receiveReserve datagram).buffer = datagram :=
  List.take_of_length_le hle

/-- What an accepted message is. -/
theorem BlockSocket.receive_eq_ok {order : ByteOrder} {reserve : ℕ}
    {arrival : Except String (Address × Bytes)} {socket socket' : BlockSocket}
    {message : Message}
    (hok : receive order reserve arrival socket = .ok message socket') :
    ∃ sender datagram, arrival = .ok (sender, datagram) ∧ datagram ≠ [] ∧
      message = Message.received reserve datagram ∧ message.Framed order ∧
      socket' = { socket with sender := sender } := by
  cases arrival with
  | error error => simp [receive_failed] at hok
  | ok arrival =>
      obtain ⟨sender, datagram⟩ := arrival
      rw [receive_datagram] at hok
      split_ifs at hok with hnil hframed
      cases hok
      exact ⟨sender, datagram, rfl, hnil, rfl, hframed, rfl⟩

/-- A reception that throws has changed the sender at most. -/
theorem BlockSocket.receive_eq_error {order : ByteOrder} {reserve : ℕ}
    {arrival : Except String (Address × Bytes)} {socket socket' : BlockSocket}
    {fault : Fault}
    (herror : receive order reserve arrival socket = .error fault socket') :
    ∃ sender, socket' = { socket with sender := sender } := by
  cases arrival with
  | error error =>
      rw [receive_failed] at herror
      cases herror
      exact ⟨socket.sender, rfl⟩
  | ok arrival =>
      obtain ⟨sender, datagram⟩ := arrival
      rw [receive_datagram] at herror
      split_ifs at herror
      · cases herror
        exact ⟨sender, rfl⟩
      · cases herror
        exact ⟨sender, rfl⟩

theorem BlockSocket.receive_framed {order : ByteOrder} {reserve : ℕ}
    {datagram : Bytes} (hnil : datagram ≠ [])
    (hframed : (Message.received reserve datagram).Framed order)
    (sender : Address) (socket : BlockSocket) :
    receive order reserve (.ok (sender, datagram)) socket =
      .ok (Message.received reserve datagram) { socket with sender := sender } := by
  rw [receive_datagram, if_neg hnil, if_pos hframed]

/-- A consistent length field: the rest of the buffer, as natural numbers. -/
theorem Message.Framed.getLength_eq_sub {order : ByteOrder} {message : Message}
    (hframed : message.Framed order)
    (hlength : message.buffer.length < 2 ^ 32)
    (hoffset : message.getOffset order ≤ message.buffer.length) :
    (message.getLength order).toNat =
      message.buffer.length - message.getOffset order := by
  have hlt : (message.getLength order).toNat < 4294967296 :=
    (message.getLength order).toNat_lt
  rw [Message.framed_iff] at hframed
  omega

/-- The accessors of a message whose fields are consistent stay inside it. -/
theorem Message.readsInside {order : ByteOrder} {message : Message}
    (hheader : headerSize ≤ message.buffer.length)
    (hoffset : message.getOffset order ≤ message.buffer.length)
    (hlength : (message.getLength order).toNat =
      message.buffer.length - message.getOffset order) :
    message.ReadsInside order where
  header := by
    simpa [Extent.Inside] using hheader
  metadata layout extent hextent := by
    have hbound := layout.metadata_le
    unfold Message.metadataExtent at hextent
    split_ifs at hextent with hne
    cases hextent
    simp only [ne_eq, not_not] at hne
    simp only [Extent.Inside]
    omega
  text extent hextent := by
    unfold Message.textExtent at hextent
    split_ifs at hextent
    cases hextent
    simp only [Extent.Inside]
    omega
  array elementSize extent hextent := by
    have hle := Nat.div_mul_le_self (message.getLength order).toNat elementSize
    unfold Message.arrayExtent at hextent
    split_ifs at hextent
    cases hextent
    simp only [Extent.Inside]
    omega

/-- The check is sound for exactly those datagrams whose offset field lies
between the header and the end, and for those it rejects. -/
theorem framingSound_iff (order : ByteOrder) {datagram : Bytes}
    (hpos : 1 ≤ datagram.length) (hle : datagram.length ≤ 4112) :
    FramingSound order datagram ↔
      (headerSize ≤ (Message.received receiveReserve datagram).getOffset order ∧
        (Message.received receiveReserve datagram).getOffset order ≤
          datagram.length) ∨
      (((Message.received receiveReserve datagram).getLength order).toNat +
          (Message.received receiveReserve datagram).getOffset order) % 2 ^ 32 ≠
        datagram.length := by
  have hbuffer : (Message.received receiveReserve datagram).buffer = datagram :=
    Message.received_buffer (by simpa [receiveReserve, headerSize] using hle)
  have hnil : datagram ≠ [] := by
    rintro rfl
    simp at hpos
  have hframed : (Message.received receiveReserve datagram).Framed order ↔
      (((Message.received receiveReserve datagram).getLength order).toNat +
          (Message.received receiveReserve datagram).getOffset order) % 2 ^ 32 =
        datagram.length := by
    rw [Message.framed_iff, hbuffer, Nat.mod_eq_of_lt (by omega : datagram.length < 2 ^ 32)]
  constructor
  · intro hsound
    by_cases haccepted : (Message.received receiveReserve datagram).Framed order
    · left
      have hreceive := BlockSocket.receive_framed hnil haccepted ⟨0, 0⟩
        (BlockSocket.create 0 0)
      obtain ⟨_, hheader, hend, _⟩ := hsound _ _ _ _ hreceive
      rw [hbuffer] at hend
      exact ⟨hheader, hend⟩
    · exact Or.inr (hframed.not.mp haccepted)
  · rintro hcondition socket sender message socket' hreceive
    obtain ⟨from', datagram', harrival, _, rfl, haccepted, _⟩ :=
      BlockSocket.receive_eq_ok hreceive
    cases harrival
    rcases hcondition with ⟨hheader, hend⟩ | hrejected
    · have hlength := haccepted.getLength_eq_sub (by rw [hbuffer]; omega)
        (by rw [hbuffer]; exact hend)
      refine ⟨by omega, hheader, by rw [hbuffer]; exact hend, hlength, ?_⟩
      exact Message.readsInside (by rw [hbuffer]; omega)
        (by rw [hbuffer]; exact hend) hlength
    · exact absurd (hframed.mp haccepted) hrejected

/-- A client's hello, laid out by hand. -/
def helloDatagram : Bytes :=
  [0, 0, 0, 6, 0, 0, 0, 0, 0, 0, 0, 1, 0, 20, 0, 0, 0, 0, 0, 7]

theorem framingSound_hello : FramingSound .little helloDatagram :=
  (framingSound_iff .little (by decide) (by decide)).mpr (Or.inl (by decide))

/-- Eight bytes pass the check as a message of length eight at offset zero. -/
theorem framing_accepts_short_datagram :
    ¬ ∀ (order : ByteOrder) (datagram : Bytes),
      1 ≤ datagram.length → datagram.length ≤ 4112 →
        FramingSound order datagram := by
  intro hall
  have hsound := hall .little [0, 0, 0, 0, 0, 0, 0, 8] (by decide) (by decide)
  have hframed : (Message.received receiveReserve
      [0, 0, 0, 0, 0, 0, 0, 8]).Framed .little := by decide
  have hreceive := BlockSocket.receive_framed (by decide) hframed ⟨0, 0⟩
    (BlockSocket.create 0 0)
  have hheader := (hsound _ _ _ _ hreceive).1
  exact absurd hheader (by decide)

end Multisync
