import Multisync.Effects
import Multisync.Metadata
import Mathlib.Tactic

/-!
# Messages

A message is one byte buffer: a header, the metadata its offset field announces,
and the payload.  The constructors lay the bytes out, the accessors cast the
start of the buffer to the header and the metadata.

The storage of a buffer that was shrunk stays allocated, and its bytes past the
end are the zeros it was made with.  A read past the end but inside the storage
therefore finds zeros; a read outside the storage is undefined.
-/

namespace Multisync

open ByteLayout Effects

/-- What ends a function other than a return: a thrown string, or the loss of
defined behaviour. -/
inductive Fault where
  | headerSizeMismatch (expected received : ℕ)
  | invalidBufferLength
  | invalidPacketLength
  | receivedZeroBytes
  | sentZeroBytes
  | writeFailed (error : String)
  | readFailed (error : String)
  | system (error : String)
  | undefined
  deriving DecidableEq, Repr

/-- The string that is thrown. -/
def Fault.text : Fault → Option String
  | .headerSizeMismatch expected received =>
      some ("Message header size mismatch: expected " ++ toString expected ++
        " but received " ++ toString received)
  | .invalidBufferLength => some "Invalid buffer length for this type"
  | .invalidPacketLength => some "Invalid packet length"
  | .receivedZeroBytes => some "Received zero bytes on UDP socket"
  | .sentZeroBytes => some "Sent zero bytes on UDP socket"
  | .writeFailed error => some ("Could not write data block to file: " ++ error)
  | .readFailed error => some ("Could not read data block from file: " ++ error)
  | .system error => some error
  | .undefined => none

/-- `MessageType`, numbered as in the source. -/
inductive MessageType where
  | info
  | block
  | getblock
  | getinfo
  | cgoodbye
  | sgoodbye
  | chello
  deriving DecidableEq, Repr

def MessageType.code : MessageType → UInt32
  | .info => 0
  | .block => 1
  | .getblock => 2
  | .getinfo => 3
  | .cgoodbye => 4
  | .sgoodbye => 5
  | .chello => 6

@[simp] theorem MessageType.code_inj (a b : MessageType) : a.code = b.code ↔ a = b := by
  cases a <;> cases b <;> decide

/-- The fields of `Header`, as the host's memory holds them. -/
structure Header where
  type : UInt32
  length : UInt32
  sender : UInt32
  offset : UInt16
  deriving DecidableEq, Repr

namespace Header

def store (order : ByteOrder) (header : Header) : Bytes :=
  order.store32 header.type ++ (order.store32 header.length ++
    (order.store32 header.sender ++
      (order.store16 header.offset ++ List.replicate 2 0)))

def load (order : ByteOrder) (bytes : Bytes) : Header where
  type := order.load32 (window bytes 0 4)
  length := order.load32 (window bytes 4 4)
  sender := order.load32 (window bytes 8 4)
  offset := order.load16 (window bytes 12 2)

/-- `GetPacketLength`, a sum of unsigned 32-bit integers. -/
def getPacketLength (order : ByteOrder) (header : Header) : UInt32 :=
  order.ntohl header.length + (order.ntohs header.offset).toUInt32

@[simp] theorem length_store (order : ByteOrder) (header : Header) :
    (header.store order).length = headerSize := by
  simp [store, headerSize]

theorem load_store (order : ByteOrder) (header : Header) (rest : Bytes) :
    load order (header.store order ++ rest) = header := by
  have htype := window_append [] (order.store32 header.type)
    (order.store32 header.length ++ (order.store32 header.sender ++
      (order.store16 header.offset ++ (List.replicate 2 0 ++ rest))))
  have hlength := window_append (order.store32 header.type)
    (order.store32 header.length) (order.store32 header.sender ++
      (order.store16 header.offset ++ (List.replicate 2 0 ++ rest)))
  have hsender := window_append
    (order.store32 header.type ++ order.store32 header.length)
    (order.store32 header.sender)
    (order.store16 header.offset ++ (List.replicate 2 0 ++ rest))
  have hoffset := window_append
    (order.store32 header.type ++ (order.store32 header.length ++
      order.store32 header.sender))
    (order.store16 header.offset) (List.replicate 2 0 ++ rest)
  simp only [List.length_append, ByteOrder.length_store32,
    ByteOrder.length_store16, List.length_nil, List.nil_append,
    List.append_assoc, Nat.reduceAdd] at htype hlength hsender hoffset
  simp only [load, store, List.append_assoc]
  rw [htype, hlength, hsender, hoffset]
  simp only [ByteOrder.load32_store32, ByteOrder.load16_store16]

end Header

/-- A message: the bytes of the buffer, and the size of its storage. -/
structure Message where
  buffer : Bytes
  capacity : ℕ
  length_le : buffer.length ≤ capacity
  header_le : headerSize ≤ capacity
  deriving DecidableEq, Repr

/-- A run of bytes in the buffer, from its start on. -/
structure Extent where
  start : ℕ
  length : ℕ
  deriving DecidableEq, Repr

/-- The extent lies inside the buffer. -/
def Extent.Inside (extent : Extent) (message : Message) : Prop :=
  extent.start + extent.length ≤ message.buffer.length

instance (extent : Extent) (message : Message) :
    Decidable (extent.Inside message) :=
  inferInstanceAs (Decidable (_ ≤ _))

namespace Message

variable (order : ByteOrder)

/-! ## Constructors -/

/-- `Message(reserve)`: a buffer to receive into. -/
def input (reserve : ℕ) : Message where
  buffer := List.replicate (reserve + headerSize) 0
  capacity := reserve + headerSize
  length_le := by simp
  header_le := by omega

/-- The bytes the other constructors lay out: the header with its words
converted, the metadata and the payload.  `length` and `offset` are the words
that are stored. -/
def output (sender type : UInt32) (length : UInt32) (offset : UInt16)
    (metadata payload : Bytes) : Message where
  buffer := Header.store order
      ⟨order.htonl type, length, order.htonl sender, offset⟩ ++
    (metadata ++ payload)
  capacity := headerSize + (metadata ++ payload).length
  length_le := by simp
  header_le := by omega

/-- The metadata of a `MetadataHeader`, with the padding around it. -/
def metadataImage {M : Type} [Metadata M] (metadata : M) : Bytes :=
  List.replicate ((Metadata.layout M).metadataOffset - headerSize) 0 ++
    (Metadata.store order metadata ++
      List.replicate ((Metadata.layout M).metadataHeaderSize -
        ((Metadata.layout M).metadataOffset + (Metadata.layout M).size)) 0)

/-- `Message(sender, type)`. -/
def bare (sender type : UInt32) : Message :=
  output order sender type 0 (order.ntohs (UInt16.ofNat headerSize)) [] []

/-- `Message(sender, type, reserve)`. -/
def bareReserve (sender type reserve : UInt32) : Message :=
  output order sender type 0 (order.ntohs (UInt16.ofNat headerSize)) []
    (List.replicate reserve.toNat 0)

/-- `Message(sender, type, text)`. -/
def bareText (sender type : UInt32) (text : Bytes) : Message :=
  output order sender type (order.htonl (UInt32.ofNat text.length))
    (order.ntohs (UInt16.ofNat headerSize)) [] text

section WithMetadata

variable {M : Type} [Metadata M]

/-- `Message(sender, type, metadata)`. -/
def withMetadata (sender type : UInt32) (metadata : M) : Message :=
  output order sender type 0
    (order.htons (UInt16.ofNat (Metadata.layout M).metadataHeaderSize))
    (metadataImage order metadata) []

/-- `Message(sender, type, metadata, reserve)`. -/
def withReserve (sender type : UInt32) (metadata : M) (reserve : UInt32) :
    Message :=
  output order sender type 0
    (order.htons (UInt16.ofNat (Metadata.layout M).metadataHeaderSize))
    (metadataImage order metadata) (List.replicate reserve.toNat 0)

/-- `Message(sender, type, metadata, text)`. -/
def withText (sender type : UInt32) (metadata : M) (text : Bytes) : Message :=
  output order sender type (order.htonl (UInt32.ofNat text.length))
    (order.htons (UInt16.ofNat (Metadata.layout M).metadataHeaderSize))
    (metadataImage order metadata) text

end WithMetadata

/-! ## Accessors -/

/-- The header at the start of the storage. -/
def header (message : Message) : Header :=
  Header.load order (window message.buffer 0 headerSize)

def getType (message : Message) : UInt32 :=
  order.ntohl (message.header order).type

def getLength (message : Message) : UInt32 :=
  order.ntohl (message.header order).length

/-- The offset field, where the payload starts. -/
def getOffset (message : Message) : ℕ :=
  (order.ntohs (message.header order).offset).toNat

/-- Reading the bytes of an extent. -/
def fetch (message : Message) (extent : Extent) : Except Fault Bytes :=
  if extent.start + extent.length ≤ message.capacity then
    .ok (window message.buffer extent.start extent.length)
  else .error .undefined

/-- Where `get_metadata` finds metadata of the given layout. -/
def metadataExtent (message : Message) (layout : Layout) : Except Fault Extent :=
  if message.getOffset order ≠ layout.metadataHeaderSize then
    .error (.headerSizeMismatch layout.metadataHeaderSize (message.getOffset order))
  else .ok ⟨layout.metadataOffset, layout.size⟩

/-- `get_metadata<M>`. -/
def getMetadata (M : Type) [Metadata M] (message : Message) : Except Fault M := do
  let extent ← message.metadataExtent order (Metadata.layout M)
  let bytes ← message.fetch extent
  return Metadata.load order bytes

/-- The data portion, from the offset to the end of the buffer.  An offset past
the end makes a negative range. -/
def textExtent (message : Message) : Except Fault Extent :=
  if message.getOffset order ≤ message.buffer.length then
    .ok ⟨message.getOffset order,
      message.buffer.length - message.getOffset order⟩
  else .error .undefined

/-- `get_text`. -/
def getText (message : Message) : Except Fault Bytes := do
  let extent ← message.textExtent order
  message.fetch extent

/-- Where `get_array<T>` finds its elements, for elements of the given size. -/
def arrayExtent (message : Message) (elementSize : ℕ) : Except Fault Extent :=
  if (message.getLength order).toNat % elementSize ≠ 0 then
    .error .invalidBufferLength
  else .ok ⟨message.getOffset order,
    (message.getLength order).toNat / elementSize * elementSize⟩

/-- `array.data[i]` for an array of unsigned integers. -/
def arrayElement (message : Message) (array : Extent) (i : ℕ) :
    Except Fault UInt32 := do
  let bytes ← message.fetch ⟨array.start + 4 * i, 4⟩
  return order.load32 bytes

/-! ## Stream operators -/

/-- `operator<<(std::ostream&, const Message&)`: the data portion is written. -/
def insert (message : Message) (limit : Option ℕ) (error : String) :
    EStateM Fault (OutStream × FileStore Bytes) Unit := do
  let payload ← ofResult (message.getText order)
  modify fun (stream, store) => stream.write payload limit store
  if (← get).1.failed then
    throw (.writeFailed error)

/-- The buffer after a read of `data` into the data portion of a message whose
length field was zero, shrunk to what was read. -/
def filled (message : Message) (data : Bytes) : Message where
  buffer := (overlay (overlay message.buffer (message.getOffset order) data) 4
    (order.store32 (order.htonl (UInt32.ofNat data.length)))).take
      (min (message.getOffset order + data.length) message.capacity)
  capacity := message.capacity
  length_le := by
    rw [List.length_take]
    omega
  header_le := message.header_le

/-- `operator>>(std::istream&, Message&)`: fills the data portion unless the
length field says that there is data already. -/
def extract (deviceError : Bool) (error : String) :
    EStateM Fault (Message × InStream) Unit := do
  let (message, stream) ← get
  if (message.header order).length = 0 then
    let extent ← ofResult (message.textExtent order)
    let (data, stream) := stream.read extent.length deviceError
    set (message.filled order data, stream)
    if stream.bad then
      throw (.readFailed error)

theorem insert_apply (message : Message) (limit : Option ℕ) (error : String)
    (stream : OutStream) (store : FileStore Bytes) :
    message.insert order limit error (stream, store) =
      match message.getText order with
      | .error fault => .error fault (stream, store)
      | .ok payload =>
          if (stream.write payload limit store).1.failed = true then
            .error (.writeFailed error) (stream.write payload limit store)
          else .ok () (stream.write payload limit store) := by
  simp only [insert, bind_apply]
  cases message.getText order with
  | error fault => rfl
  | ok payload =>
      simp only [ofResult_ok, modify_apply, get_apply]
      split_ifs with hfailed
      · rfl
      · rfl

/-! ## Reading back what was laid out -/

/-- The header fields depend on the bytes alone, not on the host. -/
theorem getType_eq (message : Message) :
    message.getType order = UInt32.ofNat (ofBytes (window message.buffer 0 4)) := by
  rw [getType, header, Header.load, order.ntohl_load32 (length_window _ _ _),
    window_window _ (by decide : 0 + 4 ≤ headerSize)]

theorem getLength_eq (message : Message) :
    message.getLength order = UInt32.ofNat (ofBytes (window message.buffer 4 4)) := by
  rw [getLength, header, Header.load, order.ntohl_load32 (length_window _ _ _),
    window_window _ (by decide : 4 + 4 ≤ headerSize)]

theorem getOffset_eq (message : Message) :
    message.getOffset order =
      (UInt16.ofNat (ofBytes (window message.buffer 12 2))).toNat := by
  rw [getOffset, header, Header.load, order.ntohs_load16 (length_window _ _ _),
    window_window _ (by decide : 12 + 2 ≤ headerSize)]

section Layout

variable (sender type length : UInt32) (offset : UInt16)
  (metadata payload : Bytes)

@[simp] theorem output_buffer :
    (output order sender type length offset metadata payload).buffer =
      Header.store order
          ⟨order.htonl type, length, order.htonl sender, offset⟩ ++
        (metadata ++ payload) := rfl

/-- The header of a message is the one its constructor stored. -/
@[simp] theorem output_header :
    (output order sender type length offset metadata payload).header order =
      ⟨order.htonl type, length, order.htonl sender, offset⟩ := by
  have hwindow := window_append []
    (Header.store order ⟨order.htonl type, length, order.htonl sender, offset⟩)
    (metadata ++ payload)
  have hload := Header.load_store order
    ⟨order.htonl type, length, order.htonl sender, offset⟩ []
  simp only [List.nil_append, List.length_nil, Header.length_store,
    List.append_nil] at hwindow hload
  rw [header, output_buffer, hwindow, hload]

@[simp] theorem output_getType :
    (output order sender type length offset metadata payload).getType order =
      type := by
  simp [getType]

@[simp] theorem output_getLength :
    (output order sender type length offset metadata payload).getLength order =
      order.ntohl length := by
  simp [getLength]

@[simp] theorem output_getOffset :
    (output order sender type length offset metadata payload).getOffset order =
      (order.ntohs offset).toNat := by
  simp [getOffset]

end Layout

@[simp] theorem length_metadataImage {M : Type} [Metadata M] (metadata : M) :
    (metadataImage order metadata).length =
      (Metadata.layout M).metadataHeaderSize - headerSize := by
  have hmetadata := (Metadata.layout M).metadata_le
  have hheader := (Metadata.layout M).headerSize_le_metadataOffset
  simp only [metadataImage, List.length_append, List.length_replicate,
    Metadata.length_store]
  omega

/-- Messages with the same bytes have the same header fields on every host. -/
theorem getType_congr (other : ByteOrder) {message message' : Message}
    (hbuffer : message.buffer = message'.buffer) :
    message.getType order = message'.getType other := by
  rw [getType_eq, getType_eq, hbuffer]

theorem getLength_congr (other : ByteOrder) {message message' : Message}
    (hbuffer : message.buffer = message'.buffer) :
    message.getLength order = message'.getLength other := by
  rw [getLength_eq, getLength_eq, hbuffer]

theorem getOffset_congr (other : ByteOrder) {message message' : Message}
    (hbuffer : message.buffer = message'.buffer) :
    message.getOffset order = message'.getOffset other := by
  rw [getOffset_eq, getOffset_eq, hbuffer]

theorem fetch_of_le {message : Message} {start length : ℕ}
    (hle : start + length ≤ message.buffer.length) :
    message.fetch ⟨start, length⟩ = .ok ((message.buffer.drop start).take length) := by
  have hcapacity := message.length_le
  rw [fetch, if_pos (by simp only; omega), window_eq_of_le hle]

/-- The data portion is what follows the offset. -/
theorem getText_eq {message : Message}
    (hle : message.getOffset order ≤ message.buffer.length) :
    message.getText order =
      .ok (message.buffer.drop (message.getOffset order)) := by
  have hfetch : message.fetch ⟨message.getOffset order,
      message.buffer.length - message.getOffset order⟩ =
      .ok ((message.buffer.drop (message.getOffset order)).take
        (message.buffer.length - message.getOffset order)) :=
    fetch_of_le (by omega)
  rw [List.take_of_length_le (by simp)] at hfetch
  rw [getText, textExtent, if_pos hle]
  exact hfetch

theorem getText_eq_ok {message : Message} {text : Bytes}
    (hok : message.getText order = .ok text) :
    message.getOffset order ≤ message.buffer.length := by
  by_contra hlt
  rw [getText, textExtent, if_neg hlt] at hok
  contradiction

/-- A message whose bytes a host laid out with some metadata gives its memory
image back to every receiver that asks for that type. -/
theorem getMetadata_eq (sender : ByteOrder) {M : Type} [Metadata M]
    {message : Message} {header : Header} {metadata : M} {payload : Bytes}
    (hbuffer : message.buffer = Header.store sender header ++
      (metadataImage sender metadata ++ payload))
    (hoffset : message.getOffset order = (Metadata.layout M).metadataHeaderSize) :
    message.getMetadata order M =
      .ok (Metadata.load order (Metadata.store sender metadata)) := by
  have hbound := (Metadata.layout M).metadata_le
  have hheader := (Metadata.layout M).headerSize_le_metadataOffset
  have hlength : message.buffer.length =
      (Metadata.layout M).metadataHeaderSize + payload.length := by
    rw [hbuffer]
    simp only [List.length_append, Header.length_store, length_metadataImage]
    omega
  have hbytes := window_append
    (Header.store sender header ++
      List.replicate ((Metadata.layout M).metadataOffset - headerSize) 0)
    (Metadata.store sender metadata)
    (List.replicate ((Metadata.layout M).metadataHeaderSize -
      ((Metadata.layout M).metadataOffset + (Metadata.layout M).size)) 0 ++ payload)
  simp only [List.length_append, Header.length_store, List.length_replicate,
    Metadata.length_store, List.append_assoc] at hbytes
  rw [Nat.add_sub_cancel' hheader] at hbytes
  have hcapacity := message.length_le
  rw [getMetadata, metadataExtent, if_neg (not_not.mpr hoffset)]
  simp only [bind, Except.bind, fetch, pure, Except.pure]
  rw [if_pos (by omega), hbuffer, metadataImage]
  simp only [List.append_assoc]
  rw [hbytes]

/-- Metadata is only given out under its own offset. -/
theorem getOffset_of_getMetadata {M : Type} [Metadata M] {message : Message}
    {metadata : M} (hok : message.getMetadata order M = .ok metadata) :
    message.getOffset order = (Metadata.layout M).metadataHeaderSize := by
  by_contra hne
  rw [getMetadata, metadataExtent, if_pos hne] at hok
  contradiction

/-- A message asked for metadata of another size throws. -/
theorem getMetadata_mismatch {M : Type} [Metadata M] {message : Message}
    (hoffset : message.getOffset order ≠
      (Metadata.layout M).metadataHeaderSize) :
    message.getMetadata order M =
      .error (.headerSizeMismatch (Metadata.layout M).metadataHeaderSize
        (message.getOffset order)) := by
  rw [getMetadata, metadataExtent, if_pos hoffset]
  rfl

end Message

end Multisync
