import Multisync.Framing
import Mathlib.Tactic

/-!
# The wire format, there and back

A message is laid out by one of six constructors, two of which leave the payload
to be filled from a stream.  All of them produce the same form: a header in
network order, the memory image of the metadata, and the payload, with a length
field that counts the payload and an offset field that counts what precedes it.
A receiver of either byte order reads the parts back from that form.
-/

namespace Multisync

open ByteLayout Effects

/-- The metadata a message is made with. -/
inductive AnyMetadata where
  | none
  | host (info : HostInfo)
  | file (info : FileInfo)
  | block (info : BlockInfo)
  deriving DecidableEq, Repr

/-- Where the payload of a message comes from. -/
inductive PayloadSource where
  | none
  | text (text : Bytes)
  | stream (reserve : UInt32) (input : InStream)
  deriving DecidableEq, Repr

namespace PayloadSource

def bytes : PayloadSource → Bytes
  | .none => []
  | .text bytes => bytes
  | .stream reserve input =>
      ((input.source.getD []).drop input.position).take reserve.toNat

end PayloadSource

namespace AnyMetadata

variable (order : ByteOrder)

/-- The constructor for this metadata and payload, before a stream is read. -/
def construct (sender type : UInt32) : AnyMetadata → PayloadSource → Message
  | .none, .none => Message.bare order sender type
  | .none, .text text => Message.bareText order sender type text
  | .none, .stream reserve _ => Message.bareReserve order sender type reserve
  | .host info, .none => Message.withMetadata order sender type info
  | .host info, .text text => Message.withText order sender type info text
  | .host info, .stream reserve _ =>
      Message.withReserve order sender type info reserve
  | .file info, .none => Message.withMetadata order sender type info
  | .file info, .text text => Message.withText order sender type info text
  | .file info, .stream reserve _ =>
      Message.withReserve order sender type info reserve
  | .block info, .none => Message.withMetadata order sender type info
  | .block info, .text text => Message.withText order sender type info text
  | .block info, .stream reserve _ =>
      Message.withReserve order sender type info reserve

/-- The message is what the sender ends up with; a stream is good when it is
read. -/
def Builds (sender type : UInt32) (metadata : AnyMetadata)
    (payload : PayloadSource) (message : Message) : Prop :=
  match payload with
  | .stream _ input =>
      input.good = true ∧ ∃ error input',
        Message.extract order false error
          (metadata.construct order sender type payload, input) =
            .ok () (message, input')
  | _ => message = metadata.construct order sender type payload

/-- The metadata a receiver reads is the metadata that was sent. -/
def Arrives (sender receiver : ByteOrder) (message : Message) :
    AnyMetadata → Prop
  | .none => True
  | .host info => ∃ info', message.getMetadata receiver HostInfo = .ok info' ∧
      info'.getId receiver = info.getId sender
  | .file info => ∃ info', message.getMetadata receiver FileInfo = .ok info' ∧
      info'.digest = info.digest ∧
      info'.getBlockCount receiver = info.getBlockCount sender
  | .block info => ∃ info', message.getMetadata receiver BlockInfo = .ok info' ∧
      info'.fileInfo.digest = info.fileInfo.digest ∧
      info'.fileInfo.getBlockCount receiver =
        info.fileInfo.getBlockCount sender ∧
      info'.getBlock receiver = info.getBlock sender

/-- The memory image of the metadata behind the header. -/
def image : AnyMetadata → Bytes
  | .none => []
  | .host info => Message.metadataImage order info
  | .file info => Message.metadataImage order info
  | .block info => Message.metadataImage order info

end AnyMetadata

/-- The common form of all messages on the wire. -/
def WireForm (order : ByteOrder) (sender type : UInt32)
    (metadata payload : Bytes) (message : Message) : Prop :=
  ∃ offset : UInt16,
    (order.ntohs offset).toNat = headerSize + metadata.length ∧
    message.buffer = (Message.output order sender type
      (order.htonl (UInt32.ofNat payload.length)) offset metadata
      payload).buffer

theorem WireForm.output {order : ByteOrder} {sender type : UInt32}
    {metadata payload : Bytes} {offset : UInt16}
    (hoffset : (order.ntohs offset).toNat = headerSize + metadata.length) :
    WireForm order sender type metadata payload
      (Message.output order sender type
        (order.htonl (UInt32.ofNat payload.length)) offset metadata payload) :=
  ⟨offset, hoffset, rfl⟩

/-- Without a payload the stored length is zero in either byte order. -/
theorem WireForm.output_nil {order : ByteOrder} {sender type : UInt32}
    {metadata : Bytes} {offset : UInt16}
    (hoffset : (order.ntohs offset).toNat = headerSize + metadata.length) :
    WireForm order sender type metadata []
      (Message.output order sender type 0 offset metadata []) := by
  have hlength : order.htonl (UInt32.ofNat ([] : Bytes).length) = 0 :=
    order.htonl_zero
  refine ⟨offset, hoffset, ?_⟩
  rw [hlength]

/-- Filling the reserve gives the buffer the text constructor would have made
of the bytes read. -/
theorem Message.filled_output {order : ByteOrder} {sender type : UInt32}
    {metadata data : Bytes} {offset : UInt16} {reserve : ℕ}
    (hoffset : (order.ntohs offset).toNat = headerSize + metadata.length)
    (hdata : data.length ≤ reserve) :
    ((output order sender type 0 offset metadata
        (List.replicate reserve 0)).filled order data).buffer =
      (output order sender type (order.htonl (UInt32.ofNat data.length)) offset
        metadata data).buffer := by
  have hpayload := overlay_append
    (Header.store order ⟨order.htonl type, 0, order.htonl sender, offset⟩ ++
      metadata)
    (List.replicate data.length 0) (List.replicate (reserve - data.length) 0)
    data (by simp)
  have hlength := overlay_append (order.store32 (order.htonl type))
    (order.store32 0)
    (order.store32 (order.htonl sender) ++ (order.store16 offset ++
      (List.replicate 2 0 ++ (metadata ++ (data ++
        List.replicate (reserve - data.length) 0)))))
    (order.store32 (order.htonl (UInt32.ofNat data.length))) (by simp)
  rw [← List.replicate_add, Nat.add_sub_cancel' hdata, List.length_append,
    Header.length_store, List.append_assoc] at hpayload
  rw [ByteOrder.length_store32] at hlength
  have hcapacity : min (headerSize + metadata.length + data.length)
      (headerSize + (metadata ++ List.replicate reserve 0).length) =
      headerSize + metadata.length + data.length := by
    rw [List.length_append, List.length_replicate]
    omega
  unfold filled
  simp only [output_getOffset, output_buffer, hoffset]
  rw [hpayload]
  simp only [Header.store, List.append_assoc] at hlength ⊢
  rw [hlength]
  simp only [output, hcapacity]
  rw [← List.append_assoc, ← List.append_assoc, ← List.append_assoc,
    ← List.append_assoc, ← List.append_assoc, ← List.append_assoc]
  rw [List.take_left' (by simp [headerSize]; omega)]
  simp only [List.append_assoc]

/-- Extraction into a reserved message reads once and shrinks the buffer to what
was read, even when the device fails. -/
theorem Message.extract_reserve {order : ByteOrder} {sender type : UInt32}
    {metadata : Bytes} {offset : UInt16} {reserve : ℕ}
    (hoffset : (order.ntohs offset).toNat = headerSize + metadata.length)
    (input : InStream) (deviceError : Bool) (error : String) :
    Message.extract order deviceError error
        (Message.output order sender type 0 offset metadata
          (List.replicate reserve 0), input) =
      if (input.read reserve deviceError).2.bad = true then
        .error (.readFailed error)
          ((Message.output order sender type 0 offset metadata
            (List.replicate reserve 0)).filled order
              (input.read reserve deviceError).1,
            (input.read reserve deviceError).2)
      else
        .ok () ((Message.output order sender type 0 offset metadata
          (List.replicate reserve 0)).filled order
            (input.read reserve deviceError).1,
          (input.read reserve deviceError).2) := by
  have htext : (Message.output order sender type 0 offset metadata
      (List.replicate reserve 0)).textExtent order =
      .ok ⟨headerSize + metadata.length, reserve⟩ := by
    simp [Message.textExtent, hoffset, ← Nat.add_assoc]
  simp only [Message.extract, bind_apply, get_apply, Message.output_header,
    if_true, htext, ofResult_ok, set_apply]
  by_cases hbad : (input.read reserve deviceError).2.bad = true
  · rw [if_pos hbad, if_pos hbad]
    rfl
  · rw [if_neg hbad, if_neg hbad]
    rfl

theorem WireForm.filled {order : ByteOrder} {sender type : UInt32}
    {metadata data : Bytes} {offset : UInt16} {reserve : ℕ}
    (hoffset : (order.ntohs offset).toNat = headerSize + metadata.length)
    (hdata : data.length ≤ reserve) :
    WireForm order sender type metadata data
      ((Message.output order sender type 0 offset metadata
        (List.replicate reserve 0)).filled order data) :=
  ⟨offset, hoffset, Message.filled_output hoffset hdata⟩

/-- Filling a reserved message from a good stream. -/
theorem WireForm.extract {order : ByteOrder} {sender type : UInt32}
    {metadata : Bytes} {offset : UInt16} {reserve : ℕ} {input input' : InStream}
    {message : Message} {error : String}
    (hoffset : (order.ntohs offset).toNat = headerSize + metadata.length)
    (hgood : input.good = true)
    (hextract : Message.extract order false error
      (Message.output order sender type 0 offset metadata
        (List.replicate reserve 0), input) = .ok () (message, input')) :
    WireForm order sender type metadata
      (((input.source.getD []).drop input.position).take reserve) message := by
  have hbad : (input.read reserve false).2.bad = false := by
    apply InStream.read_not_bad
    simp only [InStream.good, Bool.not_eq_true', Bool.or_eq_false_iff] at hgood
    exact hgood.2
  rw [Message.extract_reserve hoffset, hbad, if_neg Bool.false_ne_true] at hextract
  cases hextract
  rw [← InStream.read_good hgood]
  exact WireForm.filled hoffset (InStream.length_read_le input reserve false)

/-- The offset field of a message with metadata counts header and metadata. -/
theorem Message.storedOffset_eq (order : ByteOrder) {M : Type} [Metadata M]
    (metadata : M)
    (hsmall : (UInt16.ofNat (Metadata.layout M).metadataHeaderSize).toNat =
      headerSize + ((Metadata.layout M).metadataHeaderSize - headerSize)) :
    (order.ntohs (order.htons
        (UInt16.ofNat (Metadata.layout M).metadataHeaderSize))).toNat =
      headerSize + (Message.metadataImage order metadata).length := by
  rw [order.ntohs_htons, Message.length_metadataImage, hsmall]

theorem AnyMetadata.Builds.wireForm {order : ByteOrder} {sender type : UInt32}
    {metadata : AnyMetadata} {payload : PayloadSource} {message : Message}
    (hbuilds : metadata.Builds order sender type payload message) :
    WireForm order sender type (metadata.image order) payload.bytes message := by
  have hbare : (order.ntohs (order.ntohs (UInt16.ofNat headerSize))).toNat =
      headerSize + ([] : Bytes).length := by
    rw [order.ntohs_eq_htons (UInt16.ofNat headerSize), order.ntohs_htons]
    rfl
  have hhost (info : HostInfo) := Message.storedOffset_eq order info rfl
  have hfile (info : FileInfo) := Message.storedOffset_eq order info rfl
  have hblock (info : BlockInfo) := Message.storedOffset_eq order info rfl
  cases payload with
  | none =>
      simp only [Builds] at hbuilds
      subst hbuilds
      cases metadata with
      | none => exact WireForm.output_nil hbare
      | host info => exact WireForm.output_nil (hhost info)
      | file info => exact WireForm.output_nil (hfile info)
      | block info => exact WireForm.output_nil (hblock info)
  | text text =>
      simp only [Builds] at hbuilds
      subst hbuilds
      cases metadata with
      | none => exact WireForm.output hbare
      | host info => exact WireForm.output (hhost info)
      | file info => exact WireForm.output (hfile info)
      | block info => exact WireForm.output (hblock info)
  | stream reserve input =>
      obtain ⟨hgood, error, input', hextract⟩ := hbuilds
      cases metadata with
      | none => exact WireForm.extract hbare hgood hextract
      | host info => exact WireForm.extract (hhost info) hgood hextract
      | file info => exact WireForm.extract (hfile info) hgood hextract
      | block info => exact WireForm.extract (hblock info) hgood hextract

/-! ## Reading the form -/

section Form

variable {order : ByteOrder} {sender type : UInt32} {metadata payload : Bytes}
  {message received : Message}

theorem WireForm.of_buffer
    (hform : WireForm order sender type metadata payload message)
    (hbuffer : received.buffer = message.buffer) :
    WireForm order sender type metadata payload received := by
  obtain ⟨offset, hoffset, hmessage⟩ := hform
  exact ⟨offset, hoffset, hbuffer.trans hmessage⟩

theorem WireForm.length_buffer
    (hform : WireForm order sender type metadata payload message) :
    message.buffer.length = headerSize + metadata.length + payload.length := by
  obtain ⟨offset, hoffset, hmessage⟩ := hform
  simp only [hmessage, Message.output_buffer, List.length_append,
    Header.length_store]
  omega

theorem WireForm.buffer_ne_nil
    (hform : WireForm order sender type metadata payload message) :
    message.buffer ≠ [] := by
  intro hnil
  have hlength := hform.length_buffer
  rw [hnil, List.length_nil, headerSize] at hlength
  omega

theorem WireForm.getType
    (hform : WireForm order sender type metadata payload message)
    (receiver : ByteOrder) : message.getType receiver = type := by
  obtain ⟨offset, hoffset, hmessage⟩ := hform
  rw [Message.getType_congr receiver order hmessage, Message.output_getType]

theorem WireForm.getOffset
    (hform : WireForm order sender type metadata payload message)
    (receiver : ByteOrder) :
    message.getOffset receiver = headerSize + metadata.length := by
  obtain ⟨offset, hoffset, hmessage⟩ := hform
  rw [Message.getOffset_congr receiver order hmessage, Message.output_getOffset,
    hoffset]

theorem WireForm.getLength
    (hform : WireForm order sender type metadata payload message)
    (hlength : payload.length < 2 ^ 32) (receiver : ByteOrder) :
    (message.getLength receiver).toNat = payload.length := by
  obtain ⟨offset, hoffset, hmessage⟩ := hform
  rw [Message.getLength_congr receiver order hmessage, Message.output_getLength,
    order.ntohl_htonl, UInt32.toNat_ofNat', Nat.mod_eq_of_lt hlength]

theorem WireForm.framed
    (hform : WireForm order sender type metadata payload message)
    (hlength : payload.length < 2 ^ 32) (receiver : ByteOrder) :
    message.Framed receiver := by
  rw [Message.framed_iff, hform.getLength hlength, hform.getOffset,
    hform.length_buffer, Nat.add_comm]

theorem WireForm.getText
    (hform : WireForm order sender type metadata payload message)
    (receiver : ByteOrder) : message.getText receiver = .ok payload := by
  have hoffset := hform.getOffset receiver
  have hle : message.getOffset receiver ≤ message.buffer.length := by
    rw [hoffset, hform.length_buffer]
    omega
  obtain ⟨offset, _, hmessage⟩ := hform
  rw [Message.getText_eq receiver hle, hoffset, hmessage, Message.output_buffer,
    ← List.append_assoc, List.drop_left' (by simp)]

theorem WireForm.getMetadata {M : Type} [Metadata M] {info : M}
    (hform : WireForm order sender type (Message.metadataImage order info)
      payload message) (receiver : ByteOrder) :
    message.getMetadata receiver M =
      .ok (Metadata.load receiver (Metadata.store order info)) := by
  have hheader := (Metadata.layout M).headerSize_le_metadataOffset
  have hbound := (Metadata.layout M).metadata_le
  have hoffset := hform.getOffset receiver
  rw [Message.length_metadataImage] at hoffset
  obtain ⟨offset, _, hmessage⟩ := hform
  exact Message.getMetadata_eq receiver order hmessage (by omega)

/-- An open stream receives the payload at its position. -/
theorem WireForm.insert
    (hform : WireForm order sender type metadata payload message)
    (receiver : ByteOrder) (error : String) (file position : ℕ)
    (store : FileStore Bytes) :
    message.insert receiver none error (⟨some file, position, false⟩, store) =
      .ok () (⟨some file, position + payload.length, false⟩,
        store.write file position payload) := by
  have hwrite : (OutStream.mk (some file) position false).write payload none
      store = (⟨some file, position + payload.length, false⟩,
        store.write file position payload) := by
    simp [OutStream.write]
  simp [Message.insert_apply, hform.getText receiver, hwrite]

end Form

/-- What the two ends of the wire agree on. -/
structure WireRoundTrip (sender receiver : ByteOrder) (type : UInt32)
    (metadata : AnyMetadata) (payload : Bytes) (message : Message) : Prop where
  sends : ∀ socket, ∃ socket',
    BlockSocket.send sender message none socket = .ok () socket'
  receives : ∀ address socket, ∃ received socket',
    BlockSocket.receive receiver receiveReserve (.ok (address, message.buffer))
        socket = .ok received socket' ∧
      received.getType receiver = type ∧
      (received.getLength receiver).toNat = payload.length ∧
      metadata.Arrives sender receiver received ∧
      received.getText receiver = .ok payload ∧
      ∀ error file position store, ∃ stream,
        received.insert receiver none error (⟨some file, position, false⟩, store) =
          .ok () (stream, store.write file position payload)

theorem WireForm.arrives {sender receiver : ByteOrder} {id type : UInt32}
    {metadata : AnyMetadata} {payload : Bytes} {message : Message}
    (hform : WireForm sender id type (metadata.image sender) payload message) :
    metadata.Arrives sender receiver message := by
  cases metadata with
  | none => trivial
  | host info =>
      exact ⟨_, hform.getMetadata receiver,
        HostInfo.getId_load sender receiver info⟩
  | file info =>
      exact ⟨_, hform.getMetadata receiver,
        FileInfo.digest_load sender receiver info,
        FileInfo.getBlockCount_load sender receiver info⟩
  | block info =>
      have hfile := BlockInfo.fileInfo_load sender receiver info
      refine ⟨_, hform.getMetadata receiver, ?_, ?_,
        BlockInfo.getBlock_load sender receiver info⟩
      · rw [hfile, FileInfo.digest_load]
      · rw [hfile, FileInfo.getBlockCount_load]

/-- Every message that fits the receive buffer passes both checks, and gives
back its type, metadata and payload on a host of either byte order. -/
theorem builds_wireRoundTrip (sender receiver : ByteOrder) {id type : UInt32}
    {metadata : AnyMetadata} {payload : PayloadSource} {message : Message}
    (hbuilds : metadata.Builds sender id type payload message)
    (hsize : message.buffer.length ≤ 4112) :
    WireRoundTrip sender receiver type metadata payload.bytes message := by
  have hform := hbuilds.wireForm
  have hlength := hform.length_buffer
  have hpayload : payload.bytes.length < 2 ^ 32 := by omega
  have hnonempty : message.buffer.length ≠ 0 := by
    rw [hlength, headerSize]
    omega
  have hbuffer : (Message.received receiveReserve message.buffer).buffer =
      message.buffer :=
    Message.received_buffer (by simpa [receiveReserve, headerSize] using hsize)
  have hreceived := hform.of_buffer hbuffer
  constructor
  · intro socket
    have hsend := BlockSocket.send_eq sender message socket
    rw [if_neg hnonempty, if_pos (hform.framed hpayload sender)] at hsend
    exact ⟨_, hsend⟩
  · intro address socket
    refine ⟨_, _, BlockSocket.receive_framed hform.buffer_ne_nil
      (hreceived.framed hpayload receiver) address socket, ?_, ?_, ?_, ?_, ?_⟩
    · exact hreceived.getType receiver
    · exact hreceived.getLength hpayload receiver
    · exact hreceived.arrives
    · exact hreceived.getText receiver
    · intro error file position store
      exact ⟨_, hreceived.insert receiver error file position store⟩

def sampleFile : FileInfo where
  digest := List.replicate 32 97 ++ [0]
  digest_length := by decide
  numBlocks := ByteOrder.little.htonl 1

/-- Block 0 of a file of three bytes, read into a larger reserve. -/
def sampleBlock : Message :=
  (Message.withReserve .little 5 MessageType.block.code
    (BlockInfo.ofBlock .little sampleFile 0) 4).filled .little [1, 2, 3]

theorem sampleBlock_wireRoundTrip :
    WireRoundTrip .little .big MessageType.block.code
      (.block (BlockInfo.ofBlock .little sampleFile 0)) [1, 2, 3] sampleBlock := by
  have hbuilds : (AnyMetadata.block
      (BlockInfo.ofBlock .little sampleFile 0)).Builds .little 5
      MessageType.block.code
      (.stream 4 (InStream.openFile (some [1, 2, 3]))) sampleBlock :=
    ⟨rfl, "", _, rfl⟩
  exact builds_wireRoundTrip .little .big hbuilds (by decide)

end Multisync
