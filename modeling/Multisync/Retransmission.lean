import Multisync.Addressing
import Multisync.BlockAssembly
import Multisync.ServerPosts
import Mathlib.Tactic

/-!
# Does the server answer a request for a block?

The handler first reads the message as one that carries a host, then as one that
carries a block.  No message passes both checks, so the handler throws before it
looks at the block that is asked for, and queues nothing.
-/

namespace Multisync

open ByteLayout Effects BlockAssembly

namespace BlockServer

/-- The block is one of the file that is served. -/
def Offers (order : ByteOrder) (i : BlockInfo) (server : BlockServer) : Prop :=
  i.fileInfo = server.fileInfo ∧ i.getBlock order < server.fileInfo.getBlockCount order

/-- What a request for a block is to do: a block of the served file is queued, with its
bytes, and for another file nothing is. -/
structure Retransmits (order : ByteOrder) (input : ServerInput) (message : Message)
    (i : BlockInfo) (server : BlockServer) : Prop where
  served : server.Offers order i → ∃ server' reply,
    handle order input message server = .ok () server' ∧
      server'.messageQueue = server.messageQueue ++ [reply] ∧
      reply.getType order = MessageType.block.code ∧
      reply.getMetadata order BlockInfo = .ok i ∧
      reply.getText order =
        .ok (slice blockSize (server.input.source.getD []) (i.getBlock order).toNat)
  foreign : i.fileInfo ≠ server.fileInfo →
    (endState (handle order input message server)).messageQueue = server.messageQueue

variable {order : ByteOrder} {input : ServerInput} {message : Message} {i : BlockInfo}
  {server : BlockServer}

/-- The first of the two checks fails, before the state has changed. -/
theorem handle_of_request (htype : message.getType order = MessageType.getblock.code)
    (hblock : message.getMetadata order BlockInfo = .ok i) :
    handle order input message server = .error
      (.headerSizeMismatch (Metadata.layout HostInfo).metadataHeaderSize
        (Metadata.layout BlockInfo).metadataHeaderSize) server := by
  have hoffset := Message.getOffset_of_getMetadata order hblock
  have hne : message.getOffset order ≠ (Metadata.layout HostInfo).metadataHeaderSize := by
    rw [hoffset]
    decide
  have hhandle : handle order input message = handleGetblock order input message := by
    unfold handle
    rw [if_neg (by simp [htype]), if_neg (by simp [htype]), if_pos htype]
  rw [hhandle, handleGetblock, Message.getMetadata_mismatch order hne, hoffset]
  rfl

theorem not_retransmits (htype : message.getType order = MessageType.getblock.code)
    (hblock : message.getMetadata order BlockInfo = .ok i)
    (hoffers : server.Offers order i) : ¬ server.Retransmits order input message i := by
  intro hretransmits
  obtain ⟨server', reply, hok, _⟩ := hretransmits.served hoffers
  rw [handle_of_request htype hblock] at hok
  contradiction

/-- A request is answered as it should be only when there is nothing to answer. -/
theorem retransmits_iff (htype : message.getType order = MessageType.getblock.code)
    (hblock : message.getMetadata order BlockInfo = .ok i) :
    server.Retransmits order input message i ↔ ¬ server.Offers order i := by
  constructor
  · exact fun hretransmits hoffers => not_retransmits htype hblock hoffers hretransmits
  · intro hnone
    refine ⟨fun hoffers => absurd hoffers hnone, fun _ => ?_⟩
    rw [handle_of_request htype hblock]
    rfl

end BlockServer

/-- A server of three bytes that waits for the first time. -/
def threeByteServer : ServerRun :=
  ServerRun.start .little 40000 none writableServerInput
    (BlockServer.create .little (fun _ => zeroDigest)
      (some [1, 2, 3]) (some (.regular [1, 2, 3])) [97] 0 9000 9)

/-- A request for a block of its file. -/
def blockRequest (number : UInt32) : Message :=
  Message.withMetadata .little 7 MessageType.getblock.code
    (BlockInfo.ofBlock .little threeByteServer.server.fileInfo number)

/-- The file has one block, so block 1 is not one of it. -/
theorem blockRequest_retransmits :
    threeByteServer.server.Retransmits .little writableServerInput (blockRequest 1)
        (BlockInfo.ofBlock .little threeByteServer.server.fileInfo 1) ↔
      ¬ threeByteServer.server.Offers .little
        (BlockInfo.ofBlock .little threeByteServer.server.fileInfo 1) :=
  BlockServer.retransmits_iff (by decide +kernel) (by decide +kernel)

/-- The only block of the file is not sent again. -/
theorem blockRequest_not_retransmits :
    ServerRun.Reachable .little
      (BlockServer.create .little (fun _ => ⟨List.replicate 16 0, by decide⟩)
        (some [1, 2, 3]) (some (.regular [1, 2, 3])) [97] 0 9000 9) threeByteServer ∧
    (blockRequest 0).getType .little = MessageType.getblock.code ∧
    (blockRequest 0).getMetadata .little BlockInfo =
      .ok (BlockInfo.ofBlock .little threeByteServer.server.fileInfo 0) ∧
    ¬ threeByteServer.server.Retransmits .little writableServerInput (blockRequest 0)
      (BlockInfo.ofBlock .little threeByteServer.server.fileInfo 0) := by
  have htype : (blockRequest 0).getType .little = MessageType.getblock.code := by
    decide +kernel
  have hblock : (blockRequest 0).getMetadata .little BlockInfo =
      .ok (BlockInfo.ofBlock .little threeByteServer.server.fileInfo 0) := by
    decide +kernel
  have hoffers : threeByteServer.server.Offers .little
      (BlockInfo.ofBlock .little threeByteServer.server.fileInfo 0) :=
    ⟨by rw [BlockInfo.ofBlock], by decide +kernel⟩
  exact ⟨.start 40000 none writableServerInput, htype, hblock,
    BlockServer.not_retransmits htype hblock hoffers⟩

end Multisync
