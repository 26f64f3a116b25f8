import Multisync.FileSources
import Multisync.Footprint
import Mathlib.Tactic

/-!
# Nothing out of thin air

Whatever is sent to a client and whatever fails, each byte of each file on its host is a
zero, was in some file at the same position before the run, or is a byte of a block that
was accepted, at the position that this block's number gives it.
-/

namespace Multisync

open ByteLayout Effects FileStore

/-- The message is a block with this byte for this position. -/
def Message.Supplies (order : ByteOrder) (message : Message) (position : ℕ) (byte : UInt8) :
    Prop :=
  message.getType order = MessageType.block.code ∧
    ∃ block payload, message.getMetadata order BlockInfo = .ok block ∧
      message.getText order = .ok payload ∧
        ∃ j, payload[j]? = some byte ∧
          position = blockSize * (block.getBlock order).toNat + j

/-- The byte was in a file first, or comes with one of these inputs. -/
def Supplied (order : ByteOrder) (files : FileStore Bytes) (inputs : List ClientInput)
    (position : ℕ) (byte : UInt8) : Prop :=
  byte = 0 ∨
    (∃ name content, files.file? name = some content ∧ content[position]? = some byte) ∨
      ∃ input ∈ inputs, ∃ message, input.message? = some message ∧ message.buffer ≠ [] ∧
        message.Framed order ∧ message.Supplies order position byte

namespace BlockClient

variable {order : ByteOrder} {env : Environment} {message : Message} {address : Address}
  {S : ℕ → UInt8 → Prop} {client : BlockClient}

/-- A message that is handled brings no bytes but those of a block. -/
theorem handle_sourced (hzero : ∀ k, S k 0)
    (hsupplies : ∀ k byte, message.Supplies order k byte → S k byte) :
    Keeps (fun client => client.files.Sourced S) (fun client => client.files.Sourced S)
      (handle order env message address) := by
  have hpublish : ∀ (client : BlockClient) info status outcome, client.files.Sourced S →
      (client.publish outcome info status).files.Sourced S := by
    intro client info status outcome hclient
    rw [publish, putStatus]
    rcases SyncStatus.published_files outcome ⟨status, client.files, []⟩ with
      ⟨hsame, _⟩ | ⟨_, hrenamed, _⟩
    · rw [hsame]
      exact hclient
    · rw [hrenamed]
      exact hclient.rename _ _
  apply handle_keeps_of_stages
  · intro info client status files hclient _ hcreate
    obtain ⟨_, _, rfl⟩ := SyncStatus.create_eq_ok hcreate
    exact OutStream.sourced_openFile hclient _ _
  · intro info client status state _ hclient _ hworks
    rw [putStatus]
    rcases hworks.writes with
      hsame | ⟨block, payload, _, n, htype, hblock, htext, _, hwrites⟩
    · rw [hsame]
      exact hclient
    · rw [hwrites]
      apply hclient.write hzero
      intro j byte hbyte
      rw [List.getElem?_take] at hbyte
      split_ifs at hbyte
      exact hsupplies _ byte ⟨htype, block, payload, hblock, htext, j, hbyte, rfl⟩
  · exact fun info client status outcome hclient _ _ => hpublish client info status outcome hclient
  · exact fun _ _ _ _ hclient _ => hclient
  · exact fun info client status outcome hclient _ _ _ =>
      hpublish client info status outcome hclient

/-- What is handled was read, and has the length it says. -/
theorem accepted_of_handling? {input : ClientInput} {handling : Handling}
    (hhandling : client.handling? order input = some handling) :
    input.message? = some handling.message ∧ handling.message.buffer ≠ [] ∧
      handling.message.Framed order := by
  unfold handling? at hhandling
  unfold ClientInput.message?
  split at hhandling
  · next ready sender datagram hready harrival =>
      dsimp only at hhandling
      split_ifs at hhandling with haccepted
      cases hhandling
      obtain ⟨hreadable, hnil, hframed⟩ := haccepted
      rw [hready, harrival]
      refine ⟨if_pos hreadable, fun hempty => hnil ?_, hframed⟩
      simpa [Message.received, headerSize] using hempty
  · contradiction

theorem select_sourced {input : ClientInput} (hzero : ∀ k, S k 0)
    (hsupplies : ∀ message k byte, input.message? = some message → message.buffer ≠ [] →
      message.Framed order → message.Supplies order k byte → S k byte) :
    Keeps (fun client => client.files.Sourced S) (fun client => client.files.Sourced S)
      (select order input) := by
  apply triple_of_endState
  intro client hclient
  obtain ⟨socket, queue, hselect⟩ := select_sameRecords order input client
  rw [hselect]
  show (((client.handling? order input).map (Handling.after order)).getD client).files.Sourced
    S
  cases hhandling : client.handling? order input with
  | none => exact hclient
  | some handling =>
      obtain ⟨hmessage, hnonempty, hframed⟩ := accepted_of_handling? hhandling
      obtain ⟨_, _, hsame⟩ := sameRecords_of_handling? hhandling
      have hkeeps := @handle_sourced order handling.env handling.message handling.address S
        hzero fun k byte => hsupplies _ k byte hmessage hnonempty hframed
      apply hkeeps.endState
      rw [hsame]
      exact hclient

end BlockClient

namespace ClientRun

variable {order : ByteOrder}

/-- What each of the calls with these inputs keeps. -/
theorem steps_keep_of_mem {P : BlockClient → Prop} {run : ClientRun}
    {inputs : List ClientInput}
    (hselect : ∀ input ∈ inputs, Keeps P P (BlockClient.select order input))
    (hrun : P run.client) : P (run.steps order inputs).client := by
  induction inputs generalizing run with
  | nil => exact hrun
  | cons input inputs ih =>
      apply ih fun other hother => hselect other (List.mem_cons_of_mem _ hother)
      exact step_keeps (hselect input List.mem_cons_self) hrun

/-- Each byte of each file has come from somewhere. -/
theorem sourced {group : UInt32} {port ephemeral : UInt16} {pid id : UInt32}
    {openError : Option String} {files : FileStore Bytes} {inputs : List ClientInput}
    {name content : Bytes} {position : ℕ} {byte : UInt8}
    (hfile : ((ClientRun.start order ephemeral openError (BlockClient.create order group port
      pid id files)).steps order inputs).client.files.file? name = some content)
    (hbyte : content[position]? = some byte) :
    Supplied order files inputs position byte := by
  have hsourced : ((ClientRun.start order ephemeral openError (BlockClient.create order group
      port pid id files)).steps order inputs).client.files.Sourced
        (Supplied order files inputs) := by
    apply steps_keep_of_mem (P := fun client =>
      client.files.Sourced (Supplied order files inputs))
    · intro input hinput
      apply BlockClient.select_sourced fun _ => Or.inl rfl
      intro message k byte hmessage hnonempty hframed hsupplies
      exact Or.inr (Or.inr ⟨input, hinput, message, hmessage, hnonempty, hframed, hsupplies⟩)
    · unfold ClientRun.start
      rw [client_ofResult]
      have hkeeps := @BlockClient.start_keeps order
        (fun client => client.files.Sourced (Supplied order files inputs)) ephemeral openError
        fun _ _ _ hclient => hclient
      apply hkeeps.endState
      exact fun old content' k byte' hold hbyte' =>
        Or.inr (Or.inl ⟨old, content', hold, hbyte'⟩)
  exact hsourced name content position byte hfile hbyte

end ClientRun

theorem timelyInputs_sourced : Supplied .little otherFiles timelyInputs 2 3 := by
  apply @ClientRun.sourced .little 0 0 0 7 5 none otherFiles timelyInputs [97] [1, 2, 3]
  · decide +kernel
  · rfl

end Multisync
