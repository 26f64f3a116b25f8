import Multisync.BlockAccounting
import Multisync.Publication
import Mathlib.Tactic

/-!
# When is an empty file published?

A client publishes what its temporary file holds, whatever the blocks brought.  If each
block that it hears of a file brings some bytes, the temporary file has bytes once a
block is marked.  Then only a file of no blocks is published empty, and nothing is
published of a file that was not announced.
-/

namespace Multisync

open ByteLayout Effects BlockAssembly

theorem overlay_ne_nil {content bytes : Bytes} (hbytes : content ≠ [] ∨ bytes ≠ [])
    (position : ℕ) : overlay content position bytes ≠ [] := by
  by_cases hnil : bytes = []
  · rw [hnil, overlay_nil]
    exact hbytes.resolve_right (not_not_intro hnil)
  · have hpos := List.length_pos_of_ne_nil hnil
    apply List.ne_nil_of_length_pos
    rw [length_overlay hnil]
    omega

/-- The record has a path only if the file was announced, and its temporary file has bytes
once a block is marked. -/
structure Filling (announced : Prop) (count : ℕ) (status : SyncStatus)
    (files : FileStore Bytes) : Prop where
  counted : status.Counted count
  path : status.path ≠ [] → announced
  filled : true ∈ status.blockArray → ∀ content,
    files.file? status.temp = some content → content ≠ []

/-- The file was announced, and is not empty unless it has no blocks. -/
structure Publication.Filled (announced : Prop) (count : ℕ) (publication : Publication) :
    Prop where
  announced : announced
  content : 0 < count → publication.content ≠ []

/-- If the message announces the file, that was to be; if it brings a block of the file,
the block has bytes. -/
structure Message.Fills (order : ByteOrder) (info : FileInfo) (announced : Prop)
    (message : Message) : Prop where
  announces : message.getType order = MessageType.info.code →
    message.fileInfo? order = some info → announced
  brings : message.getType order = MessageType.block.code →
    message.fileInfo? order = some info →
      ∀ payload, message.getText order = .ok payload → payload ≠ []

section Record

variable {order : ByteOrder} {env : Environment} {message : Message} {announced : Prop}
  {count : ℕ} {state : StatusState}

/-- A complete record of a file with blocks has a marked one. -/
theorem SyncStatus.Counted.marked {status : SyncStatus} (hcounted : status.Counted count)
    (hzero : status.remainingBlocks = 0) (hpos : 0 < count) :
    true ∈ status.blockArray := by
  have hnone : false ∉ status.blockArray := by
    rw [← List.count_eq_zero, ← hcounted.remaining]
    exact hzero
  obtain ⟨mark, hmark⟩ := List.exists_mem_of_length_pos (hcounted.length.symm ▸ hpos)
  cases mark with
  | true => exact hmark
  | false => contradiction

/-- Publishing a complete record moves what the temporary file holds. -/
theorem Filling.published (outcome : PublishOutcome)
    (hfilling : Filling announced count state.status state.files)
    (hcstr : cstr state.status.temp = state.status.temp)
    (hne : state.status.temp ≠ cstr state.status.path)
    (hcomplete : state.status.Complete) :
    Filling announced count (SyncStatus.published outcome state).status
        (SyncStatus.published outcome state).files ∧
      ∀ publication ∈ (SyncStatus.published outcome state).publications,
        publication ∈ state.publications ∨ publication.Filled announced count := by
  constructor
  · refine ⟨⟨?_, ?_⟩, ?_, fun hmarked content hcontent => ?_⟩
    · simpa [SyncStatus.published] using hfilling.counted.length
    · simpa [SyncStatus.published] using hfilling.counted.remaining
    · simpa [SyncStatus.published] using hfilling.path
    · have htemp : (SyncStatus.published outcome state).status.temp =
          state.status.temp := by
        simp [SyncStatus.published]
      rw [htemp, SyncStatus.published_file? outcome hcstr hne] at hcontent
      split_ifs at hcontent
      exact hfilling.filled (by simpa [SyncStatus.published] using hmarked) content hcontent
  · intro publication hmem
    rw [SyncStatus.published_publications outcome hcstr] at hmem
    rcases List.mem_append.mp hmem with hold | hnew
    · exact Or.inl hold
    · split_ifs at hnew
      · obtain ⟨content, hcontent, rfl⟩ := List.mem_map.mp hnew
        exact Or.inr ⟨hfilling.path hcomplete.2, fun hpos =>
          hfilling.filled (hfilling.counted.marked hcomplete.1 hpos) content
            (Option.mem_toList.mp hcontent)⟩
      · contradiction

/-- After the bytes of a block were written, the temporary file has bytes if it had some
or if the write succeeded. -/
theorem Filling.wrote {block : ℕ} {payload : Bytes}
    (hfilling : Filling announced count state.status state.files)
    (hheld : ∀ file, state.status.output.file = some file →
      state.files.directory state.status.temp = some file)
    (hpayload : payload ≠ [])
    (hcase : true ∈ state.status.blockArray ∨
      (SyncStatus.wrote env block payload state).status.output.failed = false) :
    ∀ content, (SyncStatus.wrote env block payload state).files.file? state.status.temp =
      some content → content ≠ [] := by
  intro content hcontent
  simp only [SyncStatus.wrote] at hcontent hcase
  by_cases hclosed : state.status.output.failed = true ∨ state.status.output.file = none
  · rw [OutStream.seekp_write_closed hclosed] at hcontent hcase
    exact hfilling.filled (hcase.resolve_right (by simp)) content hcontent
  · push Not at hclosed
    obtain ⟨file, hfile⟩ := Option.ne_none_iff_exists'.mp hclosed.2
    have hname := hheld file hfile
    rw [OutStream.seekp_write_limit hfile (by simpa using hclosed.1)] at hcontent hcase
    rw [FileStore.file?_write_self _ hname] at hcontent
    cases hcontent
    apply overlay_ne_nil
    rcases hcase with hmarked | hdone
    · left
      apply hfilling.filled hmarked
      rw [FileStore.file?, hname, Option.map_some]
    · right
      rw [Option.isSome_eq_false_iff, Option.isNone_iff_eq_none] at hdone
      rwa [hdone, Option.getD_none, List.take_length]

/-- Every program a handler runs on the record of the file keeps the temporary file
filled, and publishes it so. -/
theorem RecordProgram.filling {α : Type} {program : EStateM Fault StatusState α}
    (hprogram : RecordProgram order env message program) (hcount : count < 2 ^ 64)
    (hannounced : message.getType order = MessageType.info.code → announced)
    (hbrings : message.getType order = MessageType.block.code →
      ∀ payload, message.getText order = .ok payload → payload ≠ [])
    (hcstr : cstr state.status.temp = state.status.temp)
    (hheld : ∀ file, state.status.output.file = some file →
      state.files.directory state.status.temp = some file)
    (hne : state.status.temp ≠ cstr state.status.path)
    (hfilling : Filling announced count state.status state.files) :
    Filling announced count (endState (program state)).status
        (endState (program state)).files ∧
      ∀ publication ∈ (endState (program state)).publications,
        publication ∈ state.publications ∨ publication.Filled announced count := by
  have hcounted := hprogram.counted hcount hfilling.counted
  have hkept : Filling announced count state.status state.files ∧
      ∀ publication ∈ state.publications,
        publication ∈ state.publications ∨ publication.Filled announced count :=
    ⟨hfilling, fun _ hold => Or.inl hold⟩
  cases hprogram with
  | setPath htype htext =>
      exact ⟨⟨hcounted, fun _ => hannounced htype, hfilling.filled⟩, hkept.2⟩
  | @writeBlock block htype hblock =>
      rw [SyncStatus.writeBlock_apply] at hcounted ⊢
      cases hmark : state.status.blockArray[(block.getBlock order).toNat]? with
      | none => exact hkept
      | some mark =>
          cases mark with
          | true => exact hkept
          | false =>
              simp only [hmark] at hcounted ⊢
              cases htext : message.getText order with
              | error fault =>
                  exact ⟨⟨⟨hfilling.counted.length, hfilling.counted.remaining⟩,
                    hfilling.path, hfilling.filled⟩, hkept.2⟩
              | ok payload =>
                  have hwrote := @Filling.wrote env announced count state
                    (block.getBlock order).toNat payload hfilling hheld
                    (hbrings htype payload htext)
                  simp only [htext] at hcounted ⊢
                  split_ifs at hcounted ⊢ with hfailed
                  · exact ⟨⟨hcounted, hfilling.path, fun hmarked => hwrote (Or.inl hmarked)⟩,
                      hkept.2⟩
                  · exact ⟨⟨hcounted, hfilling.path, fun _ =>
                      hwrote (Or.inr (by simpa using hfailed))⟩, hkept.2⟩
  | setGoodbyeReceived =>
      exact ⟨⟨hcounted, hfilling.path, hfilling.filled⟩, hkept.2⟩
  | transferComplete =>
      rw [SyncStatus.transferComplete_apply]
      split_ifs with hcomplete
      · exact hfilling.published env.first hcstr hne hcomplete
      · exact hkept
  | @syncComplete outcome houtcome =>
      rw [SyncStatus.syncComplete_apply]
      split_ifs with hcomplete
      · exact hfilling.published outcome hcstr hne hcomplete.2
      · exact hkept

end Record

/-- A message whose blocks have bytes keeps the temporary file of the record filled. -/
theorem keepsFitting_of_fills {order : ByteOrder} {env : Environment} {message : Message}
    {info : FileInfo} {announced : Prop} (hfills : message.Fills order info announced) :
    KeepsFitting order env message (Filling announced (info.getBlockCount order).toNat)
      (Publication.Filled announced (info.getBlockCount order).toNat) info := by
  constructor
  · intro status files files' hfile hfilling
    refine ⟨hfilling.counted, hfilling.path, fun hmarked content hcontent => ?_⟩
    rw [hfile] at hcontent
    exact hfilling.filled hmarked content hcontent
  · intro address files status files' _ hcreate
    obtain ⟨_, rfl, rfl⟩ := SyncStatus.create_eq_ok hcreate
    refine ⟨⟨List.length_replicate, List.count_replicate_self.symm⟩,
      fun hpath => absurd rfl hpath, fun hmarked => ?_⟩
    cases List.eq_of_mem_replicate hmarked
  · intro α program status files hprogram hinfo hcstr hheld hne hfilling
    have hlt := (info.getBlockCount order).toNat_lt
    obtain ⟨hfits, hpublished⟩ := @RecordProgram.filling order env message announced _
      ⟨status, files, []⟩ α program hprogram (by omega)
      (fun htype => hfills.announces htype hinfo) (fun htype => hfills.brings htype hinfo)
      hcstr hheld hne hfilling
    exact ⟨hfits, fun publication hmem => (hpublished publication hmem).resolve_left
      List.not_mem_nil⟩

/-- Whatever is delivered, in whatever order: a client that hears of a file only blocks
with bytes publishes it only if it was announced, and as an empty file only if it has no
blocks. -/
theorem BlockClient.published_filled {order : ByteOrder} {info : FileInfo}
    {announced : Prop} {client : BlockClient} {deliveries : List Delivery}
    (hempty : client.syncSet = OrderedMap.empty) (htrace : client.trace = [])
    (hfills : ∀ delivery ∈ deliveries, delivery.message.Fills order info announced)
    (hnames : NamesApart order client.files deliveries) :
    ∀ publication, ClientEvent.published info publication ∈
        (endState (deliveries.forM (deliver order) client)).trace →
      publication.Filled announced (info.getBlockCount order).toNat :=
  published_only hempty htrace
    (fun delivery hmem => keepsFitting_of_fills (hfills delivery hmem)) hnames

end Multisync
