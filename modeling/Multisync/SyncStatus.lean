import Multisync.BlockSocket
import Mathlib.Tactic

/-!
# The state of one transfer

`SyncStatus` holds what the client knows of one file: a temporary file opened
when the record is made, the bitmap of blocks and their remaining number, the
path the file goes to, and whether the server has said goodbye.  The last of
these is not initialised by the constructor, so its first value is whatever the
storage holds.

`transferComplete` both tests and publishes.  Each renaming that takes effect is
noted in `publications`, with the bitmap at that moment and the bytes moved.
-/

namespace Multisync

open ByteLayout Effects

structure SyncStatus where
  temp : Bytes
  path : Bytes
  blockArray : List Bool
  remainingBlocks : ℕ
  output : OutStream
  goodbyeReceived : Bool
  serverAddress : Address
  deriving DecidableEq, Repr

/-- The results of closing the output and renaming the temporary file. -/
structure PublishOutcome where
  closed : Bool
  renamed : Bool
  deriving DecidableEq, Repr

/-- What the environment supplies while one message is handled.  At most one
record is created and one block written; the record may be published twice. -/
structure Environment where
  tmpnam : Bytes
  goodbyeReceived : Bool
  opened : Bool
  writeLimit : Option ℕ
  error : String
  first : PublishOutcome
  second : PublishOutcome
  deriving DecidableEq, Repr

/-- All system calls succeed, and the storage of a new record's goodbye flag holds
the given value. -/
def Environment.plain (tmpnam : Bytes) (goodbyeReceived : Bool) : Environment where
  tmpnam := tmpnam
  goodbyeReceived := goodbyeReceived
  opened := true
  writeLimit := none
  error := ""
  first := ⟨true, true⟩
  second := ⟨true, true⟩

/-- A renaming that took effect. -/
structure Publication where
  path : Bytes
  blockArray : List Bool
  content : Bytes
  deriving DecidableEq, Repr

/-- A record with the files it writes to. -/
structure StatusState where
  status : SyncStatus
  files : FileStore Bytes
  publications : List Publication

/-- The predecessor of an `unsigned long`. -/
def decrement (value : ℕ) : ℕ := (value + (2 ^ 64 - 1)) % 2 ^ 64

theorem decrement_of_pos {value : ℕ} (hpos : 0 < value) (hlt : value < 2 ^ 64) :
    decrement value = value - 1 := by
  unfold decrement
  omega

/-- `".msync"`. -/
def tempSuffix : Bytes := [46, 109, 115, 121, 110, 99]

/-- The name of the temporary file: a fresh name, the digest as a C string, and
the suffix. -/
def tempName (tmpnam : Bytes) (info : FileInfo) : Bytes :=
  cstr tmpnam ++ cstr info.digest ++ tempSuffix

theorem cstr_tempName (tmpnam : Bytes) (info : FileInfo) :
    cstr (tempName tmpnam info) = tempName tmpnam info := by
  apply cstr_of_notMem
  have htmpnam := notMem_cstr tmpnam
  have hdigest := notMem_cstr info.digest
  simp [tempName, tempSuffix, htmpnam, hdigest]

namespace SyncStatus

variable (order : ByteOrder)

/-- The constructor.  A digest without a NUL would be read past its end. -/
def create (env : Environment) (info : FileInfo) (serverAddress : Address)
    (files : FileStore Bytes) : Except Fault (SyncStatus × FileStore Bytes) :=
  if 0 ∈ info.digest then
    let temp := tempName env.tmpnam info
    let (output, files) := OutStream.openFile (cstr temp) env.opened files
    .ok ({
      temp := temp
      path := []
      blockArray := List.replicate (info.getBlockCount order).toNat false
      remainingBlocks := (info.getBlockCount order).toNat
      output := output
      goodbyeReceived := env.goodbyeReceived
      serverAddress := serverAddress }, files)
  else .error .undefined

/-- `write_block`.  The bitmap is indexed without a check. -/
def writeBlock (env : Environment) (block : ℕ) (message : Message) :
    EStateM Fault StatusState Unit := do
  let state ← get
  match state.status.blockArray[block]? with
  | none => throw .undefined
  | some true => pure ()
  | some false =>
      modify fun state => { state with status := { state.status with
        output := state.status.output.seekp (blockSize * block % 2 ^ 64) } }
      zoom (fun state => (state.status.output, state.files))
        (fun (output, files) state => { state with
          status := { state.status with output := output }
          files := files })
        (message.insert order env.writeLimit env.error)
      modify fun state => { state with status := { state.status with
        blockArray := state.status.blockArray.set block true
        remainingBlocks := decrement state.status.remainingBlocks } }

def setPath (path : Bytes) : EStateM Fault StatusState Unit :=
  modify fun state => { state with status := { state.status with path := path } }

def setGoodbyeReceived : EStateM Fault StatusState Unit :=
  modify fun state =>
    { state with status := { state.status with goodbyeReceived := true } }

/-- All blocks are written and a path is known. -/
def Complete (status : SyncStatus) : Prop :=
  status.remainingBlocks = 0 ∧ status.path ≠ []

instance (status : SyncStatus) : Decidable status.Complete :=
  inferInstanceAs (Decidable (_ ∧ _))

/-- The renaming of the temporary file, when it takes effect. -/
def renameTemp (permitted : Bool) (state : StatusState) : StatusState :=
  if permitted ∧ cstr state.status.path ≠ [] then
    match state.files.file? (cstr state.status.temp) with
    | none => state
    | some content => { state with
        files := state.files.rename (cstr state.status.temp)
          (cstr state.status.path)
        publications := state.publications ++
          [⟨state.status.path, state.status.blockArray, content⟩] }
  else state

/-- `transfer_complete`.  The pointer to the output is set by the constructor
and never reset, so the test of it always succeeds; the results of closing and
of renaming are not looked at. -/
def transferComplete (outcome : PublishOutcome) :
    EStateM Fault StatusState Bool := do
  let state ← get
  if state.status.Complete then
    modify fun state => { state with status := { state.status with
      output := state.status.output.close outcome.closed } }
    modify (renameTemp outcome.renamed)
    return true
  else return false

/-- `sync_complete`: nothing is published before the goodbye. -/
def syncComplete (outcome : PublishOutcome) :
    EStateM Fault StatusState Bool := do
  let state ← get
  if state.status.goodbyeReceived then transferComplete outcome
  else return false

/-! ## What each operation does -/

theorem create_of_nul (order : ByteOrder) (env : Environment) {info : FileInfo}
    (serverAddress : Address) (hnul : 0 ∈ info.digest) (files : FileStore Bytes) :
    ∃ made, create order env info serverAddress files = .ok made := by
  rw [create, if_pos hnul]
  exact ⟨_, rfl⟩

theorem create_eq_ok {order : ByteOrder} {env : Environment} {info : FileInfo}
    {serverAddress : Address} {files files' : FileStore Bytes}
    {status : SyncStatus}
    (hok : create order env info serverAddress files = .ok (status, files')) :
    0 ∈ info.digest ∧
      status = {
        temp := tempName env.tmpnam info
        path := []
        blockArray := List.replicate (info.getBlockCount order).toNat false
        remainingBlocks := (info.getBlockCount order).toNat
        output :=
          (OutStream.openFile (tempName env.tmpnam info) env.opened files).1
        goodbyeReceived := env.goodbyeReceived
        serverAddress := serverAddress } ∧
      files' =
        (OutStream.openFile (tempName env.tmpnam info) env.opened files).2 := by
  unfold create at hok
  split_ifs at hok with hnul
  simp only [cstr_tempName] at hok
  cases hok
  exact ⟨hnul, rfl, rfl⟩

variable {order} {outcome : PublishOutcome} {state : StatusState}

/-- The record and the files after the bytes of a block were written. -/
def wrote (env : Environment) (block : ℕ) (payload : Bytes) (state : StatusState) :
    StatusState :=
  { state with
    status := { state.status with
      output := ((state.status.output.seekp (blockSize * block % 2 ^ 64)).write
        payload env.writeLimit state.files).1 }
    files := ((state.status.output.seekp (blockSize * block % 2 ^ 64)).write
      payload env.writeLimit state.files).2 }

/-- Writing keeps the file that is open. -/
theorem wrote_file (env : Environment) (block : ℕ) (payload : Bytes) (state : StatusState) :
    (wrote env block payload state).status.output.file = state.status.output.file := by
  rw [wrote, OutStream.write_file, OutStream.seekp_file]

/-- The record after a block was marked. -/
def marked (block : ℕ) (state : StatusState) : StatusState :=
  { state with status := { state.status with
      blockArray := state.status.blockArray.set block true
      remainingBlocks := decrement state.status.remainingBlocks } }

/-- The record after the output was closed and the file renamed. -/
def published (outcome : PublishOutcome) (state : StatusState) : StatusState :=
  renameTemp outcome.renamed { state with status := { state.status with
    output := state.status.output.close outcome.closed } }

theorem writeBlock_apply (env : Environment) (block : ℕ) (message : Message) :
    writeBlock order env block message state =
      match state.status.blockArray[block]? with
      | none => .error .undefined state
      | some true => .ok () state
      | some false =>
          match message.getText order with
          | .error fault => .error fault { state with status := { state.status with
              output := state.status.output.seekp (blockSize * block % 2 ^ 64) } }
          | .ok payload =>
              if (wrote env block payload state).status.output.failed = true then
                .error (.writeFailed env.error) (wrote env block payload state)
              else .ok () (marked block (wrote env block payload state)) := by
  simp only [writeBlock, bind_apply, get_apply]
  cases state.status.blockArray[block]? with
  | none => rfl
  | some mark =>
      cases mark with
      | true => rfl
      | false =>
          simp only [bind_apply, modify_apply, zoom, Message.insert_apply]
          cases message.getText order with
          | error fault => rfl
          | ok payload =>
              by_cases hfailed : ((state.status.output.seekp
                  (blockSize * block % 2 ^ 64)).write payload env.writeLimit
                    state.files).1.failed = true
              · simp only [wrote, hfailed, if_true]
              · simp only [wrote, hfailed]
                rfl

theorem transferComplete_apply :
    transferComplete outcome state =
      if state.status.Complete then .ok true (published outcome state)
      else .ok false state := by
  simp only [transferComplete, bind_apply, get_apply]
  split_ifs with hcomplete
  · rfl
  · rfl

theorem syncComplete_apply :
    syncComplete outcome state =
      if state.status.goodbyeReceived = true ∧ state.status.Complete then
        .ok true (published outcome state)
      else .ok false state := by
  simp only [syncComplete, bind_apply, get_apply]
  by_cases hgoodbye : state.status.goodbyeReceived = true
  · rw [if_pos hgoodbye, transferComplete_apply]
    simp only [hgoodbye, true_and]
  · rw [if_neg hgoodbye, if_neg fun h => hgoodbye h.1]
    rfl

@[simp] theorem renameTemp_status (permitted : Bool) (state : StatusState) :
    (renameTemp permitted state).status = state.status := by
  unfold renameTemp
  split
  · split
    · rfl
    · rfl
  · rfl

theorem renameTemp_files (permitted : Bool) (state : StatusState) :
    (renameTemp permitted state).files = state.files ∨
      (renameTemp permitted state).files =
        state.files.rename (cstr state.status.temp) (cstr state.status.path) := by
  unfold renameTemp
  split
  · split
    · exact Or.inl rfl
    · exact Or.inr rfl
  · exact Or.inl rfl

/-- A renaming leaves nothing under the temporary name. -/
theorem published_file? (outcome : PublishOutcome)
    (hcstr : cstr state.status.temp = state.status.temp)
    (hne : state.status.temp ≠ cstr state.status.path) :
    (published outcome state).files.file? state.status.temp =
      if outcome.renamed = true ∧ cstr state.status.path ≠ [] then none
      else state.files.file? state.status.temp := by
  unfold published renameTemp
  split_ifs with hrename
  · simp only [hcstr]
    cases hfile : state.files.file? state.status.temp with
    | none => exact hfile
    | some content =>
        rw [FileStore.file?, FileStore.rename_directory_old _ hne, Option.map_none]
  · rfl

/-- What is published is what the temporary file holds. -/
theorem published_publications (outcome : PublishOutcome)
    (hcstr : cstr state.status.temp = state.status.temp) :
    (published outcome state).publications = state.publications ++
      if outcome.renamed = true ∧ cstr state.status.path ≠ [] then
        (state.files.file? state.status.temp).toList.map fun content =>
          ⟨state.status.path, state.status.blockArray, content⟩
      else [] := by
  unfold published renameTemp
  split_ifs with hrename
  · simp only [hcstr]
    cases state.files.file? state.status.temp with
    | none => simp
    | some content => rfl
  · simp

end SyncStatus

end Multisync
