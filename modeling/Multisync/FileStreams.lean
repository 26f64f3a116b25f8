import Multisync.ByteLayout
import Mathlib.Logic.Function.Basic
import Mathlib.Tactic

/-!
# Files and file streams

A file store is a directory of names over numbered files.  A file has at most
one name; a stream that holds a file open keeps writing to it whatever happens
to the name.  Each operation that the environment may refuse takes its outcome
as an argument.

Output streams write at a position of an open file and remember a failure until
the end; input streams read a fixed file, and a read that comes up short sets
the end-of-file and the failure flag, after which neither a seek nor a read has
any effect.
-/

open ByteLayout

/-- A directory of names over numbered files, each under at most one name. -/
structure FileStore (Name : Type*) where
  directory : Name → Option ℕ
  contents : ℕ → List UInt8
  next : ℕ
  fresh : ∀ name file, directory name = some file → file < next
  unique : ∀ first second file,
    directory first = some file → directory second = some file → first = second

namespace FileStore

variable {Name : Type*} [DecidableEq Name]

/-- The bytes of the file with this name, if there is one. -/
def file? (store : FileStore Name) (name : Name) : Option (List UInt8) :=
  (store.directory name).map store.contents

def empty : FileStore Name where
  directory := fun _ => none
  contents := fun _ => []
  next := 0
  fresh := by simp
  unique := by simp

/-- Creating an empty file under a name, or emptying the one that is there. -/
def create (store : FileStore Name) (name : Name) : ℕ × FileStore Name :=
  match hname : store.directory name with
  | some file =>
      (file, { store with contents := Function.update store.contents file [] })
  | none =>
      (store.next, {
        directory := Function.update store.directory name (some store.next)
        contents := Function.update store.contents store.next []
        next := store.next + 1
        fresh := by
          intro other file hother
          by_cases heq : other = name
          · subst other
            simp only [Function.update_self, Option.some.injEq] at hother
            omega
          · rw [Function.update_of_ne heq] at hother
            exact Nat.lt_succ_of_lt (store.fresh other file hother)
        unique := by
          intro first second file hfirst hsecond
          simp only [Function.update_apply] at hfirst hsecond
          split_ifs at hfirst hsecond with h1 h2 h2
          · rw [h1, h2]
          · have := store.fresh second file hsecond
            simp only [Option.some.injEq] at hfirst
            omega
          · have := store.fresh first file hfirst
            simp only [Option.some.injEq] at hsecond
            omega
          · exact store.unique first second file hfirst hsecond })

/-- Writing bytes into an open file at a position. -/
def write (store : FileStore Name) (file position : ℕ) (bytes : List UInt8) :
    FileStore Name :=
  { store with
    contents := Function.update store.contents file
      (overlay (store.contents file) position bytes) }

/-- Moving a file to another name, replacing the file that had it. -/
def rename (store : FileStore Name) (old new : Name) : FileStore Name :=
  match hold : store.directory old with
  | none => store
  | some file =>
      if hne : old = new then store
      else {
        store with
        directory := Function.update
          (Function.update store.directory new (some file)) old none
        fresh := by
          intro name other hname
          simp only [Function.update_apply] at hname
          split_ifs at hname with h1 h2
          · cases hname
            exact store.fresh old file hold
          · exact store.fresh name other hname
        unique := by
          intro first second other hfirst hsecond
          simp only [Function.update_apply] at hfirst hsecond
          split_ifs at hfirst hsecond with h1 h2 h3 h4 h5
          · rw [h2, h4]
          · cases hfirst
            exact absurd (store.unique second old file hsecond hold) h3
          · cases hsecond
            exact absurd (store.unique first old file hfirst hold) h1
          · exact store.unique first second other hfirst hsecond }

theorem create_directory_self (store : FileStore Name) (name : Name) :
    (store.create name).2.directory name = some (store.create name).1 := by
  unfold create
  split
  next file hname => exact hname
  next hname => simp

theorem create_directory_ne (store : FileStore Name) {name other : Name}
    (hne : other ≠ name) :
    (store.create name).2.directory other = store.directory other := by
  unfold create
  split
  next file hname => rfl
  next hname => exact Function.update_of_ne hne _ _

theorem create_contents_self (store : FileStore Name) (name : Name) :
    (store.create name).2.contents (store.create name).1 = [] := by
  unfold create
  split <;> simp

theorem file?_create_self (store : FileStore Name) (name : Name) :
    (store.create name).2.file? name = some [] := by
  rw [file?, create_directory_self, Option.map_some, create_contents_self]

theorem create_file_ne (store : FileStore Name) {name other : Name} {file : ℕ}
    (hne : other ≠ name) (hother : store.directory other = some file) :
    file ≠ (store.create name).1 := by
  unfold create
  split
  next found hname =>
    intro heq
    exact hne (store.unique other name file hother (heq ▸ hname))
  next hname =>
    have := store.fresh other file hother
    exact Nat.ne_of_lt this

theorem create_contents_ne (store : FileStore Name) {name : Name} {file : ℕ}
    (hne : file ≠ (store.create name).1) :
    (store.create name).2.contents file = store.contents file := by
  unfold create at hne ⊢
  split <;> split at hne <;> simp_all

theorem file?_create_ne (store : FileStore Name) {name other : Name}
    (hne : other ≠ name) :
    (store.create name).2.file? other = store.file? other := by
  rw [file?, file?, create_directory_ne store hne]
  cases hother : store.directory other with
  | none => rfl
  | some file =>
      rw [Option.map_some, Option.map_some,
        create_contents_ne store (create_file_ne store hne hother)]

omit [DecidableEq Name] in
@[simp] theorem write_directory (store : FileStore Name) (file position : ℕ)
    (bytes : List UInt8) :
    (store.write file position bytes).directory = store.directory := rfl

omit [DecidableEq Name] in
@[simp] theorem write_contents_self (store : FileStore Name)
    (file position : ℕ) (bytes : List UInt8) :
    (store.write file position bytes).contents file =
      overlay (store.contents file) position bytes := by
  simp [write]

omit [DecidableEq Name] in
theorem write_contents_ne (store : FileStore Name) {file other : ℕ}
    (hne : other ≠ file) (position : ℕ) (bytes : List UInt8) :
    (store.write file position bytes).contents other = store.contents other := by
  simp [write, hne]

omit [DecidableEq Name] in
theorem file?_write_self (store : FileStore Name) {name : Name} {file : ℕ}
    (hname : store.directory name = some file) (position : ℕ)
    (bytes : List UInt8) :
    (store.write file position bytes).file? name =
      some (overlay (store.contents file) position bytes) := by
  simp [file?, hname]

omit [DecidableEq Name] in
theorem file?_write_ne (store : FileStore Name) {name : Name} {file : ℕ}
    (hname : store.directory name ≠ some file) (position : ℕ)
    (bytes : List UInt8) :
    (store.write file position bytes).file? name = store.file? name := by
  rw [file?, file?, write_directory]
  cases hother : store.directory name with
  | none => rfl
  | some other =>
      have hne : other ≠ file := by
        rintro rfl
        exact hname hother
      rw [Option.map_some, Option.map_some, write_contents_ne store hne]

@[simp] theorem rename_contents (store : FileStore Name) (old new : Name) :
    (store.rename old new).contents = store.contents := by
  unfold rename
  split
  · rfl
  · split <;> rfl

theorem rename_directory_ne (store : FileStore Name) {old new other : Name}
    (hold : other ≠ old) (hnew : other ≠ new) :
    (store.rename old new).directory other = store.directory other := by
  unfold rename
  split
  · rfl
  · split
    · rfl
    · simp [hold, hnew]

theorem rename_directory_new (store : FileStore Name) {old new : Name}
    {file : ℕ} (hold : store.directory old = some file) :
    (store.rename old new).directory new = some file := by
  unfold rename
  split
  next hnone => rw [hnone] at hold; contradiction
  next found hfound =>
    rw [hfound] at hold
    cases hold
    split_ifs with heq
    · rw [← heq, hfound]
    · simp [Ne.symm heq]

theorem rename_directory_old (store : FileStore Name) {old new : Name}
    (hne : old ≠ new) : (store.rename old new).directory old = none := by
  unfold rename
  split
  next hnone => exact hnone
  next found hfound => simp [hne]

theorem rename_of_none (store : FileStore Name) {old : Name} (new : Name)
    (hold : store.directory old = none) : store.rename old new = store := by
  unfold rename
  split
  · rfl
  next found hfound => rw [hfound] at hold; contradiction

theorem file?_rename_ne (store : FileStore Name) {old new other : Name}
    (hold : other ≠ old) (hnew : other ≠ new) :
    (store.rename old new).file? other = store.file? other := by
  rw [file?, file?, rename_directory_ne store hold hnew, rename_contents]

theorem file?_rename_new (store : FileStore Name) {old : Name} (new : Name)
    {content : List UInt8} (hold : store.file? old = some content) :
    (store.rename old new).file? new = some content := by
  rw [file?, Option.map_eq_some_iff] at hold
  obtain ⟨file, hdirectory, rfl⟩ := hold
  rw [file?, rename_directory_new store hdirectory, rename_contents, Option.map_some]

end FileStore

/-- An output file stream: the file it holds open, the next position, and
whether an operation on it has failed. -/
structure OutStream where
  file : Option ℕ
  position : ℕ
  failed : Bool
  deriving DecidableEq, Repr

namespace OutStream

variable {Name : Type*} [DecidableEq Name]

/-- Opening a file for output, which creates or empties it. -/
def openFile (name : Name) (permitted : Bool) (store : FileStore Name) :
    OutStream × FileStore Name :=
  if permitted then
    (⟨some (store.create name).1, 0, false⟩, (store.create name).2)
  else (⟨none, 0, true⟩, store)

/-- A seek fails when the stream holds no file. -/
def seekp (stream : OutStream) (position : ℕ) : OutStream :=
  if stream.failed then stream
  else match stream.file with
    | none => { stream with failed := true }
    | some _ => { stream with position := position }

/-- A write, of which only the first bytes reach the file when a limit is given;
it then fails. -/
def write (stream : OutStream) (bytes : List UInt8) (limit : Option ℕ)
    (store : FileStore Name) : OutStream × FileStore Name :=
  if stream.failed then (stream, store)
  else match stream.file with
    | none => ({ stream with failed := !bytes.isEmpty }, store)
    | some file =>
        let written := bytes.take (limit.getD bytes.length)
        ({ stream with
            position := stream.position + written.length
            failed := limit.isSome },
          store.write file stream.position written)

/-- Closing gives the file up even when it reports a failure. -/
def close (stream : OutStream) (succeeds : Bool) : OutStream :=
  match stream.file with
  | none => { stream with failed := true }
  | some _ =>
      { stream with file := none, failed := stream.failed || !succeeds }

/-- Opening touches no other name, and what is held has the name. -/
theorem openFile_held (name : Name) (permitted : Bool) (store : FileStore Name) :
    ∀ file, (openFile name permitted store).1.file = some file →
      (openFile name permitted store).2.directory name = some file := by
  intro file hfile
  cases permitted with
  | true =>
      cases hfile
      exact store.create_directory_self name
  | false => contradiction

theorem openFile_directory_ne {name other : Name} (hne : other ≠ name)
    (permitted : Bool) (store : FileStore Name) :
    (openFile name permitted store).2.directory other = store.directory other := by
  unfold openFile
  split
  · exact store.create_directory_ne hne
  · rfl

theorem openFile_file?_ne {name other : Name} (hne : other ≠ name)
    (permitted : Bool) (store : FileStore Name) :
    (openFile name permitted store).2.file? other = store.file? other := by
  unfold openFile
  split
  · exact store.file?_create_ne hne
  · rfl

/-- What the name has after opening, when it had nothing before. -/
theorem openFile_file?_self {name : Name} {store : FileStore Name}
    (hnone : store.directory name = none) (permitted : Bool) :
    (openFile name permitted store).2.file? name =
      if permitted then some [] else none := by
  unfold openFile
  split
  · exact store.file?_create_self name
  · rw [FileStore.file?, hnone, Option.map_none]

@[simp] theorem close_file (stream : OutStream) (succeeds : Bool) :
    (stream.close succeeds).file = none := by
  unfold close
  split <;> simp_all

@[simp] theorem seekp_file (stream : OutStream) (position : ℕ) :
    (stream.seekp position).file = stream.file := by
  unfold seekp
  split
  · rfl
  · split <;> simp_all

omit [DecidableEq Name] in
theorem write_file (stream : OutStream) (bytes : List UInt8)
    (limit : Option ℕ) (store : FileStore Name) :
    (stream.write bytes limit store).1.file = stream.file := by
  unfold write
  split
  · rfl
  · split <;> simp_all

omit [DecidableEq Name] in
/-- A write touches nothing but the contents of the file the stream holds. -/
theorem write_directory (stream : OutStream) (bytes : List UInt8)
    (limit : Option ℕ) (store : FileStore Name) :
    (stream.write bytes limit store).2.directory = store.directory := by
  unfold write
  split
  · rfl
  · split <;> rfl

omit [DecidableEq Name] in
/-- A write changes the file the stream holds, or nothing. -/
theorem write_store (stream : OutStream) (bytes : List UInt8)
    (limit : Option ℕ) (store : FileStore Name) :
    (stream.write bytes limit store).2 = store ∨
      ∃ file position written, stream.file = some file ∧
        (stream.write bytes limit store).2 = store.write file position written := by
  unfold write
  split
  · exact Or.inl rfl
  · split
    next hnone => exact Or.inl rfl
    next file hfile => exact Or.inr ⟨file, _, _, hfile, rfl⟩

omit [DecidableEq Name] in
/-- Seeking and writing in an open, healthy stream. -/
theorem seekp_write_limit {stream : OutStream} {file : ℕ}
    (hfile : stream.file = some file) (hgood : stream.failed = false)
    (position : ℕ) (bytes : List UInt8) (limit : Option ℕ)
    (store : FileStore Name) :
    (stream.seekp position).write bytes limit store =
      (⟨some file, position + (bytes.take (limit.getD bytes.length)).length,
          limit.isSome⟩,
        store.write file position (bytes.take (limit.getD bytes.length))) := by
  obtain ⟨streamFile, streamPosition, streamFailed⟩ := stream
  simp only at hfile hgood
  subst hfile hgood
  simp [seekp, write]

omit [DecidableEq Name] in
theorem seekp_write {stream : OutStream} {file : ℕ}
    (hfile : stream.file = some file) (hgood : stream.failed = false)
    (position : ℕ) (bytes : List UInt8) (store : FileStore Name) :
    (stream.seekp position).write bytes none store =
      (⟨some file, position + bytes.length, false⟩,
        store.write file position bytes) := by
  rw [seekp_write_limit hfile hgood, Option.getD_none, List.take_length,
    Option.isSome_none]

omit [DecidableEq Name] in
/-- A stream that has failed, or fails in the seek, is not written. -/
theorem seekp_write_closed {stream : OutStream}
    (hclosed : stream.failed = true ∨ stream.file = none) (position : ℕ)
    (bytes : List UInt8) (limit : Option ℕ) (store : FileStore Name) :
    (stream.seekp position).write bytes limit store =
      ({ stream with failed := true }, store) := by
  obtain ⟨streamFile, streamPosition, streamFailed⟩ := stream
  cases streamFailed with
  | true => simp [seekp, write]
  | false =>
      simp only [Bool.false_eq_true, false_or] at hclosed
      subst hclosed
      simp [seekp, write]

omit [DecidableEq Name] in
/-- An unlimited write after a seek fails without effect, or is complete. -/
theorem seekp_write_cases (stream : OutStream) (position : ℕ) (bytes : List UInt8)
    (store : FileStore Name) :
    ((((stream.seekp position).write bytes none store).1.failed = true) ∧
      ((stream.seekp position).write bytes none store).2 = store) ∨
    ∃ file, stream.file = some file ∧ stream.failed = false ∧
      (stream.seekp position).write bytes none store =
        (⟨some file, position + bytes.length, false⟩,
          store.write file position bytes) := by
  cases hfailed : stream.failed with
  | true =>
      rw [seekp_write_closed (Or.inl hfailed)]
      exact Or.inl ⟨rfl, rfl⟩
  | false =>
      cases hfile : stream.file with
      | none =>
          rw [seekp_write_closed (Or.inr hfile)]
          exact Or.inl ⟨rfl, rfl⟩
      | some file =>
          exact Or.inr ⟨file, rfl, rfl, seekp_write hfile hfailed position bytes store⟩

omit [DecidableEq Name] in
/-- A seek and a write that leave the stream well were carried out in full. -/
theorem seekp_write_done {stream : OutStream} {position : ℕ} {bytes : List UInt8}
    {limit : Option ℕ} {store : FileStore Name}
    (hgood : ((stream.seekp position).write bytes limit store).1.failed = false) :
    ∃ file, stream.file = some file ∧ stream.failed = false ∧
      ((stream.seekp position).write bytes limit store).2 =
        store.write file position bytes := by
  cases hfailed : stream.failed with
  | true =>
      rw [seekp_write_closed (Or.inl hfailed)] at hgood
      contradiction
  | false =>
      cases hfile : stream.file with
      | none =>
          rw [seekp_write_closed (Or.inr hfile)] at hgood
          contradiction
      | some file =>
          rw [seekp_write_limit hfile hfailed] at hgood ⊢
          cases limit with
          | some count => contradiction
          | none => exact ⟨file, rfl, rfl, by simp⟩

end OutStream

/-- A file as its reader meets it: its bytes, the offset that a seek to its end reports, or
none when that seek fails, and which of the reads fail. -/
structure FileSource where
  bytes : List UInt8
  endOffset : Option ℕ
  errors : ℕ → Bool

namespace FileSource

/-- A file that reports its length and is read without failures. -/
def regular (bytes : List UInt8) : FileSource where
  bytes := bytes
  endOffset := some bytes.length
  errors := fun _ => false

/-- The number of reads of a size from the start that are served, the one that finds the
end included. -/
def readsServed (file : FileSource) (size : ℕ) : ℕ :=
  (List.range (file.bytes.length / size + 1)).findIdx file.errors

/-- The bytes that reads of a size get until one fails or finds the end. -/
def text (file : FileSource) (size : ℕ) : List UInt8 :=
  file.bytes.take (size * file.readsServed size)

/-- The end can be sought, and no read up to the one that finds it fails. -/
structure ReadThrough (file : FileSource) (size : ℕ) : Prop where
  sought : file.endOffset.isSome = true
  served : ∀ k ≤ file.bytes.length / size, file.errors k = false

variable {file : FileSource} {size k : ℕ}

theorem not_errors_of_lt (hlt : k < file.readsServed size) : file.errors k = false := by
  have hnot := List.not_of_lt_findIdx hlt
  rwa [List.getElem_range] at hnot

/-- The reads stop at a failure or at the end. -/
theorem readsServed_stop (hpos : 0 < size) :
    file.errors (file.readsServed size) = true ∨
      file.bytes.length < size * file.readsServed size := by
  by_cases hlt : file.readsServed size < (List.range (file.bytes.length / size + 1)).length
  · have herror := @List.findIdx_getElem _ file.errors _ hlt
    have hget : (List.range (file.bytes.length / size + 1))[file.readsServed size] =
        file.readsServed size := List.getElem_range hlt
    exact Or.inl (hget ▸ herror)
  · rw [List.length_range, not_lt] at hlt
    refine Or.inr (lt_of_lt_of_le (Nat.lt_mul_div_succ _ hpos) ?_)
    exact Nat.mul_le_mul_left size hlt

theorem ReadThrough.text_eq (hfile : file.ReadThrough size) (hpos : 0 < size) :
    file.text size = file.bytes := by
  refine List.take_of_length_le ?_
  rcases @readsServed_stop file size hpos with herror | hlong
  · by_cases hle : file.readsServed size ≤ file.bytes.length / size
    · rw [hfile.served _ hle] at herror
      contradiction
    · refine (Nat.lt_mul_div_succ _ hpos).le.trans ?_
      exact Nat.mul_le_mul_left size (Nat.succ_le_of_lt (not_le.mp hle))
  · exact hlong.le

theorem readThrough_regular (bytes : List UInt8) (size : ℕ) :
    (regular bytes).ReadThrough size :=
  ⟨rfl, fun _ _ => rfl⟩

end FileSource

/-- An input file stream: the bytes of the file it has open, the next position
and the state flags. -/
structure InStream where
  source : Option (List UInt8)
  position : ℕ
  eof : Bool
  fail : Bool
  bad : Bool
  deriving DecidableEq, Repr

namespace InStream

/-- Opening a file for input; there is none to read when that fails. -/
def openFile (source : Option (List UInt8)) : InStream where
  source := source
  position := 0
  eof := false
  fail := source.isNone
  bad := false

def good (stream : InStream) : Bool :=
  !(stream.eof || stream.fail || stream.bad)

/-- A seek has no effect on a failed stream. -/
def seekg (stream : InStream) (position : ℕ) : InStream :=
  if stream.fail || stream.bad then stream
  else { stream with position := position, eof := false }

/-- Reads at most `count` bytes and returns them.  `error` is a failure of the
device. -/
def read (stream : InStream) (count : ℕ) (error : Bool) :
    List UInt8 × InStream :=
  if stream.good then
    if error then ([], { stream with bad := true })
    else
      let bytes := ((stream.source.getD []).drop stream.position).take count
      let short := decide (bytes.length < count)
      (bytes, { stream with
        position := stream.position + bytes.length
        eof := short
        fail := short })
  else ([], { stream with fail := true })

/-- The number of bytes from the position to the end of the file. -/
def remaining (stream : InStream) : ℕ :=
  ((stream.source.getD []).drop stream.position).length

/-- `seekg` to the end, where the file reports the offset if that seek succeeds. -/
def seekEnd (stream : InStream) (endOffset : Option ℕ) : InStream :=
  if stream.fail || stream.bad then stream
  else match endOffset with
    | none => { stream with eof := false, fail := true }
    | some offset => { stream with position := offset, eof := false }

/-- `tellg`: the position, or `-1` when the stream has failed. -/
def tellg (stream : InStream) : ℤ :=
  if stream.fail || stream.bad then -1 else stream.position

theorem length_read_le (stream : InStream) (count : ℕ) (error : Bool) :
    (stream.read count error).1.length ≤ count := by
  unfold read
  split
  · split
    · simp
    · simp only [List.length_take]
      omega
  · simp

theorem read_good {stream : InStream} (hgood : stream.good = true)
    (count : ℕ) :
    (stream.read count false).1 =
      ((stream.source.getD []).drop stream.position).take count := by
  simp [read, hgood]

theorem good_of_read {stream : InStream} {count : ℕ} {error : Bool}
    (hne : (stream.read count error).1 ≠ []) : stream.good = true := by
  by_contra hgood
  rw [read, if_neg hgood] at hne
  exact hne rfl

/-- A read that leaves no failure was served in full. -/
theorem length_read_of_fail {stream : InStream} {count : ℕ}
    (hfail : (stream.read count false).2.fail = false) :
    (stream.read count false).1.length = count := by
  by_cases hgood : stream.good = true
  · rw [read, if_pos hgood] at hfail ⊢
    exact le_antisymm (List.length_take_le _ _) (not_lt.mp (of_decide_eq_false hfail))
  · rw [read, if_neg hgood] at hfail
    contradiction

theorem read_not_bad {stream : InStream} (hbad : stream.bad = false)
    (count : ℕ) : (stream.read count false).2.bad = false := by
  unfold read
  split <;> simp [hbad]

/-- What there is to read, counting the read that finds the end. -/
def unread (stream : InStream) : ℕ :=
  if stream.good then stream.remaining + 1 else 0

theorem unread_read_lt {stream : InStream} (hgood : stream.good = true)
    {count : ℕ} (hpos : 0 < count) (error : Bool) :
    (stream.read count error).2.unread < stream.unread := by
  rw [unread, unread, if_pos hgood, read, if_pos hgood]
  cases error with
  | true => simp [good]
  | false =>
      simp only [Bool.false_eq_true, if_false, remaining, List.length_take,
        List.length_drop]
      split_ifs with hmore
      · simp [good] at hmore
        omega
      · omega

/-- A read that is served in full leaves the stream good. -/
theorem read_of_le {stream : InStream} (hgood : stream.good = true) {count : ℕ}
    (hle : count ≤ stream.remaining) :
    (stream.read count false).2 =
      { stream with position := stream.position + count } := by
  have hflags : stream.eof = false ∧ stream.fail = false := by
    simp [good] at hgood
    exact ⟨hgood.1.1, hgood.1.2⟩
  have hlength : (((stream.source.getD []).drop stream.position).take count).length =
      count := List.length_take_of_le hle
  simp [read, hgood, hlength, hflags]

theorem read_of_lt {stream : InStream} (hgood : stream.good = true) {count : ℕ}
    (hlt : stream.remaining < count) :
    (stream.read count false).2.good = false := by
  have hlength : decide ((((stream.source.getD []).drop stream.position).take
      count).length < count) = true :=
    decide_eq_true ((List.length_take_le' _ _).trans_lt hlt)
  simp only [read, hgood, if_true, Bool.false_eq_true, if_false, hlength]
  rfl

end InStream
