import Multisync.FileStreams
import Mathlib.Tactic

/-!
# Which names an operation can touch

A file that has no names but some given ones can be written without any other name
noticing.  Creating, writing and renaming stay within a set of names when the names they
are given, and those of the file they write to, belong to it.
-/

namespace FileStore

variable {Name : Type*} [DecidableEq Name] {names names' : Set Name}
  {store store' store'' : FileStore Name} {name : Name} {file : ℕ}

/-- The file has no name but these. -/
def Owned (names : Set Name) (store : FileStore Name) (file : ℕ) : Prop :=
  ∀ name, store.directory name = some file → name ∈ names

/-- Every other name has what it had. -/
def ChangedWithin (names : Set Name) (store store' : FileStore Name) : Prop :=
  ∀ name ∉ names, store'.file? name = store.file? name

omit [DecidableEq Name] in
theorem ChangedWithin.refl (names : Set Name) (store : FileStore Name) :
    ChangedWithin names store store :=
  fun _ _ => rfl

omit [DecidableEq Name] in
theorem ChangedWithin.trans (hfirst : ChangedWithin names store store')
    (hsecond : ChangedWithin names store' store'') : ChangedWithin names store store'' :=
  fun name hname => (hsecond name hname).trans (hfirst name hname)

omit [DecidableEq Name] in
theorem ChangedWithin.mono (hchanged : ChangedWithin names store store')
    (hsubset : names ⊆ names') : ChangedWithin names' store store' :=
  fun name hname => hchanged name fun hmem => hname (hsubset hmem)

omit [DecidableEq Name] in
theorem Owned.mono (howned : Owned names store file) (hsubset : names ⊆ names') :
    Owned names' store file :=
  fun name hdirectory => hsubset (howned name hdirectory)

theorem changedWithin_create (hname : name ∈ names) :
    ChangedWithin names store (store.create name).2 := by
  intro other hother
  apply file?_create_ne
  rintro rfl
  exact hother hname

/-- What is created has the name it was created under, and no other. -/
theorem owned_create (hname : name ∈ names) :
    Owned names (store.create name).2 (store.create name).1 := by
  intro other hdirectory
  rwa [(store.create name).2.unique other name _ hdirectory (store.create_directory_self name)]

theorem Owned.create (howned : Owned names store file) (hname : name ∈ names) :
    Owned names (store.create name).2 file := by
  intro other hdirectory
  by_cases hother : other = name
  · rwa [hother]
  · rw [create_directory_ne store hother] at hdirectory
    exact howned other hdirectory

omit [DecidableEq Name] in
theorem Owned.write (howned : Owned names store file) {other : ℕ} (position : ℕ)
    (bytes : List UInt8) : Owned names (store.write other position bytes) file :=
  howned

omit [DecidableEq Name] in
theorem changedWithin_write (howned : Owned names store file) (position : ℕ)
    (bytes : List UInt8) : ChangedWithin names store (store.write file position bytes) := by
  intro name hname
  apply file?_write_ne
  exact fun hdirectory => hname (howned name hdirectory)

theorem changedWithin_rename {old new : Name} (hold : old ∈ names) (hnew : new ∈ names) :
    ChangedWithin names store (store.rename old new) := by
  intro name hname
  apply file?_rename_ne
  · rintro rfl
    exact hname hold
  · rintro rfl
    exact hname hnew

theorem Owned.rename {old new : Name} (howned : Owned names store file)
    (hold : old ∈ names) (hnew : new ∈ names) :
    Owned names (store.rename old new) file := by
  intro name hdirectory
  by_cases hname : name = old ∨ name = new
  · rcases hname with rfl | rfl
    · exact hold
    · exact hnew
  · rw [rename_directory_ne store (fun h => hname (Or.inl h)) fun h => hname (Or.inr h)]
      at hdirectory
    exact howned name hdirectory

end FileStore

namespace OutStream

open FileStore

variable {Name : Type*} [DecidableEq Name] {names : Set Name} {store : FileStore Name}
  {name : Name}

theorem changedWithin_openFile (hname : name ∈ names) (permitted : Bool) :
    ChangedWithin names store (openFile name permitted store).2 := by
  unfold openFile
  split
  · exact changedWithin_create hname
  · exact .refl names store

theorem owned_openFile (hname : name ∈ names) (permitted : Bool) {file : ℕ}
    (hfile : (openFile name permitted store).1.file = some file) :
    Owned names (openFile name permitted store).2 file := by
  cases permitted with
  | false => contradiction
  | true =>
      cases hfile
      exact owned_create hname

theorem owned_of_openFile {file : ℕ} (howned : Owned names store file) (hname : name ∈ names)
    (permitted : Bool) : Owned names (openFile name permitted store).2 file := by
  unfold openFile
  split
  · exact howned.create hname
  · exact howned

end OutStream
