import Multisync.FileStreams
import Mathlib.Tactic

/-!
# Where the bytes of files come from

If every byte that is under a name has a property at its position, and zeros have it
everywhere, then opening and renaming files keep it, and so does a write all of whose
bytes have it where they go.
-/

open ByteLayout

namespace FileStore

variable {Name : Type*} [DecidableEq Name] {S : ℕ → UInt8 → Prop} {store : FileStore Name}

/-- Every byte that is under a name comes from this source. -/
def Sourced (S : ℕ → UInt8 → Prop) (store : FileStore Name) : Prop :=
  ∀ name content k byte, store.file? name = some content → content[k]? = some byte →
    S k byte

/-- What is laid over a file comes from the source, and the gap before it. -/
theorem sourced_overlay {content new : List UInt8} {start : ℕ} (hzero : ∀ k, S k 0)
    (hcontent : ∀ k byte, content[k]? = some byte → S k byte)
    (hnew : ∀ j byte, new[j]? = some byte → S (start + j) byte) {k : ℕ} {byte : UInt8}
    (hbyte : (overlay content start new)[k]? = some byte) : S k byte := by
  by_cases hnil : new = []
  · rw [hnil, overlay_nil] at hbyte
    exact hcontent k byte hbyte
  rcases Nat.lt_or_ge k start with hbefore | hstart
  · rcases Nat.lt_or_ge k content.length with hlt | hgap
    · rw [getElem?_overlay_before hbefore hlt] at hbyte
      exact hcontent k byte hbyte
    · rw [getElem?_overlay_gap hnil hbefore hgap] at hbyte
      cases hbyte
      exact hzero k
  · rcases Nat.lt_or_ge k (start + new.length) with hinside | hafter
    · obtain ⟨j, rfl⟩ := Nat.exists_eq_add_of_le hstart
      rw [getElem?_overlay_mid (by omega)] at hbyte
      exact hnew j byte hbyte
    · rw [getElem?_overlay_after hafter] at hbyte
      exact hcontent k byte hbyte

theorem Sourced.create (hstore : store.Sourced S) (name : Name) :
    (store.create name).2.Sourced S := by
  intro other content k byte hfile hbyte
  by_cases hother : other = name
  · rw [hother, file?_create_self] at hfile
    cases hfile
    simp at hbyte
  · rw [file?_create_ne store hother] at hfile
    exact hstore other content k byte hfile hbyte

omit [DecidableEq Name] in
theorem Sourced.write (hstore : store.Sourced S) (hzero : ∀ k, S k 0) {file position : ℕ}
    {bytes : List UInt8}
    (hbytes : ∀ j byte, bytes[j]? = some byte → S (position + j) byte) :
    (store.write file position bytes).Sourced S := by
  intro name content k byte hfile hbyte
  by_cases hname : store.directory name = some file
  · rw [file?_write_self store hname] at hfile
    cases hfile
    refine sourced_overlay hzero (fun j other hother => ?_) hbytes hbyte
    apply hstore name (store.contents file) j other _ hother
    rw [file?, hname, Option.map_some]
  · rw [file?_write_ne store hname] at hfile
    exact hstore name content k byte hfile hbyte

theorem Sourced.rename (hstore : store.Sourced S) (old new : Name) :
    (store.rename old new).Sourced S := by
  intro name content k byte hfile hbyte
  cases hold : store.file? old with
  | none =>
      have hnone : store.directory old = none := Option.map_eq_none_iff.mp hold
      rw [rename_of_none store new hnone] at hfile
      exact hstore name content k byte hfile hbyte
  | some moved =>
      by_cases hnew : name = new
      · rw [hnew, file?_rename_new store new hold] at hfile
        cases hfile
        exact hstore old content k byte hold hbyte
      by_cases hname : name = old
      · subst hname
        rw [file?, rename_directory_old store hnew] at hfile
        contradiction
      · rw [file?_rename_ne store hname hnew] at hfile
        exact hstore name content k byte hfile hbyte

end FileStore

namespace OutStream

variable {Name : Type*} [DecidableEq Name] {S : ℕ → UInt8 → Prop} {store : FileStore Name}

theorem sourced_openFile (hstore : store.Sourced S) (name : Name) (permitted : Bool) :
    (openFile name permitted store).2.Sourced S := by
  unfold openFile
  split
  · exact hstore.create name
  · exact hstore

end OutStream
