import Mathlib.Order.Defs.Unbundled
import Mathlib.Tactic

/-!
# Maps ordered by a comparison

A map kept as a list of entries in strictly increasing order of their keys,
searched, extended and shortened with nothing but the comparison, as an ordered
associative container does it: the search stops at the first entry whose key is
not below the one looked for, and that entry matches when the wanted key is not
below it either.  Inserting under a key that is present changes nothing.

When the comparison is a strict total order the container is a finite partial
function, and the lemmas on `find?` say which one after each operation.
-/

namespace OrderedMap

variable {κ υ : Type*} (lt : κ → κ → Prop) [DecidableRel lt]

/-- The value at the first key not below `key`, if that key matches. -/
def lookup (key : κ) : List (κ × υ) → Option υ
  | [] => none
  | (k, v) :: rest =>
      if lt k key then lookup key rest
      else if lt key k then none else some v

/-- Insertion before the first greater key, unless the key is present. -/
def insertEntry (key : κ) (value : υ) : List (κ × υ) → List (κ × υ)
  | [] => [(key, value)]
  | (k, v) :: rest =>
      if lt k key then (k, v) :: insertEntry key value rest
      else if lt key k then (key, value) :: (k, v) :: rest
      else (k, v) :: rest

/-- Overwriting the value of a present key. -/
def replaceEntry (key : κ) (value : υ) : List (κ × υ) → List (κ × υ)
  | [] => []
  | (k, v) :: rest =>
      if lt k key then (k, v) :: replaceEntry key value rest
      else if lt key k then (k, v) :: rest
      else (k, value) :: rest

/-- Removal of a key. -/
def eraseEntry (key : κ) : List (κ × υ) → List (κ × υ)
  | [] => []
  | (k, v) :: rest =>
      if lt k key then (k, v) :: eraseEntry key rest
      else if lt key k then (k, v) :: rest
      else rest

/-- The keys increase strictly along the entries. -/
def Sorted (entries : List (κ × υ)) : Prop :=
  entries.Pairwise fun a b => lt a.1 b.1

variable {lt}

theorem mem_insertEntry {key : κ} {value : υ} {entry : κ × υ}
    {entries : List (κ × υ)} (hmem : entry ∈ insertEntry lt key value entries) :
    entry = (key, value) ∨ entry ∈ entries := by
  induction entries with
  | nil => simpa [insertEntry] using hmem
  | cons head rest ih =>
      rw [insertEntry] at hmem
      split_ifs at hmem <;> grind

theorem mem_keys_replaceEntry {key : κ} {value : υ} {entry : κ × υ}
    {entries : List (κ × υ)} (hmem : entry ∈ replaceEntry lt key value entries) :
    ∃ old ∈ entries, old.1 = entry.1 := by
  induction entries with
  | nil => simp [replaceEntry] at hmem
  | cons head rest ih =>
      rw [replaceEntry] at hmem
      split_ifs at hmem <;> grind

theorem eraseEntry_sublist (key : κ) (entries : List (κ × υ)) :
    (eraseEntry lt key entries).Sublist entries := by
  induction entries with
  | nil => exact List.Sublist.refl _
  | cons head rest ih =>
      rw [eraseEntry]
      split_ifs
      · exact ih.cons_cons head
      · exact List.Sublist.refl _
      · exact List.sublist_cons_self head rest

theorem Sorted.replaceEntry {entries : List (κ × υ)}
    (hsorted : Sorted lt entries) (key : κ) (value : υ) :
    Sorted lt (replaceEntry lt key value entries) := by
  induction entries with
  | nil => exact hsorted
  | cons head rest ih =>
      obtain ⟨hhead, hrest⟩ := List.pairwise_cons.mp hsorted
      rw [OrderedMap.replaceEntry]
      split_ifs
      · refine List.pairwise_cons.mpr ⟨?_, ih hrest⟩
        intro entry hentry
        obtain ⟨old, hold, hkey⟩ := mem_keys_replaceEntry hentry
        simpa [hkey] using hhead old hold
      · exact hsorted
      · exact List.pairwise_cons.mpr ⟨hhead, hrest⟩

theorem Sorted.eraseEntry {entries : List (κ × υ)}
    (hsorted : Sorted lt entries) (key : κ) :
    Sorted lt (eraseEntry lt key entries) :=
  List.Pairwise.sublist (eraseEntry_sublist key entries) hsorted

theorem lookup_replaceEntry_self {key : κ} {old value : υ}
    {entries : List (κ × υ)} (hfind : lookup lt key entries = some old) :
    lookup lt key (replaceEntry lt key value entries) = some value := by
  induction entries with
  | nil => simp [lookup] at hfind
  | cons head rest ih =>
      rw [lookup] at hfind
      rw [replaceEntry]
      split_ifs at hfind ⊢ with hbelow habove
      · rw [lookup, if_pos hbelow]
        exact ih hfind
      · rw [lookup, if_neg hbelow, if_neg habove]

theorem insertEntry_of_lookup {key : κ} {old : υ} (value : υ)
    {entries : List (κ × υ)} (hfind : lookup lt key entries = some old) :
    insertEntry lt key value entries = entries := by
  induction entries with
  | nil => simp [lookup] at hfind
  | cons head rest ih =>
      rw [lookup] at hfind
      rw [insertEntry]
      split_ifs at hfind ⊢ with hbelow habove
      · rw [ih hfind]
      · rfl

theorem replaceEntry_of_lookup {key : κ} {value : υ} {entries : List (κ × υ)}
    (hfind : lookup lt key entries = some value) :
    replaceEntry lt key value entries = entries := by
  induction entries with
  | nil => rfl
  | cons head rest ih =>
      rw [lookup] at hfind
      rw [replaceEntry]
      split_ifs at hfind ⊢ with hbelow habove
      · rw [ih hfind]
      · cases hfind
        rfl

theorem replaceEntry_replaceEntry (key : κ) (old value : υ) (entries : List (κ × υ)) :
    replaceEntry lt key value (replaceEntry lt key old entries) =
      replaceEntry lt key value entries := by
  induction entries with
  | nil => rfl
  | cons head rest ih =>
      by_cases hbelow : lt head.1 key
      · simp only [replaceEntry, if_pos hbelow, ih]
      · by_cases habove : lt key head.1
        · simp only [replaceEntry, if_neg hbelow, if_pos habove]
        · simp only [replaceEntry, if_neg hbelow, if_neg habove]

theorem eraseEntry_of_lookup {key : κ} {entries : List (κ × υ)}
    (hnone : lookup lt key entries = none) : eraseEntry lt key entries = entries := by
  induction entries with
  | nil => rfl
  | cons head rest ih =>
      rw [lookup] at hnone
      rw [eraseEntry]
      split_ifs at hnone ⊢ with hbelow habove
      · rw [ih hnone]
      · rfl

variable [IsStrictTotalOrder κ lt]

theorem Sorted.insertEntry {entries : List (κ × υ)}
    (hsorted : Sorted lt entries) (key : κ) (value : υ) :
    Sorted lt (insertEntry lt key value entries) := by
  induction entries with
  | nil => exact List.pairwise_singleton _ _
  | cons head rest ih =>
      obtain ⟨hhead, hrest⟩ := List.pairwise_cons.mp hsorted
      rw [OrderedMap.insertEntry]
      split_ifs with hbelow habove
      · refine List.pairwise_cons.mpr ⟨?_, ih hrest⟩
        intro entry hentry
        rcases mem_insertEntry hentry with rfl | hold
        · exact hbelow
        · exact hhead entry hold
      · refine List.pairwise_cons.mpr ⟨?_, hsorted⟩
        intro entry hentry
        rcases List.mem_cons.mp hentry with rfl | hold
        · exact habove
        · exact Trans.trans habove (hhead entry hold)
      · exact hsorted

omit [DecidableRel lt] in
theorem eq_of_not_lt {a b : κ} (hab : ¬ lt a b) (hba : ¬ lt b a) : a = b :=
  Std.Trichotomous.trichotomous a b hab hba

theorem lookup_eq_none_of_forall_lt {key : κ} {entries : List (κ × υ)}
    (hall : ∀ entry ∈ entries, lt key entry.1) : lookup lt key entries = none := by
  cases entries with
  | nil => rfl
  | cons head rest =>
      have hhead : lt key head.1 := hall head (by simp)
      rw [lookup, if_neg (asymm hhead), if_pos hhead]

theorem lookup_insertEntry_self {key : κ} {value : υ} {entries : List (κ × υ)}
    (hnone : lookup lt key entries = none) :
    lookup lt key (insertEntry lt key value entries) = some value := by
  induction entries with
  | nil => simp [insertEntry, lookup, irrefl key]
  | cons head rest ih =>
      rw [lookup] at hnone
      rw [insertEntry]
      split_ifs at hnone ⊢ with hbelow habove
      · rw [lookup, if_pos hbelow]
        exact ih hnone
      · rw [lookup, if_neg (irrefl key), if_neg (irrefl key)]

theorem lookup_insertEntry_ne {key other : κ} (hne : other ≠ key) (value : υ)
    (entries : List (κ × υ)) :
    lookup lt other (insertEntry lt key value entries) =
      lookup lt other entries := by
  have hkey : lookup lt other [(key, value)] = none := by
    rw [lookup]
    split_ifs with hbelow habove
    · rfl
    · rfl
    · exact absurd (eq_of_not_lt habove hbelow) hne
  induction entries with
  | nil => exact hkey
  | cons head rest ih =>
      rw [insertEntry]
      split_ifs with hbelow habove
      · rw [lookup, lookup, ih]
      · rw [lookup] at hkey ⊢
        split_ifs at hkey ⊢ with hother hother'
        · rfl
        · rw [lookup, if_neg (asymm (Trans.trans hother' habove)),
            if_pos (Trans.trans hother' habove)]
      · rfl

theorem lookup_replaceEntry_ne {key other : κ} (hne : other ≠ key) (value : υ)
    (entries : List (κ × υ)) :
    lookup lt other (replaceEntry lt key value entries) =
      lookup lt other entries := by
  induction entries with
  | nil => rfl
  | cons head rest ih =>
      rw [replaceEntry]
      split_ifs with hbelow habove
      · rw [lookup, lookup, ih]
      · rfl
      · have hkey : head.1 = key := eq_of_not_lt hbelow habove
        rw [lookup, lookup]
        split_ifs with hother hother'
        · rfl
        · rfl
        · exact absurd ((eq_of_not_lt hother' hother).trans hkey) hne

theorem lookup_eraseEntry_self {key : κ} {entries : List (κ × υ)}
    (hsorted : Sorted lt entries) :
    lookup lt key (eraseEntry lt key entries) = none := by
  induction entries with
  | nil => rfl
  | cons head rest ih =>
      obtain ⟨hhead, hrest⟩ := List.pairwise_cons.mp hsorted
      rw [eraseEntry]
      split_ifs with hbelow habove
      · rw [lookup, if_pos hbelow]
        exact ih hrest
      · rw [lookup, if_neg hbelow, if_pos habove]
      · have hkey : head.1 = key := eq_of_not_lt hbelow habove
        exact lookup_eq_none_of_forall_lt (by simpa [hkey] using hhead)

theorem lookup_eraseEntry_ne {key other : κ} (hne : other ≠ key)
    {entries : List (κ × υ)} (hsorted : Sorted lt entries) :
    lookup lt other (eraseEntry lt key entries) = lookup lt other entries := by
  induction entries with
  | nil => rfl
  | cons head rest ih =>
      obtain ⟨hhead, hrest⟩ := List.pairwise_cons.mp hsorted
      rw [eraseEntry]
      split_ifs with hbelow habove
      · rw [lookup, lookup, ih hrest]
      · rfl
      · have hkey : head.1 = key := eq_of_not_lt hbelow habove
        rw [lookup]
        split_ifs with hother hother'
        · rfl
        · exact lookup_eq_none_of_forall_lt fun entry hentry =>
            Trans.trans hother' (hhead entry hentry)
        · exact absurd ((eq_of_not_lt hother' hother).trans hkey) hne

end OrderedMap

/-- A finite map whose entries are kept in the order of the comparison. -/
structure OrderedMap {κ : Type*} (lt : κ → κ → Prop) (υ : Type*) where
  entries : List (κ × υ)
  sorted : OrderedMap.Sorted lt entries

namespace OrderedMap

variable {κ υ : Type*} {lt : κ → κ → Prop} [DecidableRel lt]

instance [DecidableEq κ] [DecidableEq υ] : DecidableEq (OrderedMap lt υ) :=
  fun a b => decidable_of_iff (a.entries = b.entries) (by
    cases a
    cases b
    simp)

def empty : OrderedMap lt υ := ⟨[], List.Pairwise.nil⟩

def find? (map : OrderedMap lt υ) (key : κ) : Option υ :=
  lookup lt key map.entries

/-- The map is non-empty exactly when it has an entry. -/
def isEmpty (map : OrderedMap lt υ) : Bool := map.entries.isEmpty

def replace (map : OrderedMap lt υ) (key : κ) (value : υ) : OrderedMap lt υ :=
  ⟨replaceEntry lt key value map.entries, map.sorted.replaceEntry key value⟩

def erase (map : OrderedMap lt υ) (key : κ) : OrderedMap lt υ :=
  ⟨eraseEntry lt key map.entries, map.sorted.eraseEntry key⟩

@[simp] theorem find?_empty (key : κ) :
    (empty : OrderedMap lt υ).find? key = none := rfl

theorem find?_of_isEmpty {map : OrderedMap lt υ} (hempty : map.isEmpty = true)
    (key : κ) : map.find? key = none := by
  rw [isEmpty, List.isEmpty_iff] at hempty
  rw [find?, hempty, lookup]

theorem find?_replace_self {map : OrderedMap lt υ} {key : κ} {old : υ}
    (value : υ) (hfind : map.find? key = some old) :
    (map.replace key value).find? key = some value :=
  lookup_replaceEntry_self hfind

/-- Storing the value that is there changes nothing. -/
theorem replace_of_find? {map : OrderedMap lt υ} {key : κ} {value : υ}
    (hfind : map.find? key = some value) : map.replace key value = map := by
  obtain ⟨entries, sorted⟩ := map
  simp only [replace, replaceEntry_of_lookup hfind]

/-- Of two values stored under a key the last stays. -/
theorem replace_replace (map : OrderedMap lt υ) (key : κ) (old value : υ) :
    (map.replace key old).replace key value = map.replace key value := by
  obtain ⟨entries, sorted⟩ := map
  simp only [replace, replaceEntry_replaceEntry]

theorem erase_of_find?_none {map : OrderedMap lt υ} {key : κ}
    (hnone : map.find? key = none) : map.erase key = map := by
  obtain ⟨entries, sorted⟩ := map
  simp only [erase, eraseEntry_of_lookup hnone]

variable [IsStrictTotalOrder κ lt]

def insert (map : OrderedMap lt υ) (key : κ) (value : υ) : OrderedMap lt υ :=
  ⟨insertEntry lt key value map.entries, map.sorted.insertEntry key value⟩

theorem find?_insert_self {map : OrderedMap lt υ} {key : κ} (value : υ)
    (hnone : map.find? key = none) :
    (map.insert key value).find? key = some value :=
  lookup_insertEntry_self hnone

theorem insert_of_find? {map : OrderedMap lt υ} {key : κ} {old : υ}
    (value : υ) (hfind : map.find? key = some old) : map.insert key value = map := by
  obtain ⟨entries, sorted⟩ := map
  simp only [insert, insertEntry_of_lookup value hfind]

theorem find?_insert_of_some {map : OrderedMap lt υ} {key : κ} {old : υ}
    (value : υ) (hfind : map.find? key = some old) :
    (map.insert key value).find? key = some old := by
  rw [insert_of_find? value hfind]
  exact hfind

/-- After an insertion the key is present. -/
theorem isSome_find?_insert (map : OrderedMap lt υ) (key : κ) (value : υ) :
    ((map.insert key value).find? key).isSome := by
  cases hfind : map.find? key with
  | none => rw [find?_insert_self value hfind, Option.isSome_some]
  | some old => rw [find?_insert_of_some value hfind, Option.isSome_some]

theorem insert_eq_self_iff {map : OrderedMap lt υ} {key : κ} {value : υ} :
    map.insert key value = map ↔ ∃ old, map.find? key = some old := by
  constructor
  · intro heq
    have hpresent := map.isSome_find?_insert key value
    rwa [heq, Option.isSome_iff_exists] at hpresent
  · rintro ⟨old, hfind⟩
    exact insert_of_find? value hfind

@[simp] theorem find?_insert_ne {key other : κ} (hne : other ≠ key)
    (map : OrderedMap lt υ) (value : υ) :
    (map.insert key value).find? other = map.find? other :=
  lookup_insertEntry_ne hne value map.entries

@[simp] theorem find?_replace_ne {key other : κ} (hne : other ≠ key)
    (map : OrderedMap lt υ) (value : υ) :
    (map.replace key value).find? other = map.find? other :=
  lookup_replaceEntry_ne hne value map.entries

@[simp] theorem find?_erase_self (map : OrderedMap lt υ) (key : κ) :
    (map.erase key).find? key = none :=
  lookup_eraseEntry_self map.sorted

theorem erase_eq_self_iff {map : OrderedMap lt υ} {key : κ} :
    map.erase key = map ↔ map.find? key = none := by
  constructor
  · intro heq
    rw [← heq]
    exact find?_erase_self map key
  · exact erase_of_find?_none

@[simp] theorem find?_erase_ne {key other : κ} (hne : other ≠ key)
    (map : OrderedMap lt υ) : (map.erase key).find? other = map.find? other :=
  lookup_eraseEntry_ne hne map.sorted

/-! ## What holds of every value -/

variable {map : OrderedMap lt υ} {key : κ} {value : υ} {P : κ → υ → Prop}

theorem forall_insert (hnone : map.find? key = none)
    (hothers : ∀ other found, other ≠ key → map.find? other = some found → P other found)
    (hvalue : P key value) (other : κ) (found : υ)
    (hfind : (map.insert key value).find? other = some found) : P other found := by
  by_cases hne : other = key
  · subst hne
    rw [find?_insert_self value hnone] at hfind
    cases hfind
    exact hvalue
  · rw [find?_insert_ne hne] at hfind
    exact hothers other found hne hfind

theorem forall_replace {old : υ} (hold : map.find? key = some old)
    (hothers : ∀ other found, other ≠ key → map.find? other = some found → P other found)
    (hvalue : P key value) (other : κ) (found : υ)
    (hfind : (map.replace key value).find? other = some found) : P other found := by
  by_cases hne : other = key
  · subst hne
    rw [find?_replace_self value hold] at hfind
    cases hfind
    exact hvalue
  · rw [find?_replace_ne hne] at hfind
    exact hothers other found hne hfind

/-- An injective labelling stays so when the label of the new value is new. -/
theorem injective_insert {α : Type*} {label : υ → α} (hnone : map.find? key = none)
    (hinjective : ∀ first v second w, map.find? first = some v →
      map.find? second = some w → label v = label w → first = second)
    (hfresh : ∀ other found, map.find? other = some found → label found ≠ label value)
    (first : κ) (v : υ) (second : κ) (w : υ)
    (hfirst : (map.insert key value).find? first = some v)
    (hsecond : (map.insert key value).find? second = some w)
    (heq : label v = label w) : first = second := by
  revert heq
  revert first v
  refine forall_insert hnone ?_ ?_
  · intro first v _ hfirst
    revert second w
    refine forall_insert hnone ?_ ?_
    · exact fun second w _ hsecond => hinjective first v second w hfirst hsecond
    · exact fun heq => absurd heq (hfresh first v hfirst)
  · revert second w
    refine forall_insert hnone ?_ ?_
    · exact fun second w _ hsecond heq => absurd heq.symm (hfresh second w hsecond)
    · exact fun _ => rfl

theorem forall_erase
    (hothers : ∀ other found, other ≠ key → map.find? other = some found → P other found)
    (other : κ) (found : υ) (hfind : (map.erase key).find? other = some found) :
    P other found := by
  by_cases hne : other = key
  · subst hne
    rw [find?_erase_self] at hfind
    contradiction
  · rw [find?_erase_ne hne] at hfind
    exact hothers other found hne hfind

end OrderedMap
