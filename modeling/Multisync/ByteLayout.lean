import Mathlib.Data.List.Basic
import Mathlib.Tactic

/-!
# Byte layouts

Unsigned words as bytes in memory, and the two byte sequences a program reads
and writes at an offset: a window of fixed length, read past the end as zeros,
and an overlay, which fills the gap before it with zeros.

A word lies in memory in the byte order of its host.  The network order is the
big-endian one; `hton` and `ntoh` are the conversions of the sockets library,
the identity on a big-endian host.
-/

namespace ByteLayout

/-- The order in which a host stores the bytes of a word. -/
inductive ByteOrder where
  | little
  | big
  deriving DecidableEq, Repr

/-- The `width` bytes of a number, most significant byte first. -/
def toBytes : ℕ → ℕ → List UInt8
  | 0, _ => []
  | width + 1, value => toBytes width (value / 256) ++ [UInt8.ofNat value]

/-- The number with the given bytes, most significant byte first. -/
def ofBytes (bytes : List UInt8) : ℕ :=
  bytes.foldl (fun value byte => value * 256 + byte.toNat) 0

@[simp] theorem length_toBytes (width value : ℕ) :
    (toBytes width value).length = width := by
  induction width generalizing value with
  | zero => rfl
  | succ width ih => simp [toBytes, ih]

theorem ofBytes_append_singleton (bytes : List UInt8) (byte : UInt8) :
    ofBytes (bytes ++ [byte]) = ofBytes bytes * 256 + byte.toNat := by
  simp [ofBytes]

theorem ofBytes_lt (bytes : List UInt8) :
    ofBytes bytes < 256 ^ bytes.length := by
  induction bytes using List.reverseRecOn with
  | nil => simp [ofBytes]
  | append_singleton bytes byte ih =>
      have hbyte : byte.toNat < 256 := byte.toNat_lt
      rw [ofBytes_append_singleton, List.length_append, List.length_singleton,
        pow_succ]
      omega

theorem ofBytes_toBytes (width value : ℕ) :
    ofBytes (toBytes width value) = value % 256 ^ width := by
  induction width generalizing value with
  | zero => simp [toBytes, ofBytes, Nat.mod_one]
  | succ width ih =>
      rw [toBytes, ofBytes_append_singleton, ih, pow_succ', Nat.mod_mul,
        UInt8.toNat_ofNat']
      omega

theorem toBytes_ofBytes (bytes : List UInt8) :
    toBytes bytes.length (ofBytes bytes) = bytes := by
  induction bytes using List.reverseRecOn with
  | nil => rfl
  | append_singleton bytes byte ih =>
      have hbyte : byte.toNat < 256 := byte.toNat_lt
      have hdiv : (ofBytes bytes * 256 + byte.toNat) / 256 = ofBytes bytes := by
        omega
      have hlow : UInt8.ofNat (ofBytes bytes * 256 + byte.toNat) = byte := by
        apply UInt8.toNat_inj.mp
        rw [UInt8.toNat_ofNat']
        omega
      rw [List.length_append, List.length_singleton, toBytes,
        ofBytes_append_singleton, hdiv, hlow, ih]

namespace ByteOrder

/-- Network order bytes, arranged as the host stores them. -/
def arrange : ByteOrder → List UInt8 → List UInt8
  | .little, bytes => bytes.reverse
  | .big, bytes => bytes

@[simp] theorem length_arrange (order : ByteOrder) (bytes : List UInt8) :
    (order.arrange bytes).length = bytes.length := by
  cases order <;> simp [arrange]

@[simp] theorem arrange_arrange (order : ByteOrder) (bytes : List UInt8) :
    order.arrange (order.arrange bytes) = bytes := by
  cases order <;> simp [arrange]

/-- The four bytes of a 32-bit word in the memory of the host. -/
def store32 (order : ByteOrder) (word : UInt32) : List UInt8 :=
  order.arrange (toBytes 4 word.toNat)

/-- The 32-bit word the host reads from four bytes of memory. -/
def load32 (order : ByteOrder) (bytes : List UInt8) : UInt32 :=
  UInt32.ofNat (ofBytes (order.arrange bytes))

/-- The two bytes of a 16-bit word in the memory of the host. -/
def store16 (order : ByteOrder) (word : UInt16) : List UInt8 :=
  order.arrange (toBytes 2 word.toNat)

/-- The 16-bit word the host reads from two bytes of memory. -/
def load16 (order : ByteOrder) (bytes : List UInt8) : UInt16 :=
  UInt16.ofNat (ofBytes (order.arrange bytes))

/-- Host to network order: the word whose bytes in the host's memory are the
big-endian bytes of the argument. -/
def htonl (order : ByteOrder) (word : UInt32) : UInt32 :=
  order.load32 (toBytes 4 word.toNat)

/-- Network to host order. -/
def ntohl (order : ByteOrder) (word : UInt32) : UInt32 :=
  UInt32.ofNat (ofBytes (order.store32 word))

def htons (order : ByteOrder) (word : UInt16) : UInt16 :=
  order.load16 (toBytes 2 word.toNat)

def ntohs (order : ByteOrder) (word : UInt16) : UInt16 :=
  UInt16.ofNat (ofBytes (order.store16 word))

variable (order : ByteOrder)

@[simp] theorem length_store32 (word : UInt32) :
    (order.store32 word).length = 4 := by
  simp [store32]

@[simp] theorem length_store16 (word : UInt16) :
    (order.store16 word).length = 2 := by
  simp [store16]

theorem toNat_load32 {bytes : List UInt8} (hlength : bytes.length = 4) :
    (order.load32 bytes).toNat = ofBytes (order.arrange bytes) := by
  have hlt := ofBytes_lt (order.arrange bytes)
  rw [length_arrange, hlength] at hlt
  rw [load32, UInt32.toNat_ofNat']
  omega

theorem toNat_load16 {bytes : List UInt8} (hlength : bytes.length = 2) :
    (order.load16 bytes).toNat = ofBytes (order.arrange bytes) := by
  have hlt := ofBytes_lt (order.arrange bytes)
  rw [length_arrange, hlength] at hlt
  rw [load16, UInt16.toNat_ofNat']
  omega

@[simp] theorem load32_store32 (word : UInt32) :
    order.load32 (order.store32 word) = word := by
  have hlt : word.toNat < 4294967296 := word.toNat_lt
  apply UInt32.toNat_inj.mp
  rw [toNat_load32 order (length_store32 order word), store32,
    arrange_arrange, ofBytes_toBytes]
  omega

@[simp] theorem load16_store16 (word : UInt16) :
    order.load16 (order.store16 word) = word := by
  have hlt : word.toNat < 65536 := word.toNat_lt
  apply UInt16.toNat_inj.mp
  rw [toNat_load16 order (length_store16 order word), store16,
    arrange_arrange, ofBytes_toBytes]
  omega

theorem store32_load32 {bytes : List UInt8} (hlength : bytes.length = 4) :
    order.store32 (order.load32 bytes) = bytes := by
  have hlen : (order.arrange bytes).length = 4 := by simp [hlength]
  rw [store32, toNat_load32 order hlength, ← hlen, toBytes_ofBytes,
    arrange_arrange]

theorem store16_load16 {bytes : List UInt8} (hlength : bytes.length = 2) :
    order.store16 (order.load16 bytes) = bytes := by
  have hlen : (order.arrange bytes).length = 2 := by simp [hlength]
  rw [store16, toNat_load16 order hlength, ← hlen, toBytes_ofBytes,
    arrange_arrange]

/-- A word converted to network order lies in memory as its big-endian bytes,
whatever the host. -/
@[simp] theorem store32_htonl (word : UInt32) :
    order.store32 (order.htonl word) = toBytes 4 word.toNat :=
  order.store32_load32 (length_toBytes 4 word.toNat)

theorem ntohl_load32 {bytes : List UInt8} (hlength : bytes.length = 4) :
    order.ntohl (order.load32 bytes) = UInt32.ofNat (ofBytes bytes) := by
  rw [ntohl, order.store32_load32 hlength]

theorem ntohs_load16 {bytes : List UInt8} (hlength : bytes.length = 2) :
    order.ntohs (order.load16 bytes) = UInt16.ofNat (ofBytes bytes) := by
  rw [ntohs, order.store16_load16 hlength]

@[simp] theorem ofNat_ofBytes_toBytes32 (word : UInt32) :
    UInt32.ofNat (ofBytes (toBytes 4 word.toNat)) = word := by
  have hlt : word.toNat < 4294967296 := word.toNat_lt
  rw [ofBytes_toBytes, Nat.mod_eq_of_lt (by omega), UInt32.ofNat_toNat]

@[simp] theorem ofNat_ofBytes_toBytes16 (word : UInt16) :
    UInt16.ofNat (ofBytes (toBytes 2 word.toNat)) = word := by
  have hlt : word.toNat < 65536 := word.toNat_lt
  rw [ofBytes_toBytes, Nat.mod_eq_of_lt (by omega), UInt16.ofNat_toNat]

@[simp] theorem ntohl_htonl (word : UInt32) :
    order.ntohl (order.htonl word) = word := by
  rw [htonl, order.ntohl_load32 (length_toBytes 4 _), ofNat_ofBytes_toBytes32]

@[simp] theorem ntohs_htons (word : UInt16) :
    order.ntohs (order.htons word) = word := by
  rw [htons, order.ntohs_load16 (length_toBytes 2 _), ofNat_ofBytes_toBytes16]

/-- The two network order conversions agree on every host. -/
theorem ntohs_eq_htons (word : UInt16) : order.ntohs word = order.htons word := by
  cases order <;> rfl

@[simp] theorem htonl_zero : order.htonl 0 = 0 := by
  cases order <;> decide

end ByteOrder

/-! ## Windows and overlays -/

/-- The `length` bytes from `start` on; what lies past the end reads as zero. -/
def window (bytes : List UInt8) (start length : ℕ) : List UInt8 :=
  ((bytes ++ List.replicate (start + length) 0).drop start).take length

@[simp] theorem length_window (bytes : List UInt8) (start length : ℕ) :
    (window bytes start length).length = length := by
  simp only [window, List.length_take, List.length_drop, List.length_append,
    List.length_replicate]
  omega

theorem window_eq_of_le {bytes : List UInt8} {start length : ℕ}
    (hle : start + length ≤ bytes.length) :
    window bytes start length = (bytes.drop start).take length := by
  rw [window, List.drop_append_of_le_length (by omega),
    List.take_append_of_le_length (by simp only [List.length_drop]; omega)]

theorem getElem?_window (bytes : List UInt8) {start length k : ℕ}
    (hk : k < length) :
    (window bytes start length)[k]? = some (bytes[start + k]?.getD 0) := by
  rw [window, List.getElem?_take_of_lt hk, List.getElem?_drop]
  by_cases hin : start + k < bytes.length
  · rw [List.getElem?_append_left hin, List.getElem?_eq_getElem hin]
    rfl
  · rw [List.getElem?_append_right (by omega), List.getElem?_replicate,
      if_pos (by omega), List.getElem?_eq_none (by omega)]
    rfl

/-- A window of a window is a window. -/
theorem window_window (bytes : List UInt8) {outer size inner length : ℕ}
    (hle : inner + length ≤ size) :
    window (window bytes outer size) inner length =
      window bytes (outer + inner) length := by
  apply List.ext_getElem?
  intro k
  by_cases hk : k < length
  · rw [getElem?_window _ hk, getElem?_window _ hk,
      getElem?_window _ (by omega), Option.getD_some, Nat.add_assoc]
  · rw [List.getElem?_eq_none (by simp; omega),
      List.getElem?_eq_none (by simp; omega)]

/-- A field between known neighbours is read back as it was laid out. -/
theorem window_append (before field after : List UInt8) :
    window (before ++ (field ++ after)) before.length field.length = field := by
  rw [window_eq_of_le (by simp only [List.length_append]; omega),
    List.drop_left, List.take_left]

/-- What is laid out before does not matter. -/
theorem window_append_right (before bytes : List UInt8) (start length : ℕ) :
    window (before ++ bytes) (before.length + start) length =
      window bytes start length := by
  apply List.ext_getElem?
  intro k
  by_cases hk : k < length
  · rw [getElem?_window _ hk, getElem?_window _ hk, Nat.add_assoc,
      List.getElem?_append_right (Nat.le_add_right _ _), Nat.add_sub_cancel_left]
  · rw [List.getElem?_eq_none (by simp; omega),
      List.getElem?_eq_none (by simp; omega)]

/-- Laying bytes over a sequence: a gap before them is filled with zeros, and
laying nothing changes nothing. -/
def overlay (bytes : List UInt8) (start : ℕ) (new : List UInt8) : List UInt8 :=
  if new = [] then bytes
  else (bytes ++ List.replicate (start - bytes.length) 0).take start ++
    (new ++ bytes.drop (start + new.length))

@[simp] theorem overlay_nil (bytes : List UInt8) (start : ℕ) :
    overlay bytes start [] = bytes := by
  simp [overlay]

/-- Replacing a field between known neighbours. -/
theorem overlay_append (before field after new : List UInt8)
    (hlength : new.length = field.length) :
    overlay (before ++ (field ++ after)) before.length new =
      before ++ (new ++ after) := by
  by_cases hnew : new = []
  · subst hnew
    have hfield : field = [] := List.eq_nil_of_length_eq_zero hlength.symm
    simp [hfield]
  · have hdrop : (before ++ (field ++ after)).drop
        (before.length + new.length) = after := by
      rw [← List.append_assoc, hlength, ← List.length_append, List.drop_left]
    rw [overlay, if_neg hnew, hdrop, List.append_assoc, List.take_left]

theorem length_overlay {bytes new : List UInt8} {start : ℕ} (hnew : new ≠ []) :
    (overlay bytes start new).length =
      max bytes.length (start + new.length) := by
  simp only [overlay, if_neg hnew, List.length_append, List.length_take,
    List.length_replicate, List.length_drop]
  omega

theorem getElem?_overlay_mid {bytes new : List UInt8} {start k : ℕ}
    (hk : k < new.length) :
    (overlay bytes start new)[start + k]? = new[k]? := by
  have hnew : new ≠ [] := by
    rintro rfl
    simp at hk
  have hpre : ((bytes ++ List.replicate (start - bytes.length) 0).take start).length =
      start := by
    simp only [List.length_take, List.length_append, List.length_replicate]
    omega
  rw [overlay, if_neg hnew, List.getElem?_append_right (by omega), hpre,
    List.getElem?_append_left (by omega)]
  congr 1
  omega

theorem getElem?_overlay_after {bytes new : List UInt8} {start k : ℕ}
    (hk : start + new.length ≤ k) :
    (overlay bytes start new)[k]? = bytes[k]? := by
  by_cases hnew : new = []
  · simp [hnew]
  have hpre : ((bytes ++ List.replicate (start - bytes.length) 0).take start).length =
      start := by
    simp only [List.length_take, List.length_append, List.length_replicate]
    omega
  rw [overlay, if_neg hnew, List.getElem?_append_right (by omega), hpre,
    List.getElem?_append_right (by omega), List.getElem?_drop]
  congr 1
  omega

theorem getElem?_overlay_before {bytes new : List UInt8} {start k : ℕ}
    (hstart : k < start) (hk : k < bytes.length) :
    (overlay bytes start new)[k]? = bytes[k]? := by
  by_cases hnew : new = []
  · simp [hnew]
  rw [overlay, if_neg hnew, List.getElem?_append_left (by
      simp only [List.length_take, List.length_append, List.length_replicate]
      omega), List.getElem?_take_of_lt hstart, List.getElem?_append_left hk]

/-- The gap before what was laid is filled with zeros. -/
theorem getElem?_overlay_gap {bytes new : List UInt8} {start k : ℕ} (hnew : new ≠ [])
    (hstart : k < start) (hk : bytes.length ≤ k) :
    (overlay bytes start new)[k]? = some 0 := by
  rw [overlay, if_neg hnew, List.getElem?_append_left (by
      simp only [List.length_take, List.length_append, List.length_replicate]
      omega), List.getElem?_take_of_lt hstart, List.getElem?_append_right hk,
    List.getElem?_replicate, if_pos (by omega)]

end ByteLayout
