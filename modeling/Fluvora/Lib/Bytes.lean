import Mathlib

/-!
# Bytes on the wire

Big-endian words as byte lists, reading a word at an offset of a buffer, and cutting a buffer into
pieces of a fixed size.  A read past the end of the buffer gives `none`.
-/

namespace Fluvora

/-- A byte buffer. -/
abbrev Bytes := List UInt8

namespace Bytes

def ofU16 (n : UInt16) : Bytes := [(n >>> 8).toUInt8, n.toUInt8]

def ofU32 (n : UInt32) : Bytes :=
  [(n >>> 24).toUInt8, (n >>> 16).toUInt8, (n >>> 8).toUInt8, n.toUInt8]

/-- The little-endian bytes of a word. -/
def ofU32Le (n : UInt32) : Bytes := (ofU32 n).reverse

def toU16 (hi lo : UInt8) : UInt16 := hi.toUInt16 <<< 8 ||| lo.toUInt16

def toU32 (a b c d : UInt8) : UInt32 :=
  a.toUInt32 <<< 24 ||| b.toUInt32 <<< 16 ||| c.toUInt32 <<< 8 ||| d.toUInt32

/-- The big-endian 16-bit word at an offset. -/
def u16At (bytes : Bytes) (offset : ℕ) : Option UInt16 :=
  match bytes.drop offset with
  | hi :: lo :: _ => some (toU16 hi lo)
  | _ => none

/-- The big-endian 32-bit word at an offset. -/
def u32At (bytes : Bytes) (offset : ℕ) : Option UInt32 :=
  match bytes.drop offset with
  | a :: b :: c :: d :: _ => some (toU32 a b c d)
  | _ => none

/-- The little-endian 32-bit word at an offset. -/
def u32LeAt (bytes : Bytes) (offset : ℕ) : Option UInt32 :=
  match bytes.drop offset with
  | a :: b :: c :: d :: _ => some (toU32 d c b a)
  | _ => none

/-- Writes bytes over those at an offset. -/
def overwrite (bytes : Bytes) (offset : ℕ) (value : Bytes) : Bytes :=
  bytes.take offset ++ value ++ bytes.drop (offset + value.length)

/-- XORs bytes into those at an offset. -/
def xorAt (bytes : Bytes) (offset : ℕ) (value : Bytes) : Bytes :=
  bytes.mapIdx fun i byte =>
    if offset ≤ i ∧ i < offset + value.length then byte ^^^ value.getD (i - offset) 0 else byte

/-- The number that a buffer is in base 256, the first byte the highest. -/
def toNat (bytes : Bytes) : ℕ := bytes.foldl (fun value byte => value * 256 + byte.toNat) 0

/-- The last `width` bytes of a number in base 256. -/
def ofNat : ℕ → ℕ → Bytes
  | 0, _ => []
  | width + 1, n => ofNat width (n / 256) ++ [.ofNat n]

/-- A length rounded up to a multiple of four. -/
def pad4 (length : ℕ) : ℕ := (length + 3) / 4 * 4

/-- The consecutive pieces of `size` bytes, the last one possibly shorter. -/
def chunks (size : ℕ) (bytes : Bytes) : List Bytes :=
  (List.range ((bytes.length + size - 1) / size)).map fun index =>
    (bytes.drop (index * size)).take size

@[simp] theorem length_ofU16 (n : UInt16) : (ofU16 n).length = 2 := rfl

@[simp] theorem length_ofU32 (n : UInt32) : (ofU32 n).length = 4 := rfl

theorem length_chunks (size : ℕ) (bytes : Bytes) :
    (chunks size bytes).length = (bytes.length + size - 1) / size := by
  simp [chunks]

theorem length_le_of_mem_chunks {size : ℕ} {bytes piece : Bytes}
    (h : piece ∈ chunks size bytes) : piece.length ≤ size := by
  obtain ⟨index, -, rfl⟩ := List.mem_map.mp h
  exact List.length_take_le _ _

/-- The pieces put together are the bytes. -/
theorem flatten_chunks {size : ℕ} (hsize : 0 < size) (bytes : Bytes) :
    (chunks size bytes).flatten = bytes := by
  have htake : ∀ count : ℕ, ((List.range count).map fun index =>
      (bytes.drop (index * size)).take size).flatten = bytes.take (count * size) := by
    intro count
    induction count with
    | zero => simp
    | succ count ih =>
      rw [List.range_succ, List.map_append, List.flatten_append, ih, Nat.succ_mul, List.take_add]
      simp
  rw [chunks, htake, List.take_of_length_le]
  have hdiv := Nat.div_add_mod (bytes.length + size - 1) size
  have hmod := Nat.mod_lt (bytes.length + size - 1) hsize
  rw [Nat.mul_comm] at hdiv
  omega

theorem exists_u16At (bytes : Bytes) (offset : ℕ) (h : offset + 2 ≤ bytes.length) :
    ∃ n, bytes.u16At offset = some n := by
  have hlen : 2 ≤ (bytes.drop offset).length := by
    rw [List.length_drop]
    omega
  unfold u16At
  match bytes.drop offset, hlen with
  | hi :: lo :: _, _ => exact ⟨_, rfl⟩

theorem exists_u32At (bytes : Bytes) (offset : ℕ) (h : offset + 4 ≤ bytes.length) :
    ∃ n, bytes.u32At offset = some n := by
  have hlen : 4 ≤ (bytes.drop offset).length := by
    rw [List.length_drop]
    omega
  unfold u32At
  match bytes.drop offset, hlen with
  | a :: b :: c :: d :: _, _ => exact ⟨_, rfl⟩

@[simp] theorem length_xorAt (bytes : Bytes) (offset : ℕ) (value : Bytes) :
    (bytes.xorAt offset value).length = bytes.length := by
  simp [xorAt]

theorem getElem?_xorAt (bytes : Bytes) (offset : ℕ) (value : Bytes) (i : ℕ) :
    (bytes.xorAt offset value)[i]? = bytes[i]?.map fun byte =>
      if offset ≤ i ∧ i < offset + value.length then byte ^^^ value.getD (i - offset) 0
      else byte := by
  simp [xorAt]

/-- Behind the end of the buffer there is nothing to change. -/
theorem xorAt_of_le {bytes : Bytes} {offset : ℕ} (value : Bytes) (h : bytes.length ≤ offset) :
    bytes.xorAt offset value = bytes := by
  apply List.ext_getElem?
  intro i
  rw [getElem?_xorAt]
  by_cases hi : i < bytes.length
  · simp [hi, show ¬offset ≤ i by omega]
  · simp [hi]

theorem take_xorAt (bytes : Bytes) (offset : ℕ) (value : Bytes) (n : ℕ) :
    (bytes.xorAt offset value).take n = xorAt (bytes.take n) offset value := by
  apply List.ext_getElem?
  intro i
  rw [getElem?_xorAt, List.getElem?_take, List.getElem?_take, getElem?_xorAt]
  by_cases hi : i < n
  · rw [if_pos hi, if_pos hi]
  · rw [if_neg hi, if_neg hi]
    rfl

theorem xorAt_append {bytes : Bytes} {offset : ℕ} {value : Bytes} (rest : Bytes)
    (h : offset + value.length ≤ bytes.length) :
    xorAt (bytes ++ rest) offset value = bytes.xorAt offset value ++ rest := by
  apply List.ext_getElem?
  intro i
  by_cases hi : i < bytes.length
  · rw [getElem?_xorAt, List.getElem?_append_left hi,
      List.getElem?_append_left (by simpa using hi), getElem?_xorAt]
  · rw [getElem?_xorAt, List.getElem?_append_right (by omega),
      List.getElem?_append_right (by simpa using hi), length_xorAt]
    have hout : ¬(offset ≤ i ∧ i < offset + value.length) := by omega
    simp [hout]

/-- What is mixed into a buffer can be told from the result. -/
theorem xorAt_inj {bytes value other : Bytes} {offset : ℕ} (hlen : value.length = other.length)
    (hfit : offset + value.length ≤ bytes.length)
    (h : bytes.xorAt offset value = bytes.xorAt offset other) : value = other := by
  apply List.ext_getElem hlen
  intro i hi hi'
  have hat := congrArg (fun bytes : Bytes => bytes[offset + i]?) h
  have hbyte : offset + i < bytes.length := by omega
  simp only [getElem?_xorAt, List.getElem?_eq_getElem hbyte, Option.map_some,
    Option.some.injEq] at hat
  rw [if_pos ⟨by omega, by omega⟩, if_pos ⟨by omega, by omega⟩, Nat.add_sub_cancel_left,
    List.getD_eq_getElem _ _ hi, List.getD_eq_getElem _ _ hi'] at hat
  exact (UInt8.xor_right_inj _).mp hat

@[simp] theorem length_ofNat (width n : ℕ) : (ofNat width n).length = width := by
  induction width generalizing n with
  | zero => rfl
  | succ width ih => simp [ofNat, ih]

@[simp] theorem toNat_nil : toNat [] = 0 := rfl

@[simp] theorem toNat_append_singleton (bytes : Bytes) (byte : UInt8) :
    toNat (bytes ++ [byte]) = toNat bytes * 256 + byte.toNat := by
  simp [toNat]

/-- The last bytes of a number are the number modulo their range. -/
theorem toNat_ofNat (width n : ℕ) : toNat (ofNat width n) = n % 256 ^ width := by
  induction width generalizing n with
  | zero => simp [ofNat, Nat.mod_one]
  | succ width ih =>
    have hsplit : n % 256 ^ (width + 1) = n % 256 + 256 * (n / 256 % 256 ^ width) := by
      rw [pow_succ' 256 width, Nat.mod_mul]
    rw [ofNat, toNat_append_singleton, ih, UInt8.toNat_ofNat', hsplit]
    omega

theorem toNat_lt (bytes : Bytes) : toNat bytes < 256 ^ bytes.length := by
  induction bytes using List.reverseRecOn with
  | nil => simp
  | append_singleton bytes byte ih =>
    rw [toNat_append_singleton, List.length_append, List.length_singleton, pow_succ]
    have hbyte := byte.toNat_lt
    omega

/-- Buffers of one length are told apart by their numbers. -/
theorem toNat_inj {a b : Bytes} (hlen : a.length = b.length) (h : toNat a = toNat b) : a = b := by
  induction a using List.reverseRecOn generalizing b with
  | nil =>
    rw [List.length_nil] at hlen
    exact (List.length_eq_zero_iff.mp hlen.symm).symm
  | append_singleton as a ih =>
    rcases List.eq_nil_or_concat' b with rfl | ⟨bs, b, rfl⟩
    · simp at hlen
    rw [toNat_append_singleton, toNat_append_singleton] at h
    have ha := a.toNat_lt
    have hb := b.toNat_lt
    have hlast : a = b := by
      apply UInt8.toNat_inj.mp
      omega
    rw [ih (by simpa using hlen) (by omega), hlast]

/-- Fewer bytes of a number are the last of its bytes. -/
theorem drop_ofNat (width k n : ℕ) : (ofNat (width + k) n).drop k = ofNat width n := by
  induction width generalizing n with
  | zero => simp [ofNat]
  | succ width ih =>
    rw [show width + 1 + k = width + k + 1 by omega, ofNat,
      List.drop_append_of_le_length (by simp), ih, ofNat]

/-- A buffer is the bytes of its number. -/
theorem ofNat_toNat (bytes : Bytes) : ofNat bytes.length (toNat bytes) = bytes := by
  apply toNat_inj (length_ofNat _ _)
  rw [toNat_ofNat, Nat.mod_eq_of_lt (toNat_lt bytes)]

/-! ## Words as numbers -/

theorem toNat_toU16 (hi lo : UInt8) : (toU16 hi lo).toNat = toNat [hi, lo] := by
  have hlo := lo.toNat_lt
  have hhi := hi.toNat_lt
  have hshift : (hi.toUInt16 <<< 8).toNat = hi.toNat <<< 8 := by
    simp [Nat.shiftLeft_eq]
    omega
  rw [toU16, UInt16.toNat_or, hshift, UInt8.toNat_toUInt16, ← Nat.shiftLeft_add_eq_or_of_lt hlo]
  simp [toNat, Nat.shiftLeft_eq]

theorem toNat_toU32 (a b c d : UInt8) : (toU32 a b c d).toNat = toNat [a, b, c, d] := by
  have ha := a.toNat_lt
  have hb := b.toNat_lt
  have hc := c.toNat_lt
  have hd := d.toNat_lt
  have hshift : (a.toUInt32 <<< 24).toNat = a.toNat <<< 24 := by
    simp [Nat.shiftLeft_eq]
    omega
  have hshiftb : (b.toUInt32 <<< 16).toNat = b.toNat <<< 16 := by
    simp [Nat.shiftLeft_eq]
    omega
  have hshiftc : (c.toUInt32 <<< 8).toNat = c.toNat <<< 8 := by
    simp [Nat.shiftLeft_eq]
    omega
  have hab : a.toNat <<< 24 ||| b.toNat <<< 16 = (a.toNat <<< 8 + b.toNat) <<< 16 := by
    rw [Nat.shiftLeft_add_eq_or_of_lt hb, Nat.shiftLeft_or_distrib, ← Nat.shiftLeft_add]
  have hbc : (a.toNat <<< 8 + b.toNat) <<< 16 ||| c.toNat <<< 8 =
      ((a.toNat <<< 8 + b.toNat) <<< 8 + c.toNat) <<< 8 := by
    rw [Nat.shiftLeft_add_eq_or_of_lt hc, Nat.shiftLeft_or_distrib, ← Nat.shiftLeft_add]
  rw [toU32, UInt32.toNat_or, UInt32.toNat_or, UInt32.toNat_or, hshift, hshiftb, hshiftc,
    UInt8.toNat_toUInt32, hab, hbc, ← Nat.shiftLeft_add_eq_or_of_lt hd]
  simp [toNat, Nat.shiftLeft_eq]

theorem ofU16_eq_ofNat (n : UInt16) : ofU16 n = ofNat 2 n.toNat := by
  simp [ofU16, ofNat, ← UInt8.toNat_inj, Nat.shiftRight_eq_div_pow]

theorem ofU32_eq_ofNat (n : UInt32) : ofU32 n = ofNat 4 n.toNat := by
  apply List.ext_getElem (by simp)
  intro i hi _
  rw [length_ofU32] at hi
  interval_cases i <;>
    simp [ofU32, ofNat, ← UInt8.toNat_inj, Nat.shiftRight_eq_div_pow, Nat.div_div_eq_div_mul]

/-- The bytes of a word that was read. -/
theorem ofU16_toU16 (hi lo : UInt8) : ofU16 (toU16 hi lo) = [hi, lo] := by
  rw [ofU16_eq_ofNat, toNat_toU16]
  exact ofNat_toNat [hi, lo]

theorem ofU32_toU32 (a b c d : UInt8) : ofU32 (toU32 a b c d) = [a, b, c, d] := by
  rw [ofU32_eq_ofNat, toNat_toU32]
  exact ofNat_toNat [a, b, c, d]

theorem ofU32_inj {m n : UInt32} (h : ofU32 m = ofU32 n) : m = n := by
  rw [ofU32_eq_ofNat, ofU32_eq_ofNat] at h
  have hnat := congrArg toNat h
  rw [toNat_ofNat, toNat_ofNat] at hnat
  have hm := m.toNat_lt
  have hn := n.toNat_lt
  exact UInt32.toNat_inj.mp (by omega)

/-- A word that is written at an offset is read back. -/
theorem u16At_of_drop {bytes : Bytes} {offset : ℕ} {n : UInt16} {rest : Bytes}
    (h : bytes.drop offset = ofU16 n ++ rest) : bytes.u16At offset = some n := by
  rw [u16At, h]
  show some (toU16 _ _) = some n
  congr 1
  apply UInt16.toNat_inj.mp
  rw [toNat_toU16]
  show toNat (ofU16 n) = _
  rw [ofU16_eq_ofNat, toNat_ofNat]
  exact Nat.mod_eq_of_lt n.toNat_lt

theorem toU16_ofU16 (n : UInt16) : toU16 (n >>> 8).toUInt8 n.toUInt8 = n := by
  have h : u16At (ofU16 n) 0 = some n := @u16At_of_drop _ 0 n [] rfl
  exact Option.some.inj h

theorem u32At_of_drop {bytes : Bytes} {offset : ℕ} {n : UInt32} {rest : Bytes}
    (h : bytes.drop offset = ofU32 n ++ rest) : bytes.u32At offset = some n := by
  rw [u32At, h]
  show some (toU32 _ _ _ _) = some n
  congr 1
  apply UInt32.toNat_inj.mp
  rw [toNat_toU32]
  show toNat (ofU32 n) = _
  rw [ofU32_eq_ofNat, toNat_ofNat]
  exact Nat.mod_eq_of_lt n.toNat_lt

/-- What stands behind a known front. -/
theorem drop_behind {bytes front rest : Bytes} {offset next : ℕ}
    (h : bytes.drop offset = front ++ rest) (hnext : offset + front.length = next) :
    bytes.drop next = rest := by
  rw [← hnext, ← List.drop_drop, h]
  exact List.drop_left

/-! ## Reading words -/

theorem u16At_eq (bytes : Bytes) (offset : ℕ) :
    bytes.u16At offset = bytes[offset]?.bind fun hi => bytes[offset + 1]?.map (toU16 hi) := by
  have h0 : bytes[offset]? = (bytes.drop offset)[0]? := by simp
  have h1 : bytes[offset + 1]? = (bytes.drop offset)[1]? := by simp
  rw [h0, h1, u16At]
  rcases bytes.drop offset with _ | ⟨a, _ | ⟨b, rest⟩⟩ <;> rfl

theorem u32At_eq (bytes : Bytes) (offset : ℕ) :
    bytes.u32At offset = bytes[offset]?.bind fun a => bytes[offset + 1]?.bind fun b =>
      bytes[offset + 2]?.bind fun c => bytes[offset + 3]?.map (toU32 a b c) := by
  have h0 : bytes[offset]? = (bytes.drop offset)[0]? := by simp
  have h1 : bytes[offset + 1]? = (bytes.drop offset)[1]? := by simp
  have h2 : bytes[offset + 2]? = (bytes.drop offset)[2]? := by simp
  have h3 : bytes[offset + 3]? = (bytes.drop offset)[3]? := by simp
  rw [h0, h1, h2, h3, u32At]
  rcases bytes.drop offset with _ | ⟨a, _ | ⟨b, _ | ⟨c, _ | ⟨d, rest⟩⟩⟩⟩ <;> rfl

/-- Buffers with a common front have its bytes in common. -/
theorem getElem?_eq_of_take {a b : Bytes} {n i : ℕ} (h : a.take n = b.take n) (hi : i < n) :
    a[i]? = b[i]? := by
  have hat := congrArg (fun bytes : Bytes => bytes[i]?) h
  simpa [hi] using hat

theorem u16At_eq_of_take {a b : Bytes} {n offset : ℕ} (h : a.take n = b.take n)
    (hoffset : offset + 2 ≤ n) : a.u16At offset = b.u16At offset := by
  rw [u16At_eq, u16At_eq, getElem?_eq_of_take h (by omega), getElem?_eq_of_take h (by omega)]

theorem u32At_eq_of_take {a b : Bytes} {n offset : ℕ} (h : a.take n = b.take n)
    (hoffset : offset + 4 ≤ n) : a.u32At offset = b.u32At offset := by
  rw [u32At_eq, u32At_eq, getElem?_eq_of_take h (by omega), getElem?_eq_of_take h (by omega),
    getElem?_eq_of_take h (by omega), getElem?_eq_of_take h (by omega)]

theorem length_of_u16At {bytes : Bytes} {offset : ℕ} {n : UInt16} (h : bytes.u16At offset = some n) :
    offset + 2 ≤ bytes.length := by
  by_contra hshort
  have hnone : bytes[offset + 1]? = none := List.getElem?_eq_none (by omega)
  rw [u16At_eq, hnone] at h
  cases hfirst : bytes[offset]? <;> simp [hfirst] at h

theorem length_of_u32At {bytes : Bytes} {offset : ℕ} {n : UInt32} (h : bytes.u32At offset = some n) :
    offset + 4 ≤ bytes.length := by
  by_contra hshort
  have hnone : bytes[offset + 3]? = none := List.getElem?_eq_none (by omega)
  rw [u32At_eq, hnone] at h
  simp at h

end Bytes

end Fluvora
