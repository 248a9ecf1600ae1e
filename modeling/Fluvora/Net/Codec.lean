import Fluvora.Lib.Bytes
import Fluvora.Lib.Results

/-!
# Cursors and bounded buffers

The checked primitives of `crates/foundation/bytes-codec`: a cursor over received bytes, which never
stands behind their end, and a writer with a limit.  A read is described by the unread bytes
(`take_rest`), a write by the bytes it appends (`extendFromSlice_eq_ok`).
-/

namespace Fluvora

open Results

structure DecodeError where
  offset : ℕ
  needed : ℕ
  remaining : ℕ
deriving DecidableEq

structure EncodeError where
  current : ℕ
  additional : ℕ
  limit : ℕ
deriving DecidableEq

/-- A checked cursor over an immutable byte slice. -/
structure ReadCursor where
  input : Bytes
  offset : ℕ
  offset_le : offset ≤ input.length

namespace ReadCursor

def new (input : Bytes) : ReadCursor := ⟨input, 0, Nat.zero_le _⟩

def remaining (cursor : ReadCursor) : ℕ := cursor.input.length - cursor.offset

def isEmpty (cursor : ReadCursor) : Bool := cursor.remaining = 0

/-- The unread suffix. -/
def rest (cursor : ReadCursor) : Bytes := cursor.input.drop cursor.offset

theorem offset_add_le {cursor : ReadCursor} {length : ℕ} (h : length ≤ cursor.remaining) :
    cursor.offset + length ≤ cursor.input.length := by
  have hoffset := cursor.offset_le
  unfold remaining at h
  omega

/-- The next `length` bytes, and the cursor behind them. -/
def take (cursor : ReadCursor) (length : ℕ) : Except DecodeError (Bytes × ReadCursor) :=
  if h : length ≤ cursor.remaining then
    .ok (cursor.rest.take length, ⟨cursor.input, cursor.offset + length, offset_add_le h⟩)
  else .error ⟨cursor.offset, length, cursor.remaining⟩

/-- A word of two bytes; the slice has them, so the second error is never met. -/
def readU16 (cursor : ReadCursor) : Except DecodeError (UInt16 × ReadCursor) := do
  let (bytes, next) ← cursor.take 2
  match bytes with
  | [hi, lo] => return (Bytes.toU16 hi lo, next)
  | _ => .error ⟨cursor.offset, 2, bytes.length⟩

def readU8 (cursor : ReadCursor) : Except DecodeError (UInt8 × ReadCursor) := do
  let (bytes, next) ← cursor.take 1
  match bytes with
  | byte :: _ => return (byte, next)
  | [] => .error ⟨cursor.offset, 1, 0⟩

def readU32 (cursor : ReadCursor) : Except DecodeError (UInt32 × ReadCursor) := do
  let (bytes, next) ← cursor.take 4
  match bytes with
  | [a, b, c, d] => return (Bytes.toU32 a b c d, next)
  | _ => .error ⟨cursor.offset, 4, bytes.length⟩

def readU64 (cursor : ReadCursor) : Except DecodeError (UInt64 × ReadCursor) := do
  let (bytes, next) ← cursor.take 8
  return (.ofNat (Bytes.toNat bytes), next)

@[simp] theorem rest_new (input : Bytes) : (new input).rest = input := rfl

theorem length_rest (cursor : ReadCursor) : cursor.rest.length = cursor.remaining := by
  simp [rest, remaining]

theorem isEmpty_iff (cursor : ReadCursor) : cursor.isEmpty = true ↔ cursor.rest = [] := by
  rw [isEmpty, decide_eq_true_iff, ← length_rest, List.length_eq_zero_iff]

/-- What a read moves a cursor over. -/
structure Passed (cursor : ReadCursor) (front : Bytes) (next : ReadCursor) : Prop where
  rest : cursor.rest = front ++ next.rest
  offset : next.offset = cursor.offset + front.length
  input : next.input = cursor.input

theorem Passed.trans {cursor next last : ReadCursor} {front more : Bytes}
    (h : Passed cursor front next) (h' : Passed next more last) :
    Passed cursor (front ++ more) last where
  rest := by rw [h.rest, h'.rest, List.append_assoc]
  offset := by rw [h'.offset, h.offset, List.length_append, Nat.add_assoc]
  input := h'.input.trans h.input

theorem take_passed {cursor next : ReadCursor} {length : ℕ} {bytes : Bytes}
    (h : cursor.take length = .ok (bytes, next)) :
    Passed cursor bytes next ∧ bytes.length = length := by
  unfold take at h
  split at h
  · next hle =>
    cases h
    have hlen : (cursor.rest.take length).length = length := by
      rw [List.length_take, length_rest]
      omega
    refine ⟨⟨?_, by rw [hlen], rfl⟩, hlen⟩
    show cursor.rest = cursor.rest.take length ++ cursor.input.drop (cursor.offset + length)
    rw [← List.drop_drop]
    exact (List.take_append_drop length cursor.rest).symm
  · cases h

/-- The bytes that stand in front are taken. -/
theorem take_rest {cursor : ReadCursor} {front rest : Bytes} (h : cursor.rest = front ++ rest) :
    ∃ next, cursor.take front.length = .ok (front, next) ∧ Passed cursor front next ∧
      next.rest = rest := by
  have hlen : front.length ≤ cursor.remaining := by
    rw [← length_rest, h, List.length_append]
    omega
  have htake : cursor.take front.length =
      .ok (front, ⟨cursor.input, cursor.offset + front.length, offset_add_le hlen⟩) := by
    rw [take, dif_pos hlen, h, List.take_left]
  have hpassed := (take_passed htake).1
  exact ⟨_, htake, hpassed, List.append_cancel_left (hpassed.rest.symm.trans h)⟩

theorem readU16_passed {cursor next : ReadCursor} {n : UInt16}
    (h : cursor.readU16 = .ok (n, next)) :
    Passed cursor (Bytes.ofU16 n) next := by
  unfold readU16 at h
  obtain ⟨⟨bytes, after⟩, htake, hread⟩ := bind_eq_ok.mp h
  obtain ⟨hpassed, hlen⟩ := take_passed htake
  match bytes, hlen with
  | [hi, lo], _ =>
    cases hread
    rw [Bytes.ofU16_toU16]
    exact hpassed

theorem readU16_rest {cursor : ReadCursor} {n : UInt16} {rest : Bytes}
    (h : cursor.rest = Bytes.ofU16 n ++ rest) :
    ∃ next, cursor.readU16 = .ok (n, next) ∧ Passed cursor (Bytes.ofU16 n) next ∧
      next.rest = rest := by
  obtain ⟨next, htake, hnext⟩ := take_rest h
  refine ⟨next, ?_, hnext⟩
  unfold readU16
  rw [show 2 = (Bytes.ofU16 n).length from rfl, htake]
  show Except.ok (Bytes.toU16 (n >>> 8).toUInt8 n.toUInt8, next) = _
  rw [Bytes.toU16_ofU16]

theorem readU8_rest {cursor : ReadCursor} {byte : UInt8} {rest : Bytes}
    (h : cursor.rest = [byte] ++ rest) :
    ∃ next, cursor.readU8 = .ok (byte, next) ∧ Passed cursor [byte] next ∧ next.rest = rest := by
  obtain ⟨next, htake, hnext⟩ := take_rest h
  refine ⟨next, ?_, hnext⟩
  unfold readU8
  rw [show 1 = [byte].length from rfl, htake]
  rfl

theorem readU8_passed {cursor next : ReadCursor} {byte : UInt8}
    (h : cursor.readU8 = .ok (byte, next)) : Passed cursor [byte] next := by
  unfold readU8 at h
  obtain ⟨⟨bytes, after⟩, htake, hread⟩ := bind_eq_ok.mp h
  obtain ⟨hpassed, hlen⟩ := take_passed htake
  match bytes, hlen with
  | [first], _ =>
    cases hread
    exact hpassed

theorem readU64_passed {cursor next : ReadCursor} {n : UInt64}
    (h : cursor.readU64 = .ok (n, next)) : Passed cursor (Bytes.ofNat 8 n.toNat) next := by
  unfold readU64 at h
  obtain ⟨⟨bytes, after⟩, htake, hread⟩ := bind_eq_ok.mp h
  obtain ⟨hpassed, hlen⟩ := take_passed htake
  cases hread
  have hlt : Bytes.toNat bytes < 2 ^ 64 := by
    have := Bytes.toNat_lt bytes
    rw [hlen] at this
    exact this
  have hback : Bytes.ofNat 8 (UInt64.ofNat (Bytes.toNat bytes)).toNat = bytes := by
    rw [UInt64.toNat_ofNat', Nat.mod_eq_of_lt hlt, ← hlen, Bytes.ofNat_toNat]
  rw [hback]
  exact hpassed

theorem readU64_rest {cursor : ReadCursor} {n : UInt64} {rest : Bytes}
    (h : cursor.rest = Bytes.ofNat 8 n.toNat ++ rest) :
    ∃ next, cursor.readU64 = .ok (n, next) ∧ Passed cursor (Bytes.ofNat 8 n.toNat) next ∧
      next.rest = rest := by
  obtain ⟨next, htake, hnext⟩ := take_rest h
  refine ⟨next, ?_, hnext⟩
  unfold readU64
  rw [Bytes.length_ofNat] at htake
  rw [htake]
  have hback : Bytes.toNat (Bytes.ofNat 8 n.toNat) = n.toNat := by
    rw [Bytes.toNat_ofNat]
    exact Nat.mod_eq_of_lt n.toNat_lt
  show Except.ok (UInt64.ofNat (Bytes.toNat (Bytes.ofNat 8 n.toNat)), next) = _
  rw [hback, UInt64.ofNat_toNat]

theorem readU32_passed {cursor next : ReadCursor} {n : UInt32}
    (h : cursor.readU32 = .ok (n, next)) :
    Passed cursor (Bytes.ofU32 n) next := by
  unfold readU32 at h
  obtain ⟨⟨bytes, after⟩, htake, hread⟩ := bind_eq_ok.mp h
  obtain ⟨hpassed, hlen⟩ := take_passed htake
  match bytes, hlen with
  | [a, b, c, d], _ =>
    cases hread
    rw [Bytes.ofU32_toU32]
    exact hpassed

theorem readU32_rest {cursor : ReadCursor} {n : UInt32} {rest : Bytes}
    (h : cursor.rest = Bytes.ofU32 n ++ rest) :
    ∃ next, cursor.readU32 = .ok (n, next) ∧ Passed cursor (Bytes.ofU32 n) next ∧
      next.rest = rest := by
  obtain ⟨next, htake, hnext⟩ := take_rest h
  refine ⟨next, ?_, hnext⟩
  have hword : Bytes.u32At (Bytes.ofU32 n) 0 = some n := @Bytes.u32At_of_drop _ 0 n [] rfl
  unfold readU32
  rw [show 4 = (Bytes.ofU32 n).length from rfl, htake]
  show Except.ok (Bytes.toU32 _ _ _ _, next) = _
  rw [Option.some.inj hword]

end ReadCursor

/-! ## Writing -/

/-- A size-bounded writer. -/
structure WriteBuffer where
  bytes : Bytes
  limit : ℕ
deriving DecidableEq

namespace WriteBuffer

def withLimit (limit : ℕ) : WriteBuffer := ⟨[], limit⟩

def len (output : WriteBuffer) : ℕ := output.bytes.length

def error (output : WriteBuffer) (additional : ℕ) : EncodeError :=
  ⟨output.len, additional, output.limit⟩

def extendFromSlice (output : WriteBuffer) (value : Bytes) : Except EncodeError WriteBuffer :=
  if output.limit < output.len + value.length then .error (output.error value.length)
  else .ok { output with bytes := output.bytes ++ value }

def writeU16 (output : WriteBuffer) (value : UInt16) : Except EncodeError WriteBuffer :=
  output.extendFromSlice (Bytes.ofU16 value)

def writeU32 (output : WriteBuffer) (value : UInt32) : Except EncodeError WriteBuffer :=
  output.extendFromSlice (Bytes.ofU32 value)

def writeU8 (output : WriteBuffer) (value : UInt8) : Except EncodeError WriteBuffer :=
  output.extendFromSlice [value]

def writeU64 (output : WriteBuffer) (value : UInt64) : Except EncodeError WriteBuffer :=
  output.extendFromSlice (Bytes.ofNat 8 value.toNat)

/-- Replaces bytes that were written. -/
def setSlice (output : WriteBuffer) (offset : ℕ) (value : Bytes) : Except EncodeError WriteBuffer :=
  if output.len < offset + value.length then .error (output.error value.length)
  else .ok { output with bytes := output.bytes.overwrite offset value }

def setU16 (output : WriteBuffer) (offset : ℕ) (value : UInt16) : Except EncodeError WriteBuffer :=
  output.setSlice offset (Bytes.ofU16 value)

theorem extendFromSlice_eq_ok {output next : WriteBuffer} {value : Bytes} :
    output.extendFromSlice value = .ok next ↔
      output.len + value.length ≤ output.limit ∧ next = ⟨output.bytes ++ value, output.limit⟩ := by
  rw [extendFromSlice, ite_error_eq_ok, Nat.not_lt, Except.ok.injEq, eq_comm]

theorem setSlice_eq_ok {output next : WriteBuffer} {offset : ℕ} {value : Bytes} :
    output.setSlice offset value = .ok next ↔ offset + value.length ≤ output.len ∧
      next = ⟨output.bytes.overwrite offset value, output.limit⟩ := by
  rw [setSlice, ite_error_eq_ok, Nat.not_lt, Except.ok.injEq, eq_comm]

end WriteBuffer

end Fluvora
