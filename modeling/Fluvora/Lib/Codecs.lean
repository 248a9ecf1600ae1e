import Mathlib

/-!
# Codecs

A writer of values as bytes with a reader of what it writes.  `ByteCodec.ofSample` is a codec that writes
a given text for one value, so that a general statement about all codecs can be looked at on an example
with the text that the real writer has for it.
-/

namespace Fluvora

instance encodableChar : Encodable Char := Encodable.ofLeftInverse Char.toNat Char.ofNat Char.ofNat_toNat

instance encodableString : Encodable String := Encodable.ofLeftInverse String.toList String.ofList fun _ =>
  String.ofList_toList

instance encodableUInt16 : Encodable UInt16 := Encodable.ofLeftInverse UInt16.toNat UInt16.ofNat fun _ =>
  UInt16.ofNat_toNat

instance encodableUInt64 : Encodable UInt64 := Encodable.ofLeftInverse UInt64.toNat UInt64.ofNat fun _ =>
  UInt64.ofNat_toNat

structure ByteCodec (α : Type) where
  write : α → List UInt8
  read : List UInt8 → Option α
  read_write : ∀ value, read (write value) = some value

namespace ByteCodec

variable {α : Type} [DecidableEq α] [Encodable α]

/-- Writes the sample as the text, and every other value as a number of zeros. -/
def ofSample (sample : α) (text : List UInt8) (htext : text.head? ≠ some 0) : ByteCodec α where
  write value :=
    if value = sample then text else List.replicate (Encodable.encode value + 1) 0
  read bytes := if bytes = text then some sample else Encodable.decode (bytes.length - 1)
  read_write value := by
    by_cases hvalue : value = sample
    · rw [if_pos hvalue, if_pos rfl, hvalue]
    · have hne : List.replicate (Encodable.encode value + 1) 0 ≠ text := by
        intro h
        exact htext (by rw [← h]; rfl)
      rw [if_neg hvalue, if_neg hne, List.length_replicate, Nat.add_sub_cancel,
        Encodable.encodek]

end ByteCodec

end Fluvora
