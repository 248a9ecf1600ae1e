import Fluvora.Lib.Bytes

/-!
# Fields of a message

A message that is put together from numbers of a fixed width and from texts with their lengths in
front can be taken apart again in one way only: each lemma takes the first field off two messages that
are equal.
-/

namespace Fluvora.Bytes

/-- A text behind its length, in eight bytes. -/
def prefixed (bytes : Bytes) : Bytes := ofNat 8 (min bytes.length (2 ^ 64 - 1)) ++ bytes

/-- Messages that start with a number of the same width. -/
theorem ofNat_append_inj {width m n : ℕ} {rest rest' : Bytes} (hm : m < 256 ^ width)
    (hn : n < 256 ^ width) (h : ofNat width m ++ rest = ofNat width n ++ rest') :
    m = n ∧ rest = rest' := by
  obtain ⟨hnumber, hrest⟩ := List.append_inj h (by simp)
  have hnat := congrArg toNat hnumber
  rw [toNat_ofNat, toNat_ofNat, Nat.mod_eq_of_lt hm, Nat.mod_eq_of_lt hn] at hnat
  exact ⟨hnat, hrest⟩

/-- Messages that start with a text behind its length. -/
theorem prefixed_append_inj {a b rest rest' : Bytes} (ha : a.length < 2 ^ 64)
    (hb : b.length < 2 ^ 64) (h : prefixed a ++ rest = prefixed b ++ rest') :
    a = b ∧ rest = rest' := by
  unfold prefixed at h
  have hlen : ∀ c : Bytes, c.length < 2 ^ 64 → min c.length (2 ^ 64 - 1) = c.length := by
    omega
  rw [List.append_assoc, List.append_assoc, hlen a ha, hlen b hb] at h
  obtain ⟨hlength, hmessage⟩ := ofNat_append_inj ha hb h
  exact List.append_inj hmessage hlength

end Fluvora.Bytes
