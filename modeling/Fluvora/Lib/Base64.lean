import Fluvora.Lib.Bytes

/-!
# Base64 without padding

`Base64` is a text form of byte strings in which every text is that of at most one byte string and
every byte string has one text.  `Base64.urlSafeNoPad` is the one of the URL-safe alphabet: three bytes
are four characters, and the unused low bits of a shorter last group are zero.
-/

namespace Fluvora

structure Base64 where
  encode : Bytes → String
  decode : String → Option Bytes
  decode_encode : ∀ bytes, decode (encode bytes) = some bytes
  encode_of_decode : ∀ {text bytes}, decode text = some bytes → encode bytes = text

namespace Base64

def symbol (n : ℕ) : Char :=
  if n < 26 then .ofNat (n + 65)
  else if n < 52 then .ofNat (n + 71)
  else if n < 62 then .ofNat (n - 4)
  else if n = 62 then '-'
  else '_'

/-- The number of a symbol. -/
def sextet (c : Char) : Option ℕ :=
  if 65 ≤ c.toNat ∧ c.toNat ≤ 90 then some (c.toNat - 65)
  else if 97 ≤ c.toNat ∧ c.toNat ≤ 122 then some (c.toNat - 71)
  else if 48 ≤ c.toNat ∧ c.toNat ≤ 57 then some (c.toNat + 4)
  else if c = '-' then some 62
  else if c = '_' then some 63
  else none

def encodeChars : Bytes → List Char
  | [] => []
  | [a] => [symbol (a.toNat / 4), symbol (a.toNat % 4 * 16)]
  | [a, b] =>
      [symbol (a.toNat / 4), symbol (a.toNat % 4 * 16 + b.toNat / 16),
        symbol (b.toNat % 16 * 4)]
  | a :: b :: c :: rest =>
      symbol (a.toNat / 4) :: symbol (a.toNat % 4 * 16 + b.toNat / 16) ::
        symbol (b.toNat % 16 * 4 + c.toNat / 64) :: symbol (c.toNat % 64) :: encodeChars rest

def decodeChars : List Char → Option Bytes
  | [] => some []
  | [_] => none
  | [w, x] => do
      let w ← sextet w
      let x ← sextet x
      if x % 16 = 0 then some [.ofNat (w * 4 + x / 16)] else none
  | [w, x, y] => do
      let w ← sextet w
      let x ← sextet x
      let y ← sextet y
      if y % 4 = 0 then some [.ofNat (w * 4 + x / 16), .ofNat (x % 16 * 16 + y / 4)] else none
  | w :: x :: y :: z :: rest => do
      let w ← sextet w
      let x ← sextet x
      let y ← sextet y
      let z ← sextet z
      let bytes ← decodeChars rest
      return .ofNat (w * 4 + x / 16) :: .ofNat (x % 16 * 16 + y / 4) :: .ofNat (y % 4 * 64 + z) ::
        bytes

/-! ## Symbols -/

theorem sextet_symbol {n : ℕ} (h : n < 64) : sextet (symbol n) = some n := by
  have hall : ∀ n < 64, sextet (symbol n) = some n := by decide
  exact hall n h

theorem sextet_eq_some {c : Char} {n : ℕ} (h : sextet c = some n) : n < 64 ∧ symbol n = c := by
  unfold sextet at h
  split_ifs at h with hupper hlower hdigit hminus hunderscore
  · obtain rfl := Option.some.inj h
    refine ⟨by omega, ?_⟩
    rw [symbol, if_pos (by omega), Nat.sub_add_cancel hupper.1, Char.ofNat_toNat]
  · obtain rfl := Option.some.inj h
    refine ⟨by omega, ?_⟩
    rw [symbol, if_neg (by omega), if_pos (by omega), Nat.sub_add_cancel (by omega),
      Char.ofNat_toNat]
  · obtain rfl := Option.some.inj h
    refine ⟨by omega, ?_⟩
    rw [symbol, if_neg (by omega), if_neg (by omega), if_pos (by omega), Nat.add_sub_cancel,
      Char.ofNat_toNat]
  · obtain rfl := Option.some.inj h
    exact ⟨by decide, hminus.symm⟩
  · obtain rfl := Option.some.inj h
    exact ⟨by decide, hunderscore.symm⟩

/-! ## Round trips -/

theorem ofNat_eq {a : UInt8} {n : ℕ} (h : n = a.toNat) : UInt8.ofNat n = a := by
  rw [h, UInt8.ofNat_toNat]

theorem decodeChars_encodeChars (bytes : Bytes) : decodeChars (encodeChars bytes) = some bytes := by
  induction bytes using encodeChars.induct with
  | case1 => rfl
  | case2 a =>
    have ha := a.toNat_lt
    rw [encodeChars, decodeChars, sextet_symbol (by omega), sextet_symbol (by omega)]
    simp only [Option.bind_eq_bind, Option.bind_some]
    rw [if_pos (by omega), @ofNat_eq a _ (by omega)]
  | case3 a b =>
    have ha := a.toNat_lt
    have hb := b.toNat_lt
    rw [encodeChars, decodeChars, sextet_symbol (by omega), sextet_symbol (by omega),
      sextet_symbol (by omega)]
    simp only [Option.bind_eq_bind, Option.bind_some]
    rw [if_pos (by omega), @ofNat_eq a _ (by omega), @ofNat_eq b _ (by omega)]
  | case4 a b c rest ih =>
    have ha := a.toNat_lt
    have hb := b.toNat_lt
    have hc := c.toNat_lt
    rw [encodeChars, decodeChars, sextet_symbol (by omega), sextet_symbol (by omega),
      sextet_symbol (by omega), sextet_symbol (by omega), ih]
    simp only [Option.bind_eq_bind, Option.bind_some, Option.pure_def]
    rw [@ofNat_eq a _ (by omega), @ofNat_eq b _ (by omega), @ofNat_eq c _ (by omega)]

theorem encodeChars_of_decodeChars {chars : List Char} {bytes : Bytes}
    (h : decodeChars chars = some bytes) : encodeChars bytes = chars := by
  induction chars using decodeChars.induct generalizing bytes with
  | case1 =>
    cases h
    rfl
  | case2 => cases h
  | case3 w x =>
    simp only [decodeChars, Option.bind_eq_bind, Option.bind_eq_some_iff] at h
    obtain ⟨m, hm, n, hn, h⟩ := h
    split_ifs at h with hzero
    cases h
    obtain ⟨hm, rfl⟩ := sextet_eq_some hm
    obtain ⟨hn, rfl⟩ := sextet_eq_some hn
    rw [encodeChars, UInt8.toNat_ofNat']
    have hw : (m * 4 + n / 16) % 2 ^ 8 / 4 = m := by omega
    have hx : (m * 4 + n / 16) % 2 ^ 8 % 4 * 16 = n := by omega
    rw [hw, hx]
  | case4 w x y =>
    simp only [decodeChars, Option.bind_eq_bind, Option.bind_eq_some_iff] at h
    obtain ⟨m, hm, n, hn, k, hk, h⟩ := h
    split_ifs at h with hzero
    cases h
    obtain ⟨hm, rfl⟩ := sextet_eq_some hm
    obtain ⟨hn, rfl⟩ := sextet_eq_some hn
    obtain ⟨hk, rfl⟩ := sextet_eq_some hk
    rw [encodeChars, UInt8.toNat_ofNat', UInt8.toNat_ofNat']
    have hw : (m * 4 + n / 16) % 2 ^ 8 / 4 = m := by omega
    have hx : (m * 4 + n / 16) % 2 ^ 8 % 4 * 16 + (n % 16 * 16 + k / 4) % 2 ^ 8 / 16 = n := by omega
    have hy : (n % 16 * 16 + k / 4) % 2 ^ 8 % 16 * 4 = k := by omega
    rw [hw, hx, hy]
  | case5 w x y z rest ih =>
    simp only [decodeChars, Option.bind_eq_bind, Option.bind_eq_some_iff] at h
    obtain ⟨m, hm, n, hn, k, hk, l, hl, more, hmore, h⟩ := h
    cases h
    obtain ⟨hm, rfl⟩ := sextet_eq_some hm
    obtain ⟨hn, rfl⟩ := sextet_eq_some hn
    obtain ⟨hk, rfl⟩ := sextet_eq_some hk
    obtain ⟨hl, rfl⟩ := sextet_eq_some hl
    rw [encodeChars, ih hmore, UInt8.toNat_ofNat', UInt8.toNat_ofNat', UInt8.toNat_ofNat']
    have hw : (m * 4 + n / 16) % 2 ^ 8 / 4 = m := by omega
    have hx : (m * 4 + n / 16) % 2 ^ 8 % 4 * 16 + (n % 16 * 16 + k / 4) % 2 ^ 8 / 16 = n := by omega
    have hy : (n % 16 * 16 + k / 4) % 2 ^ 8 % 16 * 4 + (k % 4 * 64 + l) % 2 ^ 8 / 64 = k := by omega
    have hz : (k % 4 * 64 + l) % 2 ^ 8 % 64 = l := by omega
    rw [hw, hx, hy, hz]

def urlSafeNoPad : Base64 where
  encode bytes := .ofList (encodeChars bytes)
  decode text := decodeChars text.toList
  decode_encode bytes := by rw [String.toList_ofList, decodeChars_encodeChars]
  encode_of_decode h := by rw [encodeChars_of_decodeChars h, String.ofList_toList]

example : urlSafeNoPad.encode [0xfb, 0xff] = "-_8" := by decide

end Base64

end Fluvora
