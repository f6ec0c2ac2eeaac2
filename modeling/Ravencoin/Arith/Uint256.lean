import Ravencoin.Lib.Digits
import Ravencoin.Assets.Transactions

/-!
# 256-bit integers and the compact target format (`arith_uint256.cpp`)

A proof-of-work target is an `arith_uint256`, and a block header carries it as `nBits` in the
"compact" format: a 32-bit number whose top byte is a base-256 exponent (the number of bytes of
the target), whose low 23 bits are a mantissa, and whose bit `0x00800000` is a sign. The value
is `mantissa * 256 ^ (exponent - 3)`. `GetCompact` keeps the three most significant bytes of a
target as the mantissa, or only two when the leading byte would set the sign bit.
`SetCompact` decodes and flags a negative or an overflowing value.

This module models both functions over the value of the 256-bit integer and proves that the
format loses exactly the bytes below the mantissa window: decoding an encoding returns the
target with those bytes zeroed, flags nothing, and encodes back to the same 32 bits. It also
proves that the overflow flag is set exactly when the value would not fit in 256 bits.

## Main definitions

* `Ravencoin.arith_uint256` — a 256-bit unsigned integer, `BitVec 256`.
* `Ravencoin.bits`, `Ravencoin.GetLow64`, `Ravencoin.Divide`.
* `Ravencoin.SetCompact`, `Ravencoin.GetCompact`.
* `Ravencoin.CompactValue`, `Ravencoin.CompactTruncate` — the value of an exponent and a
  mantissa, and a target with the bytes below its mantissa window zeroed.

## Main results

* `Ravencoin.bits_eq_size` — `bits` is the bit length.
* `Ravencoin.GetCompact_eq` — what `GetCompact` returns, in exponent and mantissa; it never
  aborts.
* `Ravencoin.SetCompact_value`, `Ravencoin.SetCompact_overflow` — what `SetCompact` decodes,
  and when it flags an overflow.
* `Ravencoin.CompactValue_CompactTruncate`, `Ravencoin.CompactTruncate_same_encoding` — the
  encoding stands for the truncated target, and the truncated target has the same encoding.
* `Ravencoin.CompactTruncate_mono` — truncation is the greatest representable value below, so
  it is monotone.
* `Ravencoin.compact_encoding_round_trip`.

## Implementation notes

`base_uint<256>` keeps eight 32-bit limbs; its shifts, `GetLow64` and `bits` compute on the
value the limbs represent, which is what is modelled: `<<=` is the product by a power of two
modulo `2^256`, `>>=` the quotient, and `bits` scans the 256 bits from the top. The
`uint32_t` and `uint64_t` locals keep their widths. Each `assert` of `GetCompact` aborts.
-/

set_option autoImplicit false

namespace Ravencoin

open Digits

/-! ### The model -/

/-- `arith_uint256`, by its value. -/
abbrev arith_uint256 : Type := BitVec 256

/-- The scan of `base_uint::bits` over the bits below `i`, from the top: one more than the
highest set bit, `0` when none is. -/
def bitsBelow (x : arith_uint256) : Nat → Nat
  | 0 => 0
  | i + 1 => if x.getLsbD i then i + 1 else bitsBelow x i

/-- `base_uint::bits`: the limbs from the top, and the bits of each from the top. -/
def bits (x : arith_uint256) : Nat := bitsBelow x 256

/-- `base_uint::GetLow64`: the two low limbs. -/
def GetLow64 (x : arith_uint256) : UInt64 := x.toNat.toUInt64

/-- `base_uint::operator/=`: the quotient (the long division's result); a zero divisor throws
`uint_error`. -/
def Divide (a b : arith_uint256) : Except Halt arith_uint256 :=
  if b = 0 then throw (.abort (str "Division by zero")) else pure (a / b)

/-- `arith_uint256::SetCompact`: the value, then `*pfNegative` and `*pfOverflow`. For an
exponent of at most `3` the mantissa is shifted down first, and both flags read the shifted
mantissa. -/
def SetCompact (nCompact : UInt32) : arith_uint256 × Bool × Bool :=
  let nSize := (nCompact >>> 24).toNat
  let nWord := nCompact &&& 0x007fffff
  let nWord := if nSize ≤ 3 then nWord >>> (8 * (3 - nSize)).toUInt32 else nWord
  let value : arith_uint256 :=
    if nSize ≤ 3 then BitVec.ofNat 256 nWord.toNat
    else BitVec.ofNat 256 nWord.toNat <<< (8 * (nSize - 3))
  (value, decide (nWord ≠ 0 ∧ nCompact &&& 0x00800000 ≠ 0),
    decide (nWord ≠ 0 ∧ (nSize > 34 ∨ (nWord > 0xff ∧ nSize > 33) ∨ (nWord > 0xffff ∧ nSize > 32))))

/-- The first block of `GetCompact`: the three bytes at the top of `x`, for `nSize` bytes, in a
`uint32_t` (`GetLow64` is a `uint64_t`, shifted, then assigned). -/
def GetCompactWindow (x : arith_uint256) (nSize : Nat) : UInt32 :=
  if nSize ≤ 3 then (GetLow64 x <<< (8 * (3 - nSize)).toUInt64).toUInt32
  else (GetLow64 (x >>> (8 * (nSize - 3)))).toUInt32

/-- `arith_uint256::GetCompact`. When the window sets the sign bit `0x00800000`, the mantissa
moves down a byte and the exponent up one. -/
def GetCompact (x : arith_uint256) (fNegative : Bool) : Except Halt UInt32 := do
  let nSize := (bits x + 7) / 8
  let nCompact := GetCompactWindow x nSize
  let fSign : Bool := nCompact &&& 0x00800000 != 0
  let nCompact := if fSign then nCompact >>> 8 else nCompact
  let nSize := if fSign then nSize + 1 else nSize
  if nCompact &&& ~~~0x007fffff ≠ 0 then
    throw (.abort (str "assert((nCompact & ~0x007fffff) == 0)"))
  if ¬ nSize < 256 then throw (.abort (str "assert(nSize < 256)"))
  let nCompact := nCompact ||| nSize.toUInt32 <<< 24
  return nCompact ||| if fNegative && nCompact &&& 0x007fffff != 0 then 0x00800000 else 0

/-! ### The compact format by its numbers -/

/-- The value of a compact number of exponent `s` and mantissa `m`: `m * 256 ^ (s - 3)`, the
mantissa shifted down for an exponent below `3`. -/
def CompactValue (s m : Nat) : Nat :=
  if s ≤ 3 then m / 256 ^ (3 - s) else m * 256 ^ (s - 3)

/-- The three bytes at the top of `x`, as a 24-bit number. -/
def CompactWindow (x : Nat) : Nat :=
  if byteLength x ≤ 3 then x * 256 ^ (3 - byteLength x) else x / 256 ^ (byteLength x - 3)

/-- The mantissa `GetCompact` writes: the window, down a byte if it sets the sign bit. -/
def CompactMantissa (x : Nat) : Nat :=
  if 2 ^ 23 ≤ CompactWindow x then CompactWindow x / 256 else CompactWindow x

/-- The exponent `GetCompact` writes: the number of bytes, one more if the sign bit was set. -/
def CompactExponent (x : Nat) : Nat :=
  if 2 ^ 23 ≤ CompactWindow x then byteLength x + 1 else byteLength x

/-- `x` with every byte below its mantissa window zeroed: the window is the three most
significant bytes, or the two most significant when the leading byte is at least `0x80`. -/
def CompactTruncate (x : Nat) : Nat :=
  let w := if 0x80 ≤ x / 256 ^ (byteLength x - 1) then 2 else 3
  x / 256 ^ (byteLength x - w) * 256 ^ (byteLength x - w)

/-! ### Bit and byte lengths of a 256-bit integer -/

theorem bitsBelow_eq_size (x : arith_uint256) (i : Nat) :
    bitsBelow x i = (x.toNat % 2 ^ i).size := by
  induction i with
  | zero => simp [bitsBelow, Nat.mod_one, Nat.size_zero]
  | succ i ih =>
    rw [bitsBelow, size_mod_two_pow_succ, ih]
    rfl

/-- `bits` is the bit length. -/
theorem bits_eq_size (x : arith_uint256) : bits x = x.toNat.size := by
  rw [bits, bitsBelow_eq_size, Nat.mod_eq_of_lt x.isLt]

/-- `GetCompact`'s `nSize` is the number of bytes. -/
theorem nSize_eq_byteLength (x : arith_uint256) : (bits x + 7) / 8 = byteLength x.toNat := by
  rw [bits_eq_size]
  rfl

theorem byteLength_le_32 (x : arith_uint256) : byteLength x.toNat ≤ 32 := by
  apply byteLength_le_iff.2
  rw [pow_256]
  exact x.isLt

theorem Divide_of_ne_zero (a : arith_uint256) {b : arith_uint256} (hb : b ≠ 0) :
    Divide a b = .ok (a / b) := by
  rw [Divide, if_neg hb]
  rfl

/-! ### The window of three bytes -/

theorem CompactWindow_of_three_le {x : Nat} (h : 3 ≤ byteLength x) :
    CompactWindow x = x / 256 ^ (byteLength x - 3) := by
  unfold CompactWindow
  split
  · have hB : byteLength x = 3 := by omega
    simp [hB]
  · rfl

theorem CompactWindow_of_le_three {x : Nat} (h : byteLength x ≤ 3) :
    CompactWindow x = x * 256 ^ (3 - byteLength x) := by
  rw [CompactWindow, if_pos h]

theorem CompactWindow_lt (x : Nat) : CompactWindow x < 2 ^ 24 := by
  have hx := lt_pow_byteLength x
  by_cases h : byteLength x ≤ 3
  · -- the bytes of `x` shifted up to the top of three
    rw [CompactWindow_of_le_three h]
    have hpow : 256 ^ byteLength x * 256 ^ (3 - byteLength x) = 2 ^ 24 := by
      rw [← Nat.pow_add, show byteLength x + (3 - byteLength x) = 3 by omega]
      rfl
    rw [← hpow]
    exact Nat.mul_lt_mul_of_pos_right hx (pow_256_pos _)
  · rw [CompactWindow_of_three_le (by omega), Nat.div_lt_iff_lt_mul (pow_256_pos _)]
    have hpow : 2 ^ 24 * 256 ^ (byteLength x - 3) = 256 ^ byteLength x := by
      rw [show (2 : Nat) ^ 24 = 256 ^ 3 from rfl, ← Nat.pow_add,
        show 3 + (byteLength x - 3) = byteLength x by omega]
    rw [hpow]
    exact hx

/-- `GetCompact`'s first block computes the window. -/
theorem GetCompactWindow_toNat (x : arith_uint256) :
    (GetCompactWindow x (byteLength x.toNat)).toNat = CompactWindow x.toNat := by
  have hw := CompactWindow_lt x.toNat
  unfold GetCompactWindow
  by_cases h : byteLength x.toNat ≤ 3
  · rw [if_pos h]
    rw [CompactWindow_of_le_three h] at hw ⊢
    have hx : x.toNat < 2 ^ 64 := by
      have := Nat.le_mul_of_pos_right x.toNat (pow_256_pos (3 - byteLength x.toNat))
      omega
    have hshift : 8 * (3 - byteLength x.toNat) % 2 ^ 64 % 64 = 8 * (3 - byteLength x.toNat) := by
      rw [Nat.mod_eq_of_lt (by omega), Nat.mod_eq_of_lt (by omega)]
    simp only [GetLow64, UInt64.toNat_toUInt32, UInt64.toNat_shiftLeft, Nat.toUInt64_eq,
      UInt64.toNat_ofNat', Nat.shiftLeft_eq, hshift, Nat.mod_eq_of_lt hx, ← pow_256]
    rw [Nat.mod_eq_of_lt (by omega), Nat.mod_eq_of_lt (by omega)]
  · rw [if_neg h]
    rw [CompactWindow_of_three_le (by omega)] at hw ⊢
    simp only [GetLow64, UInt64.toNat_toUInt32, Nat.toUInt64_eq, UInt64.toNat_ofNat',
      BitVec.toNat_ushiftRight, Nat.shiftRight_eq_div_pow, ← pow_256]
    have h64 : x.toNat / 256 ^ (byteLength x.toNat - 3) < 2 ^ 64 := by omega
    have h32 : x.toNat / 256 ^ (byteLength x.toNat - 3) < 2 ^ 32 := by omega
    rw [Nat.mod_eq_of_lt h64, Nat.mod_eq_of_lt h32]


/-! ### Decoding loses exactly the bytes below the window -/

theorem CompactValue_of_three_le {s : Nat} (m : Nat) (h : 3 ≤ s) :
    CompactValue s m = m * 256 ^ (s - 3) := by
  unfold CompactValue
  split
  · have hs : s = 3 := by omega
    simp [hs]
  · rfl

/-- Below three bytes nothing is cut off. -/
theorem CompactTruncate_of_le_two {x : Nat} (h : byteLength x ≤ 2) : CompactTruncate x = x := by
  unfold CompactTruncate
  dsimp only
  have hzero : ∀ w, 2 ≤ w → byteLength x - w = 0 := fun w hw => by omega
  split <;> rw [hzero _ (by omega), Nat.pow_zero, Nat.div_one, Nat.mul_one]

/-- From three bytes on, the top byte of the window is the leading byte of `x`. -/
theorem lead_iff_sign {x : Nat} (h : 3 ≤ byteLength x) :
    0x80 ≤ x / 256 ^ (byteLength x - 1) ↔ 2 ^ 23 ≤ x / 256 ^ (byteLength x - 3) := by
  have hpow : 256 ^ (byteLength x - 1) = 256 ^ (byteLength x - 3) * 65536 := by
    rw [show byteLength x - 1 = byteLength x - 3 + 2 by omega, Nat.pow_add]
  rw [hpow, ← Nat.div_div_eq_div_mul]
  omega

/-- The exponent and mantissa `GetCompact` writes stand for `x` with the bytes below the window
zeroed. -/
theorem CompactValue_CompactTruncate (x : Nat) :
    CompactValue (CompactExponent x) (CompactMantissa x) = CompactTruncate x := by
  unfold CompactMantissa CompactExponent
  by_cases hB : byteLength x ≤ 2
  · -- at most two bytes: the window is `x` shifted up, and nothing is cut off
    rw [CompactTruncate_of_le_two hB, CompactWindow_of_le_three (by omega)]
    have hpow : 256 ^ (3 - byteLength x) = 256 ^ (2 - byteLength x) * 256 := by
      rw [show 3 - byteLength x = 2 - byteLength x + 1 by omega, Nat.pow_succ]
    have hR := pow_256_pos (2 - byteLength x)
    rw [hpow]
    by_cases hs : 2 ^ 23 ≤ x * (256 ^ (2 - byteLength x) * 256)
    · rw [if_pos hs, if_pos hs, CompactValue, if_pos (by omega),
        show 3 - (byteLength x + 1) = 2 - byteLength x by omega, ← Nat.mul_assoc,
        Nat.mul_div_cancel _ (by decide : 0 < 256), Nat.mul_div_cancel _ hR]
    · rw [if_neg hs, if_neg hs, CompactValue, if_pos (by omega), hpow,
        Nat.mul_div_cancel _ (Nat.mul_pos hR (by decide))]
  · -- from three bytes on, the window is the quotient by the bytes below it
    have h3 : 3 ≤ byteLength x := by omega
    unfold CompactTruncate
    dsimp only
    rw [CompactWindow_of_three_le h3]
    by_cases hs : 2 ^ 23 ≤ x / 256 ^ (byteLength x - 3)
    · have hpow : 256 ^ (byteLength x - 2) = 256 ^ (byteLength x - 3) * 256 := by
        rw [show byteLength x - 2 = byteLength x - 3 + 1 by omega, Nat.pow_succ]
      rw [if_pos hs, if_pos hs, if_pos ((lead_iff_sign h3).2 hs),
        CompactValue_of_three_le _ (by omega), show byteLength x + 1 - 3 = byteLength x - 2 by omega,
        hpow, Nat.div_div_eq_div_mul]
    · rw [if_neg hs, if_neg hs, if_neg (mt (lead_iff_sign h3).1 hs), CompactValue_of_three_le _ h3]

theorem CompactTruncate_le (x : Nat) : CompactTruncate x ≤ x := Nat.div_mul_le_self _ _

/-- Zeroing the bytes below the window keeps the number of bytes and the window's top: the
truncated number has the same exponent and mantissa. -/
theorem CompactTruncate_same_encoding (x : Nat) :
    CompactMantissa (CompactTruncate x) = CompactMantissa x ∧
      CompactExponent (CompactTruncate x) = CompactExponent x := by
  by_cases hB : byteLength x ≤ 2
  · rw [CompactTruncate_of_le_two hB]
    exact ⟨rfl, rfl⟩
  have h3 : 3 ≤ byteLength x := by omega
  have hx0 : x ≠ 0 := fun h => by rw [h, byteLength_zero] at h3; omega
  have hlo := pow_byteLength_pred_le hx0
  have hhi := lt_pow_byteLength x
  obtain ⟨P, hP⟩ : ∃ P, 256 ^ (byteLength x - 3) = P := ⟨_, rfl⟩
  have hPpos : 0 < P := hP ▸ pow_256_pos _
  have h1 : 256 ^ (byteLength x - 1) = P * 65536 := by
    rw [← hP, show byteLength x - 1 = byteLength x - 3 + 2 by omega, Nat.pow_add]
  have h2 : 256 ^ (byteLength x - 2) = P * 256 := by
    rw [← hP, show byteLength x - 2 = byteLength x - 3 + 1 by omega, Nat.pow_succ]
  have h0 : 256 ^ byteLength x = P * 2 ^ 24 := by
    rw [← hP, show (2 : Nat) ^ 24 = 256 ^ 3 from rfl, ← Nat.pow_add,
      show byteLength x - 3 + 3 = byteLength x by omega]
  -- a multiple `q * P` of a 24-bit `q` with a nonzero top byte has `x`'s length and window `q`
  have key : ∀ q, 65536 ≤ q → q < 2 ^ 24 →
      byteLength (q * P) = byteLength x ∧ CompactWindow (q * P) = q := by
    intro q hq hq'
    have hlen : byteLength (q * P) = byteLength x := by
      apply byteLength_eq_of_bounds (by omega)
      · rw [h1, Nat.mul_comm P]
        exact Nat.mul_le_mul_right P hq
      · rw [h0, Nat.mul_comm P]
        exact Nat.mul_lt_mul_of_pos_right hq' hPpos
    refine ⟨hlen, ?_⟩
    rw [CompactWindow_of_three_le (by omega), hlen, hP, Nat.mul_div_cancel _ hPpos]
  have hq : 65536 ≤ x / P := (Nat.le_div_iff_mul_le hPpos).2 (by rw [h1] at hlo; omega)
  have hq' : x / P < 2 ^ 24 := (Nat.div_lt_iff_lt_mul hPpos).2 (by rw [h0] at hhi; omega)
  have hwx : CompactWindow x = x / P := by rw [CompactWindow_of_three_le h3, hP]
  unfold CompactTruncate
  dsimp only
  unfold CompactMantissa CompactExponent
  by_cases hs : 2 ^ 23 ≤ x / P
  · -- two bytes of window: the truncation is `(x / P / 256 * 256) * P`
    have hlead : 0x80 ≤ x / 256 ^ (byteLength x - 1) := (lead_iff_sign h3).2 (by rw [hP]; exact hs)
    have hT : x / 256 ^ (byteLength x - 2) * 256 ^ (byteLength x - 2) = x / P / 256 * 256 * P := by
      rw [h2, ← Nat.div_div_eq_div_mul, Nat.mul_assoc, Nat.mul_comm 256 P]
    obtain ⟨hlen, hw⟩ := key (x / P / 256 * 256) (by omega) (by omega)
    rw [if_pos hlead, hT, hlen, hw, hwx, if_pos hs, if_pos (by omega), if_pos (by omega),
      Nat.mul_div_cancel _ (by decide : 0 < 256), if_pos hs]
    exact ⟨rfl, rfl⟩
  · have hlead : ¬ 0x80 ≤ x / 256 ^ (byteLength x - 1) := fun h =>
      hs (by rw [← hP]; exact (lead_iff_sign h3).1 h)
    have hT : x / 256 ^ (byteLength x - 3) * 256 ^ (byteLength x - 3) = x / P * P := by rw [hP]
    obtain ⟨hlen, hw⟩ := key (x / P) hq hq'
    rw [if_neg hlead, hT, hlen, hw, hwx]
    exact ⟨rfl, rfl⟩

/-! ### What `GetCompact` writes -/

theorem CompactMantissa_lt (x : Nat) : CompactMantissa x < 2 ^ 23 := by
  have hw := CompactWindow_lt x
  unfold CompactMantissa
  split <;> omega

theorem CompactExponent_le {x : Nat} (hx : byteLength x ≤ 32) : CompactExponent x ≤ 33 := by
  unfold CompactExponent
  split <;> omega

/-- A `uint32_t` below the sign bit has no bit outside the mantissa. -/
theorem and_not_mantissa_eq_zero {a : UInt32} (ha : a.toNat < 2 ^ 23) :
    a &&& ~~~0x007fffff = 0 := by
  have hmask : a &&& 0x007fffff = a := by
    apply UInt32.toNat_inj.mp
    rw [UInt32.toNat_and, show (0x007fffff : UInt32).toNat = 2 ^ 23 - 1 from rfl,
      Nat.and_two_pow_sub_one_of_lt_two_pow ha]
  rw [← hmask, UInt32.and_assoc, show (0x007fffff : UInt32) &&& ~~~0x007fffff = 0 by decide,
    UInt32.and_zero]

/-- The sign bit of a 24-bit `uint32_t` is set exactly from `2 ^ 23` on. -/
theorem sign_bit_eq {w : UInt32} (hw : w.toNat < 2 ^ 24) :
    (w &&& 0x00800000 != 0) = decide (2 ^ 23 ≤ w.toNat) := by
  have hiff : w &&& 0x00800000 ≠ 0 ↔ 2 ^ 23 ≤ w.toNat := by
    rw [← and_two_pow_ne_zero_iff hw, Ne, Ne, ← UInt32.toNat_inj, UInt32.toNat_and]
    rfl
  rw [Bool.eq_iff_iff, bne_iff_ne, decide_eq_true_iff]
  exact hiff

/-- The exponent in the top byte of a `uint32_t` and a 24-bit mantissa below it. -/
theorem or_shiftLeft_24 {m : UInt32} {s : Nat} (hm : m.toNat < 2 ^ 24) (hs : s < 256) :
    m ||| s.toUInt32 <<< 24 = UInt32.ofNat (m.toNat + s * 2 ^ 24) := by
  apply UInt32.toNat_inj.mp
  have hs32 : s % 2 ^ 32 = s := Nat.mod_eq_of_lt (by omega)
  have hshift : (s.toUInt32 <<< 24).toNat = s * 2 ^ 24 := by
    have h24 : (24 : UInt32).toNat % 32 = 24 := rfl
    rw [UInt32.toNat_shiftLeft, Nat.toUInt32_eq, UInt32.toNat_ofNat', hs32, h24, Nat.shiftLeft_eq]
    exact Nat.mod_eq_of_lt (by omega)
  rw [UInt32.toNat_or, hshift, UInt32.toNat_ofNat', Nat.mod_eq_of_lt (by omega), Nat.or_comm,
    ← Nat.shiftLeft_eq, ← Nat.shiftLeft_add_eq_or_of_lt hm, Nat.shiftLeft_eq, Nat.add_comm]

/-- `GetCompact` writes the exponent in the top byte and the mantissa below, and never aborts. -/
theorem GetCompact_eq (x : arith_uint256) :
    GetCompact x false =
      .ok (UInt32.ofNat (CompactMantissa x.toNat + CompactExponent x.toNat * 2 ^ 24)) := by
  have hw := GetCompactWindow_toNat x
  have hwlt := CompactWindow_lt x.toNat
  have hB := byteLength_le_32 x
  unfold GetCompact
  dsimp only
  rw [nSize_eq_byteLength]
  generalize GetCompactWindow x (byteLength x.toNat) = w at hw
  rw [sign_bit_eq (by omega)]
  unfold CompactMantissa CompactExponent
  rw [← hw]
  by_cases hs : 2 ^ 23 ≤ w.toNat
  · -- the sign bit is set: the mantissa moves down a byte
    have hdown : (w >>> 8).toNat = w.toNat / 256 := by
      rw [UInt32.toNat_shiftRight, show (8 : UInt32).toNat % 32 = 8 from rfl,
        Nat.shiftRight_eq_div_pow]
    have hlow : (w >>> 8).toNat < 2 ^ 23 := by omega
    have hsize : byteLength x.toNat + 1 < 256 := by omega
    simp only [hs, decide_true, if_true, and_not_mantissa_eq_zero hlow, ne_eq, not_true_eq_false,
      if_false, hsize, Bool.false_and, Bool.false_eq_true, UInt32.or_zero]
    rw [or_shiftLeft_24 (by omega) hsize, hdown]
    rfl
  · have hsize : byteLength x.toNat < 256 := by omega
    have hlow : w.toNat < 2 ^ 23 := by omega
    simp only [hs, decide_false, Bool.false_eq_true, if_false, and_not_mantissa_eq_zero hlow, ne_eq,
      not_true_eq_false, hsize, Bool.false_and, UInt32.or_zero]
    rw [or_shiftLeft_24 (by omega) hsize]
    rfl


/-- Encoding the truncated target gives the same 32 bits. -/
theorem GetCompact_CompactTruncate (x : arith_uint256) :
    GetCompact (BitVec.ofNat 256 (CompactTruncate x.toNat)) false = GetCompact x false := by
  have hT : (BitVec.ofNat 256 (CompactTruncate x.toNat)).toNat = CompactTruncate x.toNat := by
    rw [BitVec.toNat_ofNat, Nat.mod_eq_of_lt (Nat.lt_of_le_of_lt (CompactTruncate_le _) x.isLt)]
  obtain ⟨hm, he⟩ := CompactTruncate_same_encoding x.toNat
  rw [GetCompact_eq, GetCompact_eq, hT, hm, he]

/-! ### Truncation is the greatest representable value below -/

/-- A number `m * 256 ^ e` with a 23-bit `m` and at most `x` is at most `x` with its `j` low
bytes zeroed, once at least `2 ^ 15` is left above them. -/
theorem le_div_mul_of_lt {m e j x : Nat} (hm : m < 2 ^ 23) (hr : 2 ^ 15 ≤ x / 256 ^ j)
    (h : m * 256 ^ e ≤ x) : m * 256 ^ e ≤ x / 256 ^ j * 256 ^ j := by
  by_cases hej : j ≤ e
  · -- the value has at least `j` zero bytes itself
    have hsplit : m * 256 ^ e = m * 256 ^ (e - j) * 256 ^ j := by
      rw [Nat.mul_assoc, ← Nat.pow_add, Nat.sub_add_cancel hej]
    rw [hsplit] at h ⊢
    exact Nat.mul_le_mul_right _ ((Nat.le_div_iff_mul_le (pow_256_pos j)).2 h)
  · -- the value is below `2 ^ 23 * 256 ^ e ≤ 2 ^ 15 * 256 ^ j`
    have hpow : 256 ^ (e + 1) ≤ 256 ^ j := Nat.pow_le_pow_right (by decide) (by omega)
    have hlt : m * 256 ^ e < 2 ^ 23 * 256 ^ e := Nat.mul_lt_mul_of_pos_right hm (pow_256_pos e)
    have hstep : 2 ^ 23 * 256 ^ e = 2 ^ 15 * 256 ^ (e + 1) := by
      rw [Nat.pow_succ]
      omega
    have hle : 2 ^ 15 * 256 ^ j ≤ x / 256 ^ j * 256 ^ j := Nat.mul_le_mul_right _ hr
    have hmono : 2 ^ 15 * 256 ^ (e + 1) ≤ 2 ^ 15 * 256 ^ j := Nat.mul_le_mul_left _ hpow
    omega

/-- Every value `m * 256 ^ e` with a 23-bit `m` and at most `x` is at most `CompactTruncate x`. -/
theorem le_CompactTruncate {m e x : Nat} (hm : m < 2 ^ 23) (h : m * 256 ^ e ≤ x) :
    m * 256 ^ e ≤ CompactTruncate x := by
  by_cases hB : byteLength x ≤ 2
  · rw [CompactTruncate_of_le_two hB]
    exact h
  have h3 : 3 ≤ byteLength x := by omega
  have hx0 : x ≠ 0 := fun h => by rw [h, byteLength_zero] at h3; omega
  have hlo := pow_byteLength_pred_le hx0
  have h1 : 256 ^ (byteLength x - 1) = 256 ^ (byteLength x - 3) * 65536 := by
    rw [show byteLength x - 1 = byteLength x - 3 + 2 by omega, Nat.pow_add]
  have h2 : 256 ^ (byteLength x - 2) = 256 ^ (byteLength x - 3) * 256 := by
    rw [show byteLength x - 2 = byteLength x - 3 + 1 by omega, Nat.pow_succ]
  have hPpos := pow_256_pos (byteLength x - 3)
  have hq : 65536 ≤ x / 256 ^ (byteLength x - 3) :=
    (Nat.le_div_iff_mul_le hPpos).2 (by rw [h1] at hlo; omega)
  unfold CompactTruncate
  dsimp only
  split
  · -- two bytes of window: `2 ^ 15` is left above the bytes zeroed
    next hlead =>
    apply le_div_mul_of_lt hm _ h
    rw [h2, ← Nat.div_div_eq_div_mul]
    have := (lead_iff_sign h3).1 hlead
    omega
  · exact le_div_mul_of_lt hm (by omega) h

/-- A truncated target is itself a 23-bit mantissa times a power of `256`. -/
theorem CompactTruncate_representable (x : Nat) :
    ∃ m e, m < 2 ^ 23 ∧ CompactTruncate x = m * 256 ^ e := by
  have hm := CompactMantissa_lt x
  rw [← CompactValue_CompactTruncate]
  unfold CompactValue
  split
  · refine ⟨CompactMantissa x / 256 ^ (3 - CompactExponent x), 0, ?_, by rw [Nat.pow_zero, Nat.mul_one]⟩
    exact Nat.lt_of_le_of_lt (Nat.div_le_self _ _) hm
  · exact ⟨CompactMantissa x, CompactExponent x - 3, hm, rfl⟩

/-- Truncation to the compact format is monotone. -/
theorem CompactTruncate_mono {a b : Nat} (hab : a ≤ b) : CompactTruncate a ≤ CompactTruncate b := by
  obtain ⟨m, e, hm, ha⟩ := CompactTruncate_representable a
  rw [ha]
  apply le_CompactTruncate hm
  rw [← ha]
  exact Nat.le_trans (CompactTruncate_le a) hab

/-! ### What `SetCompact` decodes -/

theorem toNat_compact_exponent (c : UInt32) : (c >>> 24).toNat = c.toNat / 2 ^ 24 := by
  rw [UInt32.toNat_shiftRight, show (24 : UInt32).toNat % 32 = 24 from rfl,
    Nat.shiftRight_eq_div_pow]

theorem toNat_compact_mantissa (c : UInt32) : (c &&& 0x007fffff).toNat = c.toNat % 2 ^ 23 := by
  rw [UInt32.toNat_and, show (0x007fffff : UInt32).toNat = 2 ^ 23 - 1 from rfl,
    Nat.and_two_pow_sub_one_eq_mod]

/-- `SetCompact` decodes `mantissa * 256 ^ (exponent - 3)`, modulo `2 ^ 256`. -/
theorem SetCompact_value (c : UInt32) :
    (SetCompact c).1 = BitVec.ofNat 256 (CompactValue (c.toNat / 2 ^ 24) (c.toNat % 2 ^ 23)) := by
  unfold SetCompact CompactValue
  dsimp only
  rw [toNat_compact_exponent]
  have hm := toNat_compact_mantissa c
  have hmlt : c.toNat % 2 ^ 23 < 2 ^ 23 := Nat.mod_lt _ (by decide)
  by_cases hs : c.toNat / 2 ^ 24 ≤ 3
  · -- the mantissa is shifted down by the missing bytes
    have hshift : (8 * (3 - c.toNat / 2 ^ 24)) % 2 ^ 32 % 32 = 8 * (3 - c.toNat / 2 ^ 24) := by
      rw [Nat.mod_eq_of_lt (by omega), Nat.mod_eq_of_lt (by omega)]
    rw [if_pos hs, if_pos hs, if_pos hs, UInt32.toNat_shiftRight, hm, Nat.toUInt32_eq,
      UInt32.toNat_ofNat', hshift, Nat.shiftRight_eq_div_pow, ← pow_256]
  · rw [if_neg hs, if_neg hs, if_neg hs]
    apply BitVec.eq_of_toNat_eq
    rw [BitVec.toNat_shiftLeft, BitVec.toNat_ofNat, BitVec.toNat_ofNat, hm,
      Nat.mod_eq_of_lt (by omega : c.toNat % 2 ^ 23 < 2 ^ 256), Nat.shiftLeft_eq, ← pow_256]

/-- From an exponent of four on, the overflow test of `SetCompact` says that the value reaches
`2 ^ 256`. -/
theorem overflow_iff {m s : Nat} (hm : m < 2 ^ 23) (hm0 : 0 < m) (hs : 3 < s) :
    (34 < s ∨ (255 < m ∧ 33 < s) ∨ (65535 < m ∧ 32 < s)) ↔ 2 ^ 256 ≤ m * 256 ^ (s - 3) := by
  rcases (show s ≤ 32 ∨ s = 33 ∨ s = 34 ∨ 35 ≤ s by omega) with h | rfl | rfl | h
  · -- at most 29 bytes below the mantissa: the value stays below `2 ^ 255`
    have hpow : 256 ^ (s - 3) ≤ 256 ^ 29 := Nat.pow_le_pow_right (by decide) (by omega)
    have hprod : m * 256 ^ (s - 3) ≤ m * 256 ^ 29 := Nat.mul_le_mul_left m hpow
    omega
  · omega
  · omega
  · -- at least 32 bytes below the mantissa
    have hpow : 256 ^ 32 ≤ 256 ^ (s - 3) := Nat.pow_le_pow_right (by decide) (by omega)
    have hprod : 256 ^ (s - 3) ≤ m * 256 ^ (s - 3) := Nat.le_mul_of_pos_left _ hm0
    omega

/-- `SetCompact` flags an overflow exactly when the mantissa is not zero and its value does not
fit in 256 bits. -/
theorem SetCompact_overflow (c : UInt32) :
    (SetCompact c).2.2 = decide ((c &&& 0x007fffff).toNat ≠ 0 ∧
      2 ^ 256 ≤ (c &&& 0x007fffff).toNat * 256 ^ ((c >>> 24).toNat - 3)) := by
  unfold SetCompact
  dsimp only
  rw [decide_eq_decide]
  have hmlt : (c &&& 0x007fffff).toNat < 2 ^ 23 := by
    rw [toNat_compact_mantissa]
    exact Nat.mod_lt _ (by decide)
  by_cases hs : (c >>> 24).toNat ≤ 3
  · -- an exponent of at most three never overflows, nor reaches `2 ^ 256`
    rw [if_pos hs]
    constructor
    · rintro ⟨-, h | ⟨-, h⟩ | ⟨-, h⟩⟩ <;> omega
    · rintro ⟨-, h⟩
      rw [show (c >>> 24).toNat - 3 = 0 by omega, Nat.pow_zero, Nat.mul_one] at h
      omega
  · rw [if_neg hs]
    have hw0 : c &&& 0x007fffff ≠ 0 ↔ (c &&& 0x007fffff).toNat ≠ 0 := by
      rw [Ne, Ne, ← UInt32.toNat_inj]
      rfl
    have h255 : c &&& 0x007fffff > 0xff ↔ 255 < (c &&& 0x007fffff).toNat := UInt32.lt_iff_toNat_lt
    have h65535 : c &&& 0x007fffff > 0xffff ↔ 65535 < (c &&& 0x007fffff).toNat :=
      UInt32.lt_iff_toNat_lt
    rw [hw0, h255, h65535]
    constructor
    · rintro ⟨h0, h⟩
      exact ⟨h0, (overflow_iff hmlt (Nat.pos_of_ne_zero h0) (by omega)).1 h⟩
    · rintro ⟨h0, h⟩
      exact ⟨h0, (overflow_iff hmlt (Nat.pos_of_ne_zero h0) (by omega)).2 h⟩

/-- With its bit `0x00800000` clear, a compact number is not negative. -/
theorem SetCompact_negative_of_testBit {c : UInt32} (h : c.toNat.testBit 23 = false) :
    (SetCompact c).2.1 = false := by
  have hsign : c &&& 0x00800000 = 0 := by
    apply UInt32.toNat_inj.mp
    rw [UInt32.toNat_and, show (0x00800000 : UInt32).toNat = 2 ^ 23 from rfl, and_two_pow, h]
    rfl
  unfold SetCompact
  simp [hsign]

/-- A 23-bit mantissa under an exponent in the top byte, of a value that fits in 256 bits,
decodes to that value with neither flag. -/
theorem SetCompact_compact {m s : Nat} (hm : m < 2 ^ 23) (hs : s < 256)
    (hval : CompactValue s m < 2 ^ 256) :
    SetCompact (UInt32.ofNat (m + s * 2 ^ 24)) = (BitVec.ofNat 256 (CompactValue s m), false, false) := by
  have hc : (UInt32.ofNat (m + s * 2 ^ 24)).toNat = m + s * 2 ^ 24 := by
    rw [UInt32.toNat_ofNat']
    exact Nat.mod_eq_of_lt (by omega)
  have hexp : (m + s * 2 ^ 24) / 2 ^ 24 = s := by omega
  have hmant : (m + s * 2 ^ 24) % 2 ^ 23 = m := by omega
  have hbit : (m + s * 2 ^ 24).testBit 23 = false := by
    rw [Nat.add_comm, Nat.mul_comm, Nat.testBit_two_pow_mul_add s (by omega : m < 2 ^ 24),
      if_pos (by decide)]
    exact Nat.testBit_lt_two_pow hm
  have hover : (SetCompact (UInt32.ofNat (m + s * 2 ^ 24))).2.2 = false := by
    rw [SetCompact_overflow, toNat_compact_mantissa, toNat_compact_exponent, hc, hexp, hmant]
    apply decide_eq_false
    rintro ⟨-, hbig⟩
    by_cases h3 : s ≤ 3
    · rw [show s - 3 = 0 by omega, Nat.pow_zero, Nat.mul_one] at hbig
      omega
    · rw [CompactValue_of_three_le _ (by omega)] at hval
      omega
  have hneg := SetCompact_negative_of_testBit (hc ▸ hbit)
  have hvalue := SetCompact_value (UInt32.ofNat (m + s * 2 ^ 24))
  rw [hc, hexp, hmant] at hvalue
  exact Prod.ext hvalue (Prod.ext hneg hover)

/-- `SetCompact` decodes what `GetCompact` encodes as the target with the bytes below the window
zeroed, and flags neither a negative nor an overflow. -/
theorem SetCompact_GetCompact (x : arith_uint256) :
    ∃ c, GetCompact x false = .ok c ∧
      SetCompact c = (BitVec.ofNat 256 (CompactTruncate x.toNat), false, false) := by
  refine ⟨_, GetCompact_eq x, ?_⟩
  have hval : CompactTruncate x.toNat < 2 ^ 256 :=
    Nat.lt_of_le_of_lt (CompactTruncate_le _) x.isLt
  rw [← CompactValue_CompactTruncate] at hval ⊢
  exact SetCompact_compact (CompactMantissa_lt _)
    (by have := CompactExponent_le (byteLength_le_32 x); omega) hval

/-! ### The compact format -/

/-- Encoding a target and decoding it zeroes the bytes below the mantissa window, flags
nothing, never increases the target and encodes back to the same 32 bits; and decoding flags an
overflow exactly when the value does not fit in 256 bits. -/
theorem compact_encoding_round_trip :
    (∀ x : arith_uint256, ∃ c, GetCompact x false = .ok c ∧
      SetCompact c = (BitVec.ofNat 256 (CompactTruncate x.toNat), false, false) ∧
      GetCompact (SetCompact c).1 false = .ok c ∧ (SetCompact c).1 ≤ x) ∧
    ∀ c : UInt32, (SetCompact c).2.2 = true ↔
      (c &&& 0x007fffff).toNat ≠ 0 ∧
        2 ^ 256 ≤ (c &&& 0x007fffff).toNat * 256 ^ ((c >>> 24).toNat - 3) := by
  refine ⟨?_, ?_⟩
  · intro x
    obtain ⟨c, hget, hset⟩ := SetCompact_GetCompact x
    refine ⟨c, hget, hset, ?_, ?_⟩
    · rw [hset, GetCompact_CompactTruncate, hget]
    · rw [hset, BitVec.le_def, BitVec.toNat_ofNat,
        Nat.mod_eq_of_lt (Nat.lt_of_le_of_lt (CompactTruncate_le _) x.isLt)]
      exact CompactTruncate_le _
  · intro c
    rw [SetCompact_overflow, decide_eq_true_iff]

/-- The compact target `0x1d00ffff` of Bitcoin's genesis block, both ways. -/
example : SetCompact 0x1d00ffff = (BitVec.ofNat 256 (0xffff * 256 ^ 26), false, false) ∧
    GetCompact (BitVec.ofNat 256 (0xffff * 256 ^ 26)) false = .ok 0x1d00ffff := by
  decide

end Ravencoin
