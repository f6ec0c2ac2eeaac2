import Mathlib.Data.Nat.Bitwise

/-!
# Single bits of 64-bit words

Code that packs flags into `uint64_t` words reads and writes them with shifts, masks and the
bitwise operators. This module names bit `i` of a word and says what each operator does to
it, so that an update of a packed word can be read one bit at a time.

## Main definitions

* `Word64.bit x i` — bit `i` of `x`, counted from the least significant one.

## Main results

* `Word64.bit_and`, `Word64.bit_or`, `Word64.bit_xor`, `Word64.bit_not`,
  `Word64.bit_shiftLeft`, `Word64.bit_shiftRight` — the operators bit by bit.
* `Word64.bit_setBit` — `(x & ~(1 << s)) | (v << s)` writes the bit `v` at `s` and keeps
  the others.
* `Word64.bit_negMask` — `0 - v` for a bit `v` is the word of all `v`.
* `Word64.shiftRight_and_one_eq_zero` — the test `((x >> s) & 1) == 0` reads bit `s`.
* `Word64.toNat_and_not_one`, `Word64.toNat_or_one` — the 32-bit positions `pos & ~1` and
  `pos | 1` are the two words of the pair `pos / 2`.

## Implementation notes

A shift amount is a `Nat` below `64` converted with `Nat.toUInt64`, as the C++ converts an
`int`; `UInt64` shifts reduce their amount modulo `64`, which is then the identity.
-/

set_option autoImplicit false

namespace Word64

/-- Bit `i` of `x`. -/
def bit (x : UInt64) (i : Nat) : Bool := x.toBitVec.getLsbD i

@[simp]
theorem bit_and (x y : UInt64) (i : Nat) : bit (x &&& y) i = (bit x i && bit y i) := by
  simp [bit]

@[simp]
theorem bit_or (x y : UInt64) (i : Nat) : bit (x ||| y) i = (bit x i || bit y i) := by
  simp [bit]

@[simp]
theorem bit_xor (x y : UInt64) (i : Nat) : bit (x ^^^ y) i = (bit x i ^^ bit y i) := by
  simp [bit]

theorem bit_not (x : UInt64) {i : Nat} (hi : i < 64) : bit (~~~x) i = !bit x i := by
  simp [bit, hi]

/-- A word has no bits from `64` on. -/
theorem bit_of_le (x : UInt64) {i : Nat} (hi : 64 ≤ i) : bit x i = false := by
  simp only [bit]
  exact BitVec.getLsbD_of_ge x.toBitVec i hi

@[simp]
theorem bit_zero (i : Nat) : bit 0 i = false := by
  simp [bit]

/-- The word of a bit `v` has `v` at bit `0` and nothing else. -/
theorem bit_toUInt64 {v : Nat} (hv : v ≤ 1) (i : Nat) :
    bit v.toUInt64 i = (decide (i = 0) && v == 1) := by
  rcases Nat.le_one_iff_eq_zero_or_eq_one.1 hv with rfl | rfl
  · simp
  · simp [bit]

@[simp]
theorem bit_one (i : Nat) : bit 1 i = decide (i = 0) := by
  simp [bit]

theorem toNat_shift_amount {s : Nat} (hs : s < 64) : (s.toUInt64.toBitVec % 64).toNat = s := by
  have hnat : s.toUInt64.toNat = s := UInt64.toNat_ofNat_of_lt' (by simp only [UInt64.size]; omega)
  simp only [BitVec.toNat_umod, UInt64.toNat_toBitVec, hnat,
    show (64 : BitVec 64).toNat = 64 from rfl]
  omega

theorem bit_shiftLeft (x : UInt64) {s i : Nat} (hs : s < 64) (hi : i < 64) :
    bit (x <<< s.toUInt64) i = (decide (s ≤ i) && bit x (i - s)) := by
  simp only [bit, UInt64.toBitVec_shiftLeft, BitVec.shiftLeft_eq', toNat_shift_amount hs,
    BitVec.getLsbD_shiftLeft, hi, decide_true, Bool.true_and]
  by_cases h : s ≤ i <;> simp [h]

theorem bit_shiftRight (x : UInt64) {s : Nat} (hs : s < 64) (i : Nat) :
    bit (x >>> s.toUInt64) i = bit x (s + i) := by
  simp only [bit, UInt64.toBitVec_shiftRight, BitVec.ushiftRight_eq', toNat_shift_amount hs,
    BitVec.getLsbD_ushiftRight]

/-- A bit `v` shifted to `s` has `v` at `s` and nothing else. -/
theorem bit_toUInt64_shiftLeft {v s : Nat} (hv : v ≤ 1) (hs : s < 64) (i : Nat) :
    bit (v.toUInt64 <<< s.toUInt64) i = (decide (i = s) && v == 1) := by
  rcases Nat.lt_or_ge i 64 with hi | hi
  · rw [bit_shiftLeft _ hs hi, bit_toUInt64 hv]
    by_cases h : i = s
    · simp [h]
    · simp only [h, decide_false, Bool.false_and, Bool.and_eq_false_iff, decide_eq_false_iff_not]
      omega
  · have : i ≠ s := by omega
    simp [bit_of_le _ hi, this]

/-- `(x & ~(1 << s)) | (v << s)` writes the bit `v` at `s`. -/
theorem bit_setBit (x : UInt64) {v s : Nat} (hv : v ≤ 1) (hs : s < 64) (i : Nat) :
    bit ((x &&& ~~~((1 : UInt64) <<< s.toUInt64)) ||| (v.toUInt64 <<< s.toUInt64)) i =
      if i = s then v == 1 else bit x i := by
  rcases Nat.lt_or_ge i 64 with hi | hi
  · have hone := bit_toUInt64_shiftLeft (Nat.le_refl 1) hs i
    simp only [Nat.toUInt64_eq, UInt64.ofNat_one] at hone
    rw [bit_or, bit_and, bit_not _ hi, hone, bit_toUInt64_shiftLeft hv hs]
    by_cases h : i = s <;> simp [h]
  · have : i ≠ s := by omega
    simp [bit_of_le _ hi, this]

/-- `0 - v` for a bit `v` is all zeros or all ones. -/
theorem bit_negMask {v : Nat} (hv : v ≤ 1) (i : Nat) :
    bit (0 - v.toUInt64) i = (decide (i < 64) && v == 1) := by
  rcases Nat.le_one_iff_eq_zero_or_eq_one.1 hv with rfl | rfl
  · simp
  · rcases Nat.lt_or_ge i 64 with hi | hi
    · simp only [bit, Nat.toUInt64_eq, UInt64.ofNat_one, UInt64.zero_sub, UInt64.toBitVec_neg,
        UInt64.toBitVec_one, BitVec.neg_one_eq_allOnes, BitVec.getLsbD_allOnes]
      simp [hi]
    · simp [bit_of_le _ hi, Nat.not_lt.2 hi]

theorem shiftRight_and_one_eq_zero (x : UInt64) {s : Nat} (hs : s < 64) :
    (x >>> s.toUInt64) &&& 1 = 0 ↔ bit x s = false := by
  have hbit : ∀ i, bit ((x >>> s.toUInt64) &&& 1) i = (decide (i = 0) && bit x s) := by
    intro i
    rw [bit_and, bit_shiftRight _ hs, bit_one]
    by_cases h : i = 0 <;> simp [h]
  constructor
  · intro h
    simpa [h] using hbit 0
  · intro h
    apply UInt64.toBitVec_inj.1
    apply BitVec.eq_of_getLsbD_eq
    intro i _
    change bit _ i = bit 0 i
    simp [hbit, h]

/-! ### Pairs of words -/

/-- `pos & ~1` is the first word of the pair `pos / 2`. -/
theorem toNat_and_not_one (p : UInt32) : (p &&& ~~~1).toNat = 2 * (p.toNat / 2) := by
  rw [UInt32.toNat_and]
  apply Nat.eq_of_testBit_eq
  intro i
  rw [Nat.testBit_and]
  cases i with
  | zero => simp
  | succ j =>
    simp only [Nat.testBit_succ]
    rw [Nat.mul_div_cancel_left _ (by decide : 0 < 2)]
    rcases Nat.lt_or_ge j 31 with hj | hj
    · -- the mask has bits `1` to `31`
      have : ((~~~(1 : UInt32)).toNat / 2).testBit j = true := by
        rw [show (~~~(1 : UInt32)).toNat / 2 = 2 ^ 31 - 1 from rfl, Nat.testBit_two_pow_sub_one]
        simpa using hj
      rw [this, Bool.and_true]
    · have hlt : p.toNat / 2 < 2 ^ j := by
        have := p.toNat_lt
        have : 2 ^ 31 ≤ 2 ^ j := Nat.pow_le_pow_right (by decide) hj
        omega
      simp [Nat.testBit_eq_false_of_lt hlt]

/-- `pos | 1` is the second word of the pair `pos / 2`. -/
theorem toNat_or_one (p : UInt32) : (p ||| 1).toNat = 2 * (p.toNat / 2) + 1 := by
  rw [UInt32.toNat_or]
  apply Nat.eq_of_testBit_eq
  intro i
  rw [Nat.testBit_or]
  cases i with
  | zero => simp
  | succ j =>
    simp only [Nat.testBit_succ]
    have : (2 * (p.toNat / 2) + 1) / 2 = p.toNat / 2 := by omega
    rw [this]
    simp

end Word64
