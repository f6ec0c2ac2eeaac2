import Mathlib.Data.Nat.Size
import Mathlib.Data.Nat.Bitwise

/-!
# Numbers as lists of 32-bit limbs

A multi-precision integer of `n` limbs keeps its value in base `2 ^ 32`, least significant limb
first. This module gives the value of a limb list and the facts that limb-by-limb arithmetic
rests on: the value fits in `32 * n` bits, bit `t` of the value is bit `t % 32` of limb
`t / 32`, comparing from the top limb down is comparing values, and the bit length of the value
is found in its highest nonzero limb. It also splits a 64-bit accumulator into the low limb it
writes and the carry it keeps.

## Main definitions

* `Limbs.value` — the value of a list of limbs.

## Main results

* `Limbs.value_lt`, `Limbs.value_append`, `Limbs.value_concat` — the value by its parts.
* `Limbs.testBit_value` — the bits of the value are the bits of the limbs; `Limbs.testBit_or`,
  `Limbs.testBit_shiftLeft`, `Limbs.testBit_shiftRight` — those of one limb.
* `Limbs.value_lt_value_concat` — a smaller top limb makes a smaller value, whatever the limbs
  below.
* `Limbs.size_value_concat` — the bit length of a value with a nonzero top limb.
* `Limbs.low_add_high` — a 64-bit word is its low limb plus `2 ^ 32` times its high half.
* `Limbs.add_mul_mod_pow` — the reduction modulo `2 ^ (32 * n)` limb by limb.
-/

set_option autoImplicit false

namespace Limbs

/-- The value of a list of limbs, least significant first. -/
def value : List UInt32 → Nat
  | [] => 0
  | w :: ws => w.toNat + 2 ^ 32 * value ws

@[simp]
theorem value_nil : value [] = 0 := rfl

@[simp]
theorem value_cons (w : UInt32) (ws : List UInt32) : value (w :: ws) = w.toNat + 2 ^ 32 * value ws :=
  rfl

theorem value_lt (ws : List UInt32) : value ws < 2 ^ (32 * ws.length) := by
  induction ws with
  | nil => simp
  | cons w ws ih =>
    have hw := w.toNat_lt
    have hsucc : value ws + 1 ≤ 2 ^ (32 * ws.length) := ih
    calc value (w :: ws) = w.toNat + 2 ^ 32 * value ws := rfl
      _ < 2 ^ 32 * (value ws + 1) := by rw [Nat.mul_add]; omega
      _ ≤ 2 ^ 32 * 2 ^ (32 * ws.length) := Nat.mul_le_mul_left _ hsucc
      _ = 2 ^ (32 * (w :: ws).length) := by
        rw [List.length_cons, show 32 * (ws.length + 1) = 32 + 32 * ws.length by omega,
          Nat.pow_add]

theorem value_append (xs ys : List UInt32) :
    value (xs ++ ys) = value xs + 2 ^ (32 * xs.length) * value ys := by
  induction xs with
  | nil => simp
  | cons x xs ih =>
    simp only [List.cons_append, value_cons, List.length_cons, ih]
    rw [show 32 * (xs.length + 1) = 32 + 32 * xs.length by omega, Nat.pow_add, Nat.mul_add,
      ← Nat.mul_assoc, Nat.add_assoc]

/-- A top limb adds its value times the weight of its position. -/
theorem value_concat (xs : List UInt32) (x : UInt32) :
    value (xs ++ [x]) = value xs + 2 ^ (32 * xs.length) * x.toNat := by
  rw [value_append]
  simp

@[simp]
theorem value_replicate_zero (n : Nat) : value (List.replicate n 0) = 0 := by
  induction n with
  | zero => rfl
  | succ n ih => simp [List.replicate_succ, ih]

/-! ### Bits -/

/-- Bit `t` of the value is bit `t % 32` of limb `t / 32`. -/
theorem testBit_value (ws : List UInt32) (t : Nat) :
    (value ws).testBit t = (ws.getD (t / 32) 0).toNat.testBit (t % 32) := by
  induction ws generalizing t with
  | nil => simp
  | cons w ws ih =>
    rw [value_cons, Nat.add_comm, Nat.testBit_two_pow_mul_add _ w.toNat_lt]
    by_cases ht : t < 32
    · rw [if_pos ht, Nat.div_eq_of_lt ht, Nat.mod_eq_of_lt ht]
      rfl
    · rw [if_neg ht, ih]
      have hdiv : t / 32 = (t - 32) / 32 + 1 := by omega
      have hmod : t % 32 = (t - 32) % 32 := by omega
      rw [hdiv, hmod, List.getD_cons_succ]

/-- Bits of a limb from `32` on are clear. -/
theorem testBit_limb_of_le (x : UInt32) {r : Nat} (hr : 32 ≤ r) : x.toNat.testBit r = false :=
  Nat.testBit_lt_two_pow (Nat.lt_of_lt_of_le x.toNat_lt (Nat.pow_le_pow_right (by decide) hr))

theorem testBit_or (x y : UInt32) (r : Nat) :
    (x ||| y).toNat.testBit r = (x.toNat.testBit r || y.toNat.testBit r) := by
  rw [UInt32.toNat_or, Nat.testBit_or]

theorem testBit_shiftLeft (x : UInt32) {s : UInt32} (hs : s.toNat < 32) {r : Nat} (hr : r < 32) :
    (x <<< s).toNat.testBit r = (decide (s.toNat ≤ r) && x.toNat.testBit (r - s.toNat)) := by
  rw [UInt32.toNat_shiftLeft, Nat.mod_eq_of_lt hs, Nat.testBit_mod_two_pow, Nat.testBit_shiftLeft]
  simp [hr]

theorem testBit_shiftRight (x : UInt32) {s : UInt32} (hs : s.toNat < 32) (r : Nat) :
    (x >>> s).toNat.testBit r = x.toNat.testBit (r + s.toNat) := by
  rw [UInt32.toNat_shiftRight, Nat.mod_eq_of_lt hs, Nat.testBit_shiftRight, Nat.add_comm]

/-! ### Comparison from the top -/

/-- A smaller top limb gives a smaller value, whatever the limbs below it. -/
theorem value_lt_value_concat {xs ys : List UInt32} (hlen : xs.length = ys.length) {x y : UInt32}
    (hxy : x.toNat < y.toNat) : value (xs ++ [x]) < value (ys ++ [y]) := by
  rw [value_concat, value_concat, ← hlen]
  have hx := value_lt xs
  calc value xs + 2 ^ (32 * xs.length) * x.toNat
      < 2 ^ (32 * xs.length) * (x.toNat + 1) := by rw [Nat.mul_add]; omega
    _ ≤ 2 ^ (32 * xs.length) * y.toNat := Nat.mul_le_mul_left _ hxy
    _ ≤ value ys + 2 ^ (32 * xs.length) * y.toNat := Nat.le_add_left _ _

/-- Equal top limbs leave the comparison to the limbs below. -/
theorem value_concat_lt_iff {xs ys : List UInt32} (hlen : xs.length = ys.length) (x : UInt32) :
    value (xs ++ [x]) < value (ys ++ [x]) ↔ value xs < value ys := by
  rw [value_concat, value_concat, ← hlen]
  omega

/-! ### Bit length -/

/-- The bit length of a value whose top limb is nonzero is read in that limb. -/
theorem size_value_concat (xs : List UInt32) {x : UInt32} (hx : x ≠ 0) :
    (value (xs ++ [x])).size = 32 * xs.length + x.toNat.size := by
  have hxpos : 0 < x.toNat := by
    rcases Nat.eq_zero_or_pos x.toNat with h | h
    · exact absurd (UInt32.toNat_inj.1 (h.trans UInt32.toNat_zero.symm)) hx
    · exact h
  rw [value_concat]
  apply le_antisymm
  · rw [Nat.size_le, Nat.pow_add]
    have hlow := value_lt xs
    have htop := Nat.lt_size_self x.toNat
    calc value xs + 2 ^ (32 * xs.length) * x.toNat
        < 2 ^ (32 * xs.length) * (x.toNat + 1) := by rw [Nat.mul_add]; omega
      _ ≤ 2 ^ (32 * xs.length) * 2 ^ x.toNat.size := Nat.mul_le_mul_left _ htop
  · -- the value is at least the top limb's highest bit at its position
    have hsize : 1 ≤ x.toNat.size := Nat.size_pos.2 hxpos
    have hbit : 2 ^ (x.toNat.size - 1) ≤ x.toNat := Nat.lt_size.1 (by omega)
    have hlt : 32 * xs.length + (x.toNat.size - 1) <
        (value xs + 2 ^ (32 * xs.length) * x.toNat).size := by
      apply Nat.lt_size.2
      calc 2 ^ (32 * xs.length + (x.toNat.size - 1))
          = 2 ^ (32 * xs.length) * 2 ^ (x.toNat.size - 1) := Nat.pow_add _ _ _
        _ ≤ 2 ^ (32 * xs.length) * x.toNat := Nat.mul_le_mul_left _ hbit
        _ ≤ value xs + 2 ^ (32 * xs.length) * x.toNat := Nat.le_add_left _ _
    omega

/-- A zero top limb does not change the value. -/
theorem value_concat_zero (xs : List UInt32) : value (xs ++ [0]) = value xs := by
  rw [value_concat]
  simp

/-! ### Splitting a 64-bit accumulator -/

/-- `n & 0xffffffff` is the low limb of `n`. -/
theorem toNat_low (n : UInt64) : (n &&& 0xffffffff).toUInt32.toNat = n.toNat % 2 ^ 32 := by
  rw [UInt64.toNat_toUInt32, UInt64.toNat_and,
    show (0xffffffff : UInt64).toNat = 2 ^ 32 - 1 from rfl, Nat.and_two_pow_sub_one_eq_mod,
    Nat.mod_mod]

/-- `n >> 32` is the carry out of the low limb. -/
theorem toNat_high (n : UInt64) : (n >>> 32).toNat = n.toNat / 2 ^ 32 := by
  rw [UInt64.toNat_shiftRight, Nat.shiftRight_eq_div_pow]
  rfl

theorem low_add_high (n : UInt64) :
    (n &&& 0xffffffff).toUInt32.toNat + 2 ^ 32 * (n >>> 32).toNat = n.toNat := by
  rw [toNat_low, toNat_high]
  exact Nat.mod_add_div _ _

/-- Reducing `r + B * X` modulo `B * M` keeps the low part `r < B` and reduces `X`. -/
theorem add_mul_mod_mul {r B : Nat} (hr : r < B) (X M : Nat) :
    (r + B * X) % (B * M) = r + B * (X % M) := by
  rw [Nat.mod_mul, Nat.add_mul_mod_self_left, Nat.mod_eq_of_lt hr,
    Nat.add_mul_div_left _ _ (by omega), Nat.div_eq_of_lt hr, Nat.zero_add]

/-- Reducing a value modulo `2 ^ (32 * (m + 1))` keeps its low limb and reduces the rest
modulo `2 ^ (32 * m)`: the step of every carry loop. -/
theorem add_mul_mod_pow {r : Nat} (hr : r < 2 ^ 32) (X m : Nat) :
    (r + 2 ^ 32 * X) % 2 ^ (32 * (m + 1)) = r + 2 ^ 32 * (X % 2 ^ (32 * m)) := by
  rw [show 32 * (m + 1) = 32 + 32 * m by omega, Nat.pow_add]
  exact add_mul_mod_mul hr X _

end Limbs
