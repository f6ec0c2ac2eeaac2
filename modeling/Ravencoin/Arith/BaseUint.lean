import Ravencoin.Lib.Limbs
import Ravencoin.Lib.ExceptRun
import Ravencoin.Arith.Uint256
import Mathlib.Tactic.Ring

/-!
# `base_uint`, limb by limb (`arith_uint256.h`, `arith_uint256.cpp`)

`base_uint<BITS>` keeps a number in `WIDTH = BITS / 32` limbs `pn` of 32 bits, least
significant first, and computes on them with loops: addition and the two multiplications carry
through a 64-bit accumulator, negation is the complement plus one, the shifts move every limb by
`shift / 32` places and its bits by `shift % 32`, comparison runs from the top limb down, `bits`
scans for the highest set bit, and division is a shift-and-subtract loop built from the others.

This module models each of these loops as the source writes it and proves that it computes the
operation on the value modulo `2 ^ (32 * WIDTH)`: the limbs are a faithful implementation of
arithmetic modulo a power of two, and at `WIDTH = 8` they implement the value model of
`arith_uint256` that the proof-of-work code uses.

## Main definitions

* `Ravencoin.base_uint` — `WIDTH` limbs, least significant first.
* `base_uint.add`, `base_uint.complement`, `base_uint.inc`, `base_uint.dec`, `base_uint.neg`,
  `base_uint.sub` — `operator+=`, `~`, `++`, `--`, unary `-` and `operator-=`.
* `base_uint.mul32`, `base_uint.mul` — the two `operator*=`.
* `base_uint.shl`, `base_uint.shr` — `operator<<=` and `operator>>=`.
* `base_uint.CompareTo`, `base_uint.bits`, `base_uint.div`.

## Main results

* `base_uint.val_add`, `base_uint.val_sub`, `base_uint.val_mul32`, `base_uint.val_mul`,
  `base_uint.val_shl`, `base_uint.val_shr` — each operation on the value.
* `base_uint.CompareTo_eq`, `base_uint.bits_eq_size` — comparison and bit length.
* `base_uint.val_DivLoop` — the shift-and-subtract loop computes the quotient from every state
  of its invariant `base_uint.DivInv`; `base_uint.val_div` and `base_uint.div_of_val_eq_zero`.
* `Ravencoin.base_uint_exact_arithmetic` — all of these at `WIDTH = 8`.

## Implementation notes

The limbs are a list with its length as a field. Every loop of the source runs over the limb
indices in order, and each is modelled by recursion on the limbs or by a fold over
`List.range WIDTH` with the same updates. In `operator/=` and `bits` the C++ writes
`1 << (shift & 31)` and `1 << nbits` with an `int` `1`; shifting it into the sign bit gives
`0x80000000` once it is converted back to `uint32_t`, which is the `UInt32` shift of the model.
The constructors from `uint64_t`, the operators with a `uint64_t` operand, the bitwise
operators, `getdouble` and the hexadecimal conversions are not modelled.
-/

set_option autoImplicit false

namespace Ravencoin

/-- `base_uint<BITS>`: `WIDTH = BITS / 32` limbs, least significant first. -/
structure base_uint (WIDTH : Nat) where
  pn : List UInt32
  length_pn : pn.length = WIDTH

namespace base_uint

variable {WIDTH : Nat}

/-! ### The model -/

/-- `base_uint()`: every limb zero. -/
def zero (WIDTH : Nat) : base_uint WIDTH := ⟨List.replicate WIDTH 0, List.length_replicate⟩

/-- The loop of `operator+=`: a limb of each operand and the carry are added in 64 bits, the
low half is kept and the high half carried. -/
def AddLoop (carry : UInt64) : List UInt32 → List UInt32 → List UInt32
  | a :: as, b :: bs =>
    let n := carry + a.toUInt64 + b.toUInt64
    (n &&& 0xffffffff).toUInt32 :: AddLoop (n >>> 32) as bs
  | _, _ => []

theorem length_AddLoop (carry : UInt64) (as bs : List UInt32) :
    (AddLoop carry as bs).length = min as.length bs.length := by
  induction as generalizing carry bs with
  | nil => simp [AddLoop]
  | cons a as ih =>
    cases bs with
    | nil => simp [AddLoop]
    | cons b bs => simp [AddLoop, ih, Nat.add_min_add_right]

/-- `operator+=`. -/
def add (a b : base_uint WIDTH) : base_uint WIDTH :=
  ⟨AddLoop 0 a.pn b.pn, by rw [length_AddLoop, a.length_pn, b.length_pn, Nat.min_self]⟩

/-- `operator~`. -/
def complement (a : base_uint WIDTH) : base_uint WIDTH :=
  ⟨a.pn.map (~~~·), by rw [List.length_map, a.length_pn]⟩

/-- The loop of the prefix `operator++`: `++pn[i]`, and on to the next limb while it wrapped to
zero. -/
def IncLoop : List UInt32 → List UInt32
  | [] => []
  | x :: xs =>
    let y := x + 1
    y :: if y = 0 then IncLoop xs else xs

theorem length_IncLoop (xs : List UInt32) : (IncLoop xs).length = xs.length := by
  induction xs with
  | nil => rfl
  | cons x xs ih =>
    simp only [IncLoop, List.length_cons]
    split <;> simp [ih]

/-- The prefix `operator++`. -/
def inc (a : base_uint WIDTH) : base_uint WIDTH :=
  ⟨IncLoop a.pn, by rw [length_IncLoop, a.length_pn]⟩

/-- The loop of the prefix `operator--`: `--pn[i]`, and on while it wrapped to `(uint32_t)-1`. -/
def DecLoop : List UInt32 → List UInt32
  | [] => []
  | x :: xs =>
    let y := x - 1
    y :: if y = 0xffffffff then DecLoop xs else xs

theorem length_DecLoop (xs : List UInt32) : (DecLoop xs).length = xs.length := by
  induction xs with
  | nil => rfl
  | cons x xs ih =>
    simp only [DecLoop, List.length_cons]
    split <;> simp [ih]

/-- The prefix `operator--`. -/
def dec (a : base_uint WIDTH) : base_uint WIDTH :=
  ⟨DecLoop a.pn, by rw [length_DecLoop, a.length_pn]⟩

/-- The unary `operator-`: the complement, incremented. -/
def neg (a : base_uint WIDTH) : base_uint WIDTH := a.complement.inc

/-- `operator-=`: `*this += -b`. -/
def sub (a b : base_uint WIDTH) : base_uint WIDTH := a.add b.neg

/-- The loop of `operator*=(uint32_t)`. -/
def MulLoop32 (b32 : UInt32) (carry : UInt64) : List UInt32 → List UInt32
  | [] => []
  | a :: as =>
    let n := carry + b32.toUInt64 * a.toUInt64
    (n &&& 0xffffffff).toUInt32 :: MulLoop32 b32 (n >>> 32) as

theorem length_MulLoop32 (b32 : UInt32) (carry : UInt64) (as : List UInt32) :
    (MulLoop32 b32 carry as).length = as.length := by
  induction as generalizing carry with
  | nil => rfl
  | cons a as ih => simp [MulLoop32, ih]

/-- `operator*=(uint32_t)`. -/
def mul32 (a : base_uint WIDTH) (b32 : UInt32) : base_uint WIDTH :=
  ⟨MulLoop32 b32 0 a.pn, by rw [length_MulLoop32, a.length_pn]⟩

/-- The inner loop of `operator*=(const base_uint&)` for the limb `aj = a.pn[j]`: over the
limbs `pn[i + j]` of the product from `j` on, with `b.pn[i]`. -/
def MulRow (aj : UInt32) (carry : UInt64) : List UInt32 → List UInt32 → List UInt32
  | p :: ps, b :: bs =>
    let n := carry + p.toUInt64 + aj.toUInt64 * b.toUInt64
    (n &&& 0xffffffff).toUInt32 :: MulRow aj (n >>> 32) ps bs
  | ps, _ => ps

theorem length_MulRow (aj : UInt32) (carry : UInt64) (ps bs : List UInt32) :
    (MulRow aj carry ps bs).length = ps.length := by
  induction ps generalizing carry bs with
  | nil => cases bs <;> rfl
  | cons p ps ih =>
    cases bs with
    | nil => rfl
    | cons b bs => simp [MulRow, ih]

/-- The outer loop of `operator*=(const base_uint&)`, over the limbs `a.pn[j]` from `j` on. -/
def MulRows (b : List UInt32) : Nat → List UInt32 → List UInt32 → List UInt32
  | _, [], acc => acc
  | j, aj :: as, acc => MulRows b (j + 1) as (acc.take j ++ MulRow aj 0 (acc.drop j) b)

theorem length_MulRows (b : List UInt32) (j : Nat) (as acc : List UInt32) :
    (MulRows b j as acc).length = acc.length := by
  induction as generalizing j acc with
  | nil => rfl
  | cons aj as ih =>
    rw [MulRows, ih, List.length_append, length_MulRow, List.length_take, List.length_drop]
    omega

/-- `operator*=(const base_uint&)`. -/
def mul (a b : base_uint WIDTH) : base_uint WIDTH :=
  ⟨MulRows b.pn 0 a.pn (List.replicate WIDTH 0), by
    rw [length_MulRows, List.length_replicate]⟩

/-- The loop of `operator<<=` over the limbs `i` of the old value `a`, with `k = shift / 32`
and `s = shift % 32`. -/
def ShlLoop (a : List UInt32) (WIDTH k : Nat) (s : UInt32) (pn : List UInt32) (i : Nat) :
    List UInt32 :=
  let pn := if i + k + 1 < WIDTH ∧ s ≠ 0 then
    pn.modify (i + k + 1) (· ||| (a.getD i 0 >>> (32 - s))) else pn
  if i + k < WIDTH then pn.modify (i + k) (· ||| (a.getD i 0 <<< s)) else pn

theorem length_ShlLoop (a : List UInt32) (WIDTH k : Nat) (s : UInt32) (pn : List UInt32)
    (i : Nat) : (ShlLoop a WIDTH k s pn i).length = pn.length := by
  unfold ShlLoop
  split_ifs <;> simp

/-- `operator<<=`. -/
def shl (a : base_uint WIDTH) (shift : UInt32) : base_uint WIDTH :=
  ⟨(List.range WIDTH).foldl (ShlLoop a.pn WIDTH (shift / 32).toNat (shift % 32))
      (List.replicate WIDTH 0),
    ExceptRun.foldl_invariant _ (fun _ pn => pn.length = WIDTH) _ List.length_replicate
      fun _ i _ _ pn h => (length_ShlLoop _ _ _ _ pn i).trans h⟩

/-- The loop of `operator>>=`. -/
def ShrLoop (a : List UInt32) (k : Nat) (s : UInt32) (pn : List UInt32) (i : Nat) :
    List UInt32 :=
  let pn := if k + 1 ≤ i ∧ s ≠ 0 then
    pn.modify (i - k - 1) (· ||| (a.getD i 0 <<< (32 - s))) else pn
  if k ≤ i then pn.modify (i - k) (· ||| (a.getD i 0 >>> s)) else pn

theorem length_ShrLoop (a : List UInt32) (k : Nat) (s : UInt32) (pn : List UInt32) (i : Nat) :
    (ShrLoop a k s pn i).length = pn.length := by
  unfold ShrLoop
  split_ifs <;> simp

/-- `operator>>=`. -/
def shr (a : base_uint WIDTH) (shift : UInt32) : base_uint WIDTH :=
  ⟨(List.range WIDTH).foldl (ShrLoop a.pn (shift / 32).toNat (shift % 32))
      (List.replicate WIDTH 0),
    ExceptRun.foldl_invariant _ (fun _ pn => pn.length = WIDTH) _ List.length_replicate
      fun _ i _ _ pn h => (length_ShrLoop _ _ _ pn i).trans h⟩

/-- The loop of `CompareTo`, over the limbs from the top. -/
def CompareLoop : List UInt32 → List UInt32 → Int
  | x :: xs, y :: ys => if x < y then -1 else if x > y then 1 else CompareLoop xs ys
  | _, _ => 0

/-- `CompareTo`: `-1`, `0` or `1`. -/
def CompareTo (a b : base_uint WIDTH) : Int := CompareLoop a.pn.reverse b.pn.reverse

/-- The inner loop of `bits()`, over `nbits` from the top bit of one limb down to `1`; it
returns `nbits + 1`, and `1` when no bit above the lowest is set. -/
def LimbBits (x : UInt32) : Nat → Nat
  | 0 => 1
  | nbits + 1 => if x &&& ((1 : UInt32) <<< (nbits + 1).toUInt32) ≠ 0 then nbits + 2
    else LimbBits x nbits

/-- The outer loop of `bits()`, over the limbs from the top, `pos` the index of the first. -/
def BitsLoop : Nat → List UInt32 → Nat
  | _, [] => 0
  | pos, x :: xs => if x ≠ 0 then 32 * pos + LimbBits x 31 else BitsLoop (pos - 1) xs

/-- `bits()`: the position of the highest set bit plus one, `0` for zero. -/
def bits (a : base_uint WIDTH) : Nat := BitsLoop (WIDTH - 1) a.pn.reverse

/-- `pn[shift / 32] |= (1 << (shift & 31))`: set bit `shift` of the quotient. -/
def SetBit (a : base_uint WIDTH) (shift : Nat) : base_uint WIDTH :=
  ⟨a.pn.modify (shift / 32) (· ||| ((1 : UInt32) <<< (shift % 32).toUInt32)), by
    rw [List.length_modify, a.length_pn]⟩

/-- The loop of `operator/=` from `shift` down to `0`: where the remainder `num` reaches the
shifted divisor `div`, subtract it and set bit `shift` of the quotient; then halve `div`. -/
def DivLoop (shift : Nat) (num div quot : base_uint WIDTH) : base_uint WIDTH :=
  let step := if CompareTo num div ≥ 0 then (num.sub div, quot.SetBit shift) else (num, quot)
  match shift with
  | 0 => step.2
  | s + 1 => DivLoop s step.1 (div.shr 1) step.2

/-- `operator/=`: a zero divisor throws `uint_error`. -/
def div (a b : base_uint WIDTH) : Except Halt (base_uint WIDTH) :=
  let num_bits := a.bits
  let div_bits := b.bits
  if div_bits = 0 then throw (.abort (str "Division by zero"))
  else if div_bits > num_bits then pure (zero WIDTH)
  else
    let shift := num_bits - div_bits
    pure (DivLoop shift a (b.shl shift.toUInt32) (zero WIDTH))

/-! ### Values -/

/-- The number that the limbs stand for. -/
def val (a : base_uint WIDTH) : Nat := Limbs.value a.pn

theorem val_lt (a : base_uint WIDTH) : a.val < 2 ^ (32 * WIDTH) := by
  have := Limbs.value_lt a.pn
  rwa [a.length_pn] at this

@[simp]
theorem val_zero : (zero WIDTH).val = 0 := Limbs.value_replicate_zero WIDTH

/-- The sum of two limbs and a carry of at most one does not wrap in 64 bits. -/
theorem toNat_add_limbs (carry : UInt64) (a b : UInt32) (hc : carry.toNat ≤ 1) :
    (carry + a.toUInt64 + b.toUInt64).toNat = carry.toNat + a.toNat + b.toNat := by
  have ha := a.toNat_lt
  have hb := b.toNat_lt
  rw [UInt64.toNat_add, UInt64.toNat_add, UInt32.toNat_toUInt64, UInt32.toNat_toUInt64,
    Nat.mod_eq_of_lt (by omega), Nat.mod_eq_of_lt (by omega)]

theorem value_AddLoop (as : List UInt32) :
    ∀ (carry : UInt64) (bs : List UInt32), carry.toNat ≤ 1 → as.length = bs.length →
      Limbs.value (AddLoop carry as bs) =
        (carry.toNat + Limbs.value as + Limbs.value bs) % 2 ^ (32 * as.length) := by
  induction as with
  | nil =>
    intro carry bs _ _
    simp [AddLoop, Nat.mod_one]
  | cons a as ih =>
    intro carry bs hc hlen
    obtain _ | ⟨b, bs⟩ := bs
    · simp at hlen
    have hn := toNat_add_limbs carry a b hc
    have hsplit := Limbs.low_add_high (carry + a.toUInt64 + b.toUInt64)
    -- the carry out is at most one as well
    have hc' : ((carry + a.toUInt64 + b.toUInt64) >>> 32).toNat ≤ 1 := by
      rw [Limbs.toNat_high, hn]
      have := a.toNat_lt
      have := b.toNat_lt
      omega
    simp only [AddLoop, Limbs.value_cons, List.length_cons]
    rw [ih _ bs hc' (by simpa using hlen), ← Limbs.add_mul_mod_pow (UInt64.toNat_toUInt32 _ ▸
      Nat.mod_lt _ (by decide))]
    congr 1
    rw [hn] at hsplit
    rw [Nat.mul_add, Nat.mul_add, ← Nat.add_assoc, ← Nat.add_assoc, hsplit]
    omega

/-- `operator+=` adds modulo `2 ^ (32 * WIDTH)`. -/
theorem val_add (a b : base_uint WIDTH) : (a.add b).val = (a.val + b.val) % 2 ^ (32 * WIDTH) := by
  have := value_AddLoop a.pn 0 b.pn (by decide) (a.length_pn.trans b.length_pn.symm)
  rw [a.length_pn] at this
  simpa [val, add] using this

theorem value_map_complement (xs : List UInt32) :
    Limbs.value (xs.map (~~~·)) = 2 ^ (32 * xs.length) - 1 - Limbs.value xs := by
  induction xs with
  | nil => rfl
  | cons x xs ih =>
    have hx := x.toNat_lt
    have hv := Limbs.value_lt xs
    rw [List.map_cons, Limbs.value_cons, Limbs.value_cons, ih, UInt32.toNat_not, List.length_cons,
      show 32 * (xs.length + 1) = 32 + 32 * xs.length by omega, Nat.pow_add]
    generalize 2 ^ (32 * xs.length) = P at hv ⊢
    simp only [UInt32.size] at hx ⊢
    rw [Nat.mul_sub, Nat.mul_sub, Nat.mul_one]
    have : 2 ^ 32 * (Limbs.value xs + 1) ≤ 2 ^ 32 * P := Nat.mul_le_mul_left _ hv
    rw [Nat.mul_add, Nat.mul_one] at this
    omega

/-- `operator~` is `2 ^ (32 * WIDTH) - 1 - a`. -/
theorem val_complement (a : base_uint WIDTH) :
    a.complement.val = 2 ^ (32 * WIDTH) - 1 - a.val := by
  unfold complement val
  rw [value_map_complement, a.length_pn]

theorem value_IncLoop (xs : List UInt32) :
    Limbs.value (IncLoop xs) = (Limbs.value xs + 1) % 2 ^ (32 * xs.length) := by
  induction xs with
  | nil => rfl
  | cons x xs ih =>
    have hx := x.toNat_lt
    have hy : (x + 1).toNat = (x.toNat + 1) % 2 ^ 32 := by
      rw [UInt32.toNat_add]
      rfl
    simp only [IncLoop, List.length_cons]
    split
    · -- the limb wraps to zero and the carry moves up
      next hzero =>
      have hmax : x.toNat = 2 ^ 32 - 1 := by
        have := congrArg UInt32.toNat hzero
        rw [hy, UInt32.toNat_zero] at this
        omega
      rw [Limbs.value_cons, Limbs.value_cons, ih, hzero, UInt32.toNat_zero, Nat.zero_add,
        show x.toNat + 2 ^ 32 * Limbs.value xs + 1 = 0 + 2 ^ 32 * (Limbs.value xs + 1) by omega,
        Limbs.add_mul_mod_pow (by decide), Nat.zero_add]
    · next hne =>
      have hlt : x.toNat + 1 < 2 ^ 32 := by
        rcases Nat.lt_or_ge (x.toNat + 1) (2 ^ 32) with h | h
        · exact h
        · exact absurd (UInt32.toNat_inj.1 (by rw [hy, UInt32.toNat_zero]; omega)) hne
      rw [Limbs.value_cons, Limbs.value_cons, hy, Nat.mod_eq_of_lt hlt,
        show x.toNat + 2 ^ 32 * Limbs.value xs + 1 = (x.toNat + 1) + 2 ^ 32 * Limbs.value xs by
          omega,
        Limbs.add_mul_mod_pow hlt, Nat.mod_eq_of_lt (Limbs.value_lt xs)]

/-- The prefix `operator++` adds one modulo `2 ^ (32 * WIDTH)`. -/
theorem val_inc (a : base_uint WIDTH) : a.inc.val = (a.val + 1) % 2 ^ (32 * WIDTH) := by
  unfold inc val
  rw [value_IncLoop, a.length_pn]

/-- The unary `operator-` is `2 ^ (32 * WIDTH) - a`, modulo `2 ^ (32 * WIDTH)`. -/
theorem val_neg (a : base_uint WIDTH) :
    a.neg.val = (2 ^ (32 * WIDTH) - a.val) % 2 ^ (32 * WIDTH) := by
  have ha := a.val_lt
  unfold neg
  rw [val_inc, val_complement]
  congr 1
  omega

/-- `operator-=` subtracts modulo `2 ^ (32 * WIDTH)`. -/
theorem val_sub (a b : base_uint WIDTH) :
    (a.sub b).val = (a.val + (2 ^ (32 * WIDTH) - b.val)) % 2 ^ (32 * WIDTH) := by
  unfold sub
  rw [val_add, val_neg, Nat.add_mod_mod]

/-- Without a borrow, `operator-=` is the difference. -/
theorem val_sub_of_le {a b : base_uint WIDTH} (h : b.val ≤ a.val) :
    (a.sub b).val = a.val - b.val := by
  have ha := a.val_lt
  rw [val_sub, show a.val + (2 ^ (32 * WIDTH) - b.val) = (a.val - b.val) + 2 ^ (32 * WIDTH) by
    omega, Nat.add_mod_right, Nat.mod_eq_of_lt (by omega)]

/-- The product of two limbs plus two more fits in 64 bits. -/
theorem mul_add_add_lt (x y p c : Nat) (hx : x < 2 ^ 32) (hy : y < 2 ^ 32) (hp : p < 2 ^ 32)
    (hc : c < 2 ^ 32) : c + p + x * y < 2 ^ 64 := by
  have : x * y ≤ (2 ^ 32 - 1) * (2 ^ 32 - 1) :=
    Nat.mul_le_mul (by omega) (by omega)
  have h : (2 ^ 32 - 1) * (2 ^ 32 - 1) = 2 ^ 64 - 2 * 2 ^ 32 + 1 := by decide
  omega

theorem value_MulLoop32 (b32 : UInt32) (as : List UInt32) :
    ∀ carry : UInt64, carry.toNat < 2 ^ 32 →
      Limbs.value (MulLoop32 b32 carry as) =
        (carry.toNat + b32.toNat * Limbs.value as) % 2 ^ (32 * as.length) := by
  induction as with
  | nil =>
    intro carry _
    simp [MulLoop32, Nat.mod_one]
  | cons a as ih =>
    intro carry hc
    have hlt := mul_add_add_lt b32.toNat a.toNat 0 carry.toNat b32.toNat_lt a.toNat_lt
      (by decide) hc
    have hn : (carry + b32.toUInt64 * a.toUInt64).toNat = carry.toNat + b32.toNat * a.toNat := by
      rw [UInt64.toNat_add, UInt64.toNat_mul, UInt32.toNat_toUInt64, UInt32.toNat_toUInt64,
        Nat.mod_eq_of_lt (by omega), Nat.mod_eq_of_lt (by omega)]
    have hsplit := Limbs.low_add_high (carry + b32.toUInt64 * a.toUInt64)
    rw [hn] at hsplit
    have hc' : ((carry + b32.toUInt64 * a.toUInt64) >>> 32).toNat < 2 ^ 32 := by
      rw [Limbs.toNat_high, hn]
      omega
    simp only [MulLoop32, Limbs.value_cons, List.length_cons]
    rw [ih _ hc', ← Limbs.add_mul_mod_pow (UInt64.toNat_toUInt32 _ ▸ Nat.mod_lt _ (by decide))]
    congr 1
    rw [Nat.mul_add, ← Nat.add_assoc, hsplit]
    ring

/-- `operator*=(uint32_t)` multiplies modulo `2 ^ (32 * WIDTH)`. -/
theorem val_mul32 (a : base_uint WIDTH) (b32 : UInt32) :
    (a.mul32 b32).val = a.val * b32.toNat % 2 ^ (32 * WIDTH) := by
  have := value_MulLoop32 b32 a.pn 0 (by decide)
  rw [a.length_pn] at this
  simpa [val, mul32, Nat.mul_comm] using this

/-- One row of `operator*=`: the row's limbs hold the old limbs plus `aj` times the low limbs of
`b`, modulo their weight. -/
theorem value_MulRow (aj : UInt32) (ps : List UInt32) :
    ∀ (carry : UInt64) (bs : List UInt32), carry.toNat < 2 ^ 32 → ps.length ≤ bs.length →
      Limbs.value (MulRow aj carry ps bs) =
        (carry.toNat + Limbs.value ps + aj.toNat * Limbs.value bs) % 2 ^ (32 * ps.length) := by
  induction ps with
  | nil =>
    intro carry bs _ _
    cases bs <;> simp [MulRow, Nat.mod_one]
  | cons p ps ih =>
    intro carry bs hc hlen
    obtain _ | ⟨b, bs⟩ := bs
    · simp at hlen
    have hlt := mul_add_add_lt aj.toNat b.toNat p.toNat carry.toNat aj.toNat_lt b.toNat_lt
      p.toNat_lt hc
    have hn : (carry + p.toUInt64 + aj.toUInt64 * b.toUInt64).toNat =
        carry.toNat + p.toNat + aj.toNat * b.toNat := by
      have := p.toNat_lt
      rw [UInt64.toNat_add, UInt64.toNat_add, UInt64.toNat_mul, UInt32.toNat_toUInt64,
        UInt32.toNat_toUInt64, UInt32.toNat_toUInt64, Nat.mod_eq_of_lt (by omega),
        Nat.mod_eq_of_lt (by omega), Nat.mod_eq_of_lt (by omega)]
    have hsplit := Limbs.low_add_high (carry + p.toUInt64 + aj.toUInt64 * b.toUInt64)
    rw [hn] at hsplit
    have hc' : ((carry + p.toUInt64 + aj.toUInt64 * b.toUInt64) >>> 32).toNat < 2 ^ 32 := by
      rw [Limbs.toNat_high, hn]
      omega
    simp only [MulRow, Limbs.value_cons, List.length_cons]
    rw [ih _ bs hc' (by simpa using hlen),
      ← Limbs.add_mul_mod_pow (UInt64.toNat_toUInt32 _ ▸ Nat.mod_lt _ (by decide))]
    congr 1
    rw [Nat.mul_add, Nat.mul_add, ← Nat.add_assoc, ← Nat.add_assoc, hsplit]
    ring

/-- The rows of `operator*=`: starting at row `j`, the accumulator gains `2 ^ (32 * j)` times the
remaining limbs of `a` times `b`, modulo its weight. -/
theorem value_MulRows (b as : List UInt32) :
    ∀ (j : Nat) (acc : List UInt32), j + as.length = acc.length → acc.length ≤ b.length →
      Limbs.value (MulRows b j as acc) =
        (Limbs.value acc + 2 ^ (32 * j) * Limbs.value as * Limbs.value b) %
          2 ^ (32 * acc.length) := by
  induction as with
  | nil =>
    intro j acc _ _
    simp [MulRows, Nat.mod_eq_of_lt (Limbs.value_lt acc)]
  | cons aj as ih =>
    intro j acc hj hb
    simp only [List.length_cons] at hj
    -- the accumulator after row `j`: its low `j` limbs `T`, and the row above them
    have hlenT : (acc.take j).length = j := List.length_take_of_le (by omega)
    have hT := Limbs.value_lt (acc.take j)
    rw [hlenT] at hT
    have hacc : Limbs.value acc =
        Limbs.value (acc.take j) + 2 ^ (32 * j) * Limbs.value (acc.drop j) := by
      conv => lhs; rw [← List.take_append_drop j acc]
      rw [Limbs.value_append, hlenT]
    have hrow := value_MulRow aj (acc.drop j) 0 b (by decide)
      (by rw [List.length_drop]; omega)
    have hpow : 2 ^ (32 * j) * 2 ^ (32 * (acc.drop j).length) = 2 ^ (32 * acc.length) := by
      rw [← Nat.pow_add, List.length_drop]
      congr 1
      omega
    have hnew : Limbs.value (acc.take j ++ MulRow aj 0 (acc.drop j) b) =
        (Limbs.value acc + 2 ^ (32 * j) * aj.toNat * Limbs.value b) % 2 ^ (32 * acc.length) := by
      rw [Limbs.value_append, hlenT, hrow, UInt64.toNat_zero, Nat.zero_add,
        ← Limbs.add_mul_mod_mul hT, hpow, hacc]
      congr 1
      ring
    have hlen' : (acc.take j ++ MulRow aj 0 (acc.drop j) b).length = acc.length := by
      rw [List.length_append, length_MulRow, List.length_take, List.length_drop]
      omega
    rw [MulRows, ih (j + 1) _ (by omega) (by omega), hlen', hnew, Nat.mod_add_mod,
      Limbs.value_cons, show 32 * (j + 1) = 32 * j + 32 by omega, Nat.pow_add]
    congr 1
    ring

/-- `operator*=(const base_uint&)` multiplies modulo `2 ^ (32 * WIDTH)`. -/
theorem val_mul (a b : base_uint WIDTH) : (a.mul b).val = a.val * b.val % 2 ^ (32 * WIDTH) := by
  have := value_MulRows b.pn a.pn 0 (List.replicate WIDTH 0)
    (by rw [List.length_replicate, a.length_pn, Nat.zero_add])
    (by rw [List.length_replicate, b.length_pn])
  rw [List.length_replicate] at this
  simpa [val, mul] using this

/-! ### Shifts -/

theorem getD_modify_of_lt {l : List UInt32} {j : Nat} (hj : j < l.length) (i : Nat)
    (f : UInt32 → UInt32) : (l.modify i f).getD j 0 = if i = j then f (l.getD j 0) else l.getD j 0 := by
  simp only [List.getD_eq_getElem?_getD, List.getElem?_modify, List.getElem?_eq_getElem hj,
    Option.map_eq_map, Option.map_some, Option.getD_some]

theorem foldl_range_succ {σ : Type} (f : σ → Nat → σ) (s : σ) (m : Nat) :
    (List.range (m + 1)).foldl f s = f ((List.range m).foldl f s) m := by
  rw [List.range_succ, List.foldl_append, List.foldl_cons]
  rfl

theorem length_foldl_ShlLoop (a : List UInt32) (W k : Nat) (s : UInt32) (m : Nat) :
    ((List.range m).foldl (ShlLoop a W k s) (List.replicate W 0)).length = W := by
  induction m with
  | zero => simp
  | succ m ih => rw [foldl_range_succ, length_ShlLoop, ih]

/-- Bit `r` of limb `j` after the iterations `i < m` of `operator<<=`: bit `r - s` of limb
`j - k` if iteration `j - k` has run, and bit `r + 32 - s` of limb `j - k - 1` likewise. -/
def ShlBit (a : List UInt32) (k s m j r : Nat) : Bool :=
  (decide (k ≤ j ∧ j - k < m ∧ s ≤ r) && (a.getD (j - k) 0).toNat.testBit (r - s)) ||
    (decide (k + 1 ≤ j ∧ j - k - 1 < m ∧ r < s) && (a.getD (j - k - 1) 0).toNat.testBit (r + 32 - s))

theorem ShlBit_zero (a : List UInt32) (k s j r : Nat) : ShlBit a k s 0 j r = false := by
  simp [ShlBit]

theorem ShlBit_succ_low (a : List UInt32) {k s m j r : Nat} (hj : j = m + k) :
    ShlBit a k s (m + 1) j r =
      (ShlBit a k s m j r || (decide (s ≤ r) && (a.getD m 0).toNat.testBit (r - s))) := by
  subst hj
  unfold ShlBit
  rw [show m + k - k = m by omega]
  cases (a.getD m 0).toNat.testBit (r - s) <;>
    cases (a.getD (m - 1) 0).toNat.testBit (r + 32 - s) <;>
    simp only [Bool.and_true, Bool.and_false, Bool.or_false, Bool.false_or, decide_eq_decide,
      ← Bool.decide_or] <;> omega

theorem ShlBit_succ_high (a : List UInt32) {k s m j r : Nat} (hj : j = m + k + 1) :
    ShlBit a k s (m + 1) j r =
      (ShlBit a k s m j r || (decide (r < s) && (a.getD m 0).toNat.testBit (r + 32 - s))) := by
  subst hj
  unfold ShlBit
  simp only [show m + k + 1 - k = m + 1 by omega, Nat.add_sub_cancel]
  cases (a.getD (m + 1) 0).toNat.testBit (r - s) <;>
    cases (a.getD m 0).toNat.testBit (r + 32 - s) <;> simp

theorem ShlBit_succ_other (a : List UInt32) {k s m j r : Nat} (h1 : j ≠ m + k)
    (h2 : j ≠ m + k + 1) : ShlBit a k s (m + 1) j r = ShlBit a k s m j r := by
  unfold ShlBit
  cases (a.getD (j - k) 0).toNat.testBit (r - s) <;>
    cases (a.getD (j - k - 1) 0).toNat.testBit (r + 32 - s) <;>
    simp only [Bool.and_true, Bool.and_false, Bool.or_false, Bool.false_or, decide_eq_decide,
      ← Bool.decide_or] <;> omega

/-- After the iterations `i < m` of `operator<<=`, bit `r` of limb `j` is `ShlBit`. -/
theorem testBit_ShlLoop (a : List UInt32) (W k : Nat) {s : UInt32} (hs : s.toNat < 32) (m : Nat)
    {j r : Nat} (hj : j < W) (hr : r < 32) :
    (((List.range m).foldl (ShlLoop a W k s) (List.replicate W 0)).getD j 0).toNat.testBit r =
      ShlBit a k s.toNat m j r := by
  induction m with
  | zero => simp [ShlBit_zero]
  | succ m ih =>
    have hlen := length_foldl_ShlLoop a W k s m
    rw [foldl_range_succ]
    generalize (List.range m).foldl (ShlLoop a W k s) (List.replicate W 0) = pn at ih hlen
    have h32 : (32 - s).toNat = 32 - s.toNat := by
      rw [UInt32.toNat_sub_of_le _ _ (by rw [UInt32.le_iff_toNat_le]; simp; omega)]
      rfl
    have hs0 : s ≠ 0 ↔ 0 < s.toNat := by
      rw [Ne, ← UInt32.toNat_inj, UInt32.toNat_zero]
      omega
    unfold ShlLoop
    dsimp only
    have hlen1 : ∀ c : Prop, ∀ _ : Decidable c, ∀ f : UInt32 → UInt32,
        (if c then pn.modify (m + k + 1) f else pn).length = W := by
      intro c _ f
      split <;> simp [hlen]
    -- iteration `m` writes limb `m + k` and, for a nonzero `s`, limb `m + k + 1`
    by_cases hlo : j = m + k
    · rw [if_pos (by omega : m + k < W), getD_modify_of_lt (by rw [hlen1]; exact hj),
        if_pos hlo.symm, Limbs.testBit_or, Limbs.testBit_shiftLeft _ hs hr, ShlBit_succ_low a hlo,
        ← ih, ← hlo]
      congr 3
      split
      · rw [getD_modify_of_lt (by simp [hlen, hj]), if_neg (by omega)]
      · rfl
    · by_cases hhi : j = m + k + 1
      · rw [if_pos (by omega : m + k < W), getD_modify_of_lt (by rw [hlen1]; exact hj),
          if_neg (by omega), ShlBit_succ_high a hhi, ← ih]
        split
        · next hcond =>
          have hpos : 0 < s.toNat := hs0.1 hcond.2
          rw [getD_modify_of_lt (by simp [hlen, hj]), if_pos hhi.symm, Limbs.testBit_or,
            Limbs.testBit_shiftRight _ (by rw [h32]; omega), h32]
          congr 1
          -- the bits shifted in from below stop at the top of the limb
          by_cases hrs : r < s.toNat
          · simp only [hrs, decide_true, Bool.true_and]
            congr 1
            omega
          · simp only [hrs, decide_false, Bool.false_and]
            exact Limbs.testBit_limb_of_le _ (by omega)
        · next hcond =>
          have hzero : s.toNat = 0 := by
            by_contra hne
            exact hcond ⟨by omega, hs0.2 (by omega)⟩
          simp [hzero]
      · rw [ShlBit_succ_other a hlo hhi, ← ih]
        have hpn1 : ∀ c : Prop, ∀ _ : Decidable c, ∀ f : UInt32 → UInt32,
            (if c then pn.modify (m + k + 1) f else pn).getD j 0 = pn.getD j 0 := by
          intro c _ f
          split
          · rw [getD_modify_of_lt (by simp [hlen, hj]), if_neg (by omega)]
          · rfl
        split
        · rw [getD_modify_of_lt (by rw [hlen1]; exact hj), if_neg (by omega), hpn1]
        · rw [hpn1]

/-- A limb list of length `W` has no bits from `32 * W` on. -/
theorem testBit_value_of_le {l : List UInt32} {t : Nat} (ht : l.length ≤ t / 32) :
    (Limbs.value l).testBit t = false := by
  rw [Limbs.testBit_value, List.getD_eq_default _ _ ht]
  simp

/-- `operator<<=` multiplies by `2 ^ shift` modulo `2 ^ (32 * WIDTH)`, for every shift. -/
theorem val_shl (a : base_uint WIDTH) (shift : UInt32) :
    (a.shl shift).val = a.val * 2 ^ shift.toNat % 2 ^ (32 * WIDTH) := by
  have hk : (shift / 32).toNat = shift.toNat / 32 := UInt32.toNat_div _ _
  have hs : (shift % 32).toNat = shift.toNat % 32 := UInt32.toNat_mod _ _
  have hs32 : (shift % 32).toNat < 32 := by rw [hs]; omega
  apply Nat.eq_of_testBit_eq
  intro t
  unfold val shl
  rw [Nat.testBit_mod_two_pow, Nat.testBit_mul_two_pow]
  by_cases ht : t / 32 < WIDTH
  · rw [Limbs.testBit_value, testBit_ShlLoop _ _ _ hs32 WIDTH ht (Nat.mod_lt _ (by decide)),
      Limbs.testBit_value, hk, hs]
    unfold ShlBit
    have htW : t < 32 * WIDTH := by omega
    simp only [htW, decide_true, Bool.true_and]
    -- the bit comes from limb `j - k` when `r ≥ s`, and from limb `j - k - 1` otherwise
    by_cases hrs : shift.toNat % 32 ≤ t % 32
    · have hnot : ¬ t % 32 < shift.toNat % 32 := by omega
      simp only [hrs, hnot, and_true, and_false, decide_false, Bool.false_and, Bool.or_false]
      by_cases hle : shift.toNat / 32 ≤ t / 32
      · have hS : shift.toNat ≤ t := by omega
        rw [show (t - shift.toNat) / 32 = t / 32 - shift.toNat / 32 by omega,
          show (t - shift.toNat) % 32 = t % 32 - shift.toNat % 32 by omega]
        simp [hle, hS, show t / 32 - shift.toNat / 32 < WIDTH by omega]
      · have hS : ¬ shift.toNat ≤ t := by omega
        simp [hle, hS]
    · have hnot : ¬ shift.toNat % 32 ≤ t % 32 := hrs
      have hlt : t % 32 < shift.toNat % 32 := by omega
      simp only [hnot, hlt, and_true, and_false, decide_false, Bool.false_and, Bool.false_or]
      by_cases hle : shift.toNat / 32 + 1 ≤ t / 32
      · have hS : shift.toNat ≤ t := by omega
        rw [show (t - shift.toNat) / 32 = t / 32 - shift.toNat / 32 - 1 by omega,
          show (t - shift.toNat) % 32 = t % 32 + 32 - shift.toNat % 32 by omega]
        simp [hle, hS, show t / 32 - shift.toNat / 32 - 1 < WIDTH by omega]
      · have hS : ¬ shift.toNat ≤ t := by omega
        simp [hle, hS]
  · rw [testBit_value_of_le (by rw [length_foldl_ShlLoop]; omega)]
    have htW : ¬ t < 32 * WIDTH := by omega
    simp [htW]

theorem length_foldl_ShrLoop (a : List UInt32) (W k : Nat) (s : UInt32) (m : Nat) :
    ((List.range m).foldl (ShrLoop a k s) (List.replicate W 0)).length = W := by
  induction m with
  | zero => simp
  | succ m ih => rw [foldl_range_succ, length_ShrLoop, ih]

/-- Bit `r` of limb `j` after the iterations `i < m` of `operator>>=`: bit `r + s` of limb
`j + k`, and bit `r + s - 32` of limb `j + k + 1`, from the iterations that wrote them. -/
def ShrBit (a : List UInt32) (k s m j r : Nat) : Bool :=
  (decide (j + k < m) && (a.getD (j + k) 0).toNat.testBit (r + s)) ||
    (decide (j + k + 1 < m ∧ 0 < s ∧ 32 - s ≤ r) && (a.getD (j + k + 1) 0).toNat.testBit (r + s - 32))

theorem ShrBit_succ_low (a : List UInt32) {k s m j r : Nat} (hj : m = j + k) :
    ShrBit a k s (m + 1) j r = (ShrBit a k s m j r || (a.getD m 0).toNat.testBit (r + s)) := by
  subst hj
  unfold ShrBit
  cases (a.getD (j + k) 0).toNat.testBit (r + s) <;>
    cases (a.getD (j + k + 1) 0).toNat.testBit (r + s - 32) <;> simp

theorem ShrBit_succ_high (a : List UInt32) {k s m j r : Nat} (hj : m = j + k + 1) :
    ShrBit a k s (m + 1) j r =
      (ShrBit a k s m j r ||
        (decide (0 < s ∧ 32 - s ≤ r) && (a.getD m 0).toNat.testBit (r + s - 32))) := by
  subst hj
  unfold ShrBit
  cases (a.getD (j + k) 0).toNat.testBit (r + s) <;>
    cases (a.getD (j + k + 1) 0).toNat.testBit (r + s - 32) <;>
    simp only [Bool.and_true, Bool.and_false, Bool.or_false, Bool.false_or, decide_eq_decide,
      ← Bool.decide_or] <;> omega

theorem ShrBit_succ_other (a : List UInt32) {k s m j r : Nat} (h1 : m ≠ j + k)
    (h2 : m ≠ j + k + 1) : ShrBit a k s (m + 1) j r = ShrBit a k s m j r := by
  unfold ShrBit
  cases (a.getD (j + k) 0).toNat.testBit (r + s) <;>
    cases (a.getD (j + k + 1) 0).toNat.testBit (r + s - 32) <;>
    simp only [Bool.and_true, Bool.and_false, Bool.or_false, Bool.false_or, decide_eq_decide,
      ← Bool.decide_or] <;> omega

/-- After the iterations `i < m` of `operator>>=`, bit `r` of limb `j` is `ShrBit`. -/
theorem testBit_ShrLoop (a : List UInt32) (W k : Nat) {s : UInt32} (hs : s.toNat < 32) (m : Nat)
    {j r : Nat} (hj : j < W) (hr : r < 32) :
    (((List.range m).foldl (ShrLoop a k s) (List.replicate W 0)).getD j 0).toNat.testBit r =
      ShrBit a k s.toNat m j r := by
  induction m with
  | zero => simp [ShrBit]
  | succ m ih =>
    have hlen := length_foldl_ShrLoop a W k s m
    rw [foldl_range_succ]
    generalize (List.range m).foldl (ShrLoop a k s) (List.replicate W 0) = pn at ih hlen
    have h32 : (32 - s).toNat = 32 - s.toNat := by
      rw [UInt32.toNat_sub_of_le _ _ (by rw [UInt32.le_iff_toNat_le]; simp; omega)]
      rfl
    have hs0 : s ≠ 0 ↔ 0 < s.toNat := by
      rw [Ne, ← UInt32.toNat_inj, UInt32.toNat_zero]
      omega
    unfold ShrLoop
    dsimp only
    have hlen1 : ∀ c : Prop, ∀ _ : Decidable c, ∀ f : UInt32 → UInt32,
        (if c then pn.modify (m - k - 1) f else pn).length = W := by
      intro c _ f
      split <;> simp [hlen]
    -- iteration `m` writes limb `m - k` and, for a nonzero `s`, limb `m - k - 1`
    by_cases hlo : m = j + k
    · rw [if_pos (by omega : k ≤ m), getD_modify_of_lt (by rw [hlen1]; exact hj),
        if_pos (by omega), Limbs.testBit_or, Limbs.testBit_shiftRight _ hs, ShrBit_succ_low a hlo,
        ← ih]
      congr 3
      split
      · rw [getD_modify_of_lt (by simp [hlen, hj]), if_neg (by omega)]
      · rfl
    · by_cases hhi : m = j + k + 1
      · rw [if_pos (by omega : k ≤ m), getD_modify_of_lt (by rw [hlen1]; exact hj),
          if_neg (by omega), ShrBit_succ_high a hhi, ← ih]
        split
        · next hcond =>
          have hpos : 0 < s.toNat := hs0.1 hcond.2
          rw [getD_modify_of_lt (by simp [hlen, hj]), if_pos (by omega), Limbs.testBit_or,
            Limbs.testBit_shiftLeft _ (by rw [h32]; omega) hr, h32]
          congr 1
          by_cases hrs : 32 - s.toNat ≤ r
          · simp only [hrs, hpos, and_self, decide_true, Bool.true_and]
            congr 1
            omega
          · simp [hrs]
        · next hcond =>
          have hzero : s.toNat = 0 := by
            by_contra hne
            exact hcond ⟨by omega, hs0.2 (by omega)⟩
          simp [hzero]
      · rw [ShrBit_succ_other a hlo hhi, ← ih]
        have hpn1 : (if k + 1 ≤ m ∧ s ≠ 0 then
            pn.modify (m - k - 1) (· ||| (a.getD m 0 <<< (32 - s))) else pn).getD j 0 =
              pn.getD j 0 := by
          split
          · rw [getD_modify_of_lt (by simp [hlen, hj]), if_neg (by omega)]
          · rfl
        split
        · rw [getD_modify_of_lt (by rw [hlen1]; exact hj), if_neg (by omega), hpn1]
        · rw [hpn1]

/-- `operator>>=` divides by `2 ^ shift`, rounding down, for every shift. -/
theorem val_shr (a : base_uint WIDTH) (shift : UInt32) :
    (a.shr shift).val = a.val / 2 ^ shift.toNat := by
  have hk : (shift / 32).toNat = shift.toNat / 32 := UInt32.toNat_div _ _
  have hs : (shift % 32).toNat = shift.toNat % 32 := UInt32.toNat_mod _ _
  have hs32 : (shift % 32).toNat < 32 := by rw [hs]; omega
  have hlen := a.length_pn
  apply Nat.eq_of_testBit_eq
  intro t
  unfold val shr
  rw [Nat.testBit_div_two_pow, Limbs.testBit_value a.pn]
  by_cases ht : t / 32 < WIDTH
  · rw [Limbs.testBit_value, testBit_ShrLoop _ _ _ hs32 WIDTH ht (Nat.mod_lt _ (by decide)), hk,
      hs]
    unfold ShrBit
    -- the bit comes from limb `j + k` when `r + s < 32`, and from limb `j + k + 1` otherwise
    by_cases hrs : t % 32 + shift.toNat % 32 < 32
    · have hnot : ¬ 32 - shift.toNat % 32 ≤ t % 32 := by omega
      rw [show (t + shift.toNat) / 32 = t / 32 + shift.toNat / 32 by omega,
        show (t + shift.toNat) % 32 = t % 32 + shift.toNat % 32 by omega]
      simp only [hnot, and_false, decide_false, Bool.false_and, Bool.or_false]
      by_cases hin : t / 32 + shift.toNat / 32 < WIDTH
      · simp [hin]
      · simp only [hin, decide_false, Bool.false_and]
        rw [List.getD_eq_default _ _ (by omega)]
        simp
    · have hlow : (a.pn.getD (t / 32 + shift.toNat / 32) 0).toNat.testBit
          (t % 32 + shift.toNat % 32) = false := Limbs.testBit_limb_of_le _ (by omega)
      rw [show (t + shift.toNat) / 32 = t / 32 + shift.toNat / 32 + 1 by omega,
        show (t + shift.toNat) % 32 = t % 32 + shift.toNat % 32 - 32 by omega, hlow,
        Bool.and_false, Bool.false_or]
      have hcond : 0 < shift.toNat % 32 ∧ 32 - shift.toNat % 32 ≤ t % 32 := by omega
      by_cases hin : t / 32 + shift.toNat / 32 + 1 < WIDTH
      · simp [hin, hcond]
      · simp only [hin, false_and, decide_false, Bool.false_and]
        rw [List.getD_eq_default _ _ (by omega)]
        simp
  · rw [testBit_value_of_le (by rw [length_foldl_ShrLoop]; omega),
      List.getD_eq_default _ _ (by omega)]
    simp

/-! ### Comparison and bit length -/

/-- The loop of `CompareTo` over two limb lists of one length, top limb first, compares the
values they stand for. -/
theorem CompareLoop_eq : ∀ (xs ys : List UInt32), xs.length = ys.length →
    CompareLoop xs ys = if Limbs.value xs.reverse < Limbs.value ys.reverse then -1
      else if Limbs.value ys.reverse < Limbs.value xs.reverse then 1 else 0
  | [], [], _ => by simp [CompareLoop]
  | [], _ :: _, hlen => absurd hlen (by simp)
  | _ :: _, [], hlen => absurd hlen (by simp)
  | x :: xs, y :: ys, hlen => by
    have hl : xs.reverse.length = ys.reverse.length := by simpa using hlen
    simp only [List.reverse_cons]
    unfold CompareLoop
    by_cases hxy : x < y
    · have hlt := Limbs.value_lt_value_concat hl (UInt32.lt_iff_toNat_lt.1 hxy)
      rw [if_pos hxy, if_pos hlt]
    · by_cases hyx : x > y
      · have hlt := Limbs.value_lt_value_concat hl.symm (UInt32.lt_iff_toNat_lt.1 hyx)
        rw [if_neg hxy, if_pos hyx, if_neg (Nat.lt_asymm hlt), if_pos hlt]
      · -- equal top limbs: the comparison goes on one limb down
        have hxy' : x = y := by
          rw [UInt32.lt_iff_toNat_lt] at hxy
          rw [gt_iff_lt, UInt32.lt_iff_toNat_lt] at hyx
          exact UInt32.toNat_inj.1 (by omega)
        subst hxy'
        rw [if_neg hxy, if_neg hyx, CompareLoop_eq xs ys (by simpa using hlen)]
        simp only [Limbs.value_concat_lt_iff hl, Limbs.value_concat_lt_iff hl.symm]

/-- `CompareTo` is the three-way comparison of the values. -/
theorem CompareTo_eq (a b : base_uint WIDTH) :
    a.CompareTo b = if a.val < b.val then -1 else if b.val < a.val then 1 else 0 := by
  unfold CompareTo val
  rw [CompareLoop_eq _ _ (by simp [a.length_pn, b.length_pn]), List.reverse_reverse,
    List.reverse_reverse]

/-- The test of `operator/=`, `num >= div`, on the values. -/
theorem CompareTo_nonneg_iff (a b : base_uint WIDTH) : 0 ≤ a.CompareTo b ↔ b.val ≤ a.val := by
  rw [CompareTo_eq]
  split_ifs <;> omega

/-- `1 << k` for a bit position `k` of one limb. -/
theorem toNat_one_shiftLeft {k : Nat} (hk : k < 32) : ((1 : UInt32) <<< k.toUInt32).toNat = 2 ^ k := by
  have hk' : k.toUInt32.toNat = k := by
    rw [Nat.toUInt32_eq, UInt32.toNat_ofNat_of_lt' (by unfold UInt32.size; omega)]
  rw [UInt32.toNat_shiftLeft, hk', Nat.mod_eq_of_lt hk, UInt32.toNat_one, Nat.one_shiftLeft,
    Nat.mod_eq_of_lt (Nat.pow_lt_pow_right (by decide) hk)]

/-- The inner loop of `bits()` finds the bit length of a nonzero limb below `2 ^ (n + 1)`. -/
theorem LimbBits_eq {x : UInt32} (hx : x ≠ 0) :
    ∀ n, n < 32 → x.toNat < 2 ^ (n + 1) → LimbBits x n = x.toNat.size
  | 0, _, hlt => by
    have hne : x.toNat ≠ 0 := fun h => hx (UInt32.toNat_inj.1 (h.trans UInt32.toNat_zero.symm))
    have hone : x.toNat = 1 := by omega
    rw [LimbBits, hone, Nat.size_one]
  | n + 1, hn, hlt => by
    have htest : x &&& ((1 : UInt32) <<< (n + 1).toUInt32) ≠ 0 ↔ 2 ^ (n + 1) ≤ x.toNat := by
      rw [Ne, ← UInt32.toNat_inj, UInt32.toNat_and, toNat_one_shiftLeft hn, UInt32.toNat_zero]
      exact Digits.and_two_pow_ne_zero_iff hlt
    unfold LimbBits
    by_cases hbit : 2 ^ (n + 1) ≤ x.toNat
    · -- bit `n + 1` is the highest set bit
      rw [if_pos (htest.2 hbit)]
      have hle : x.toNat.size ≤ n + 2 := Nat.size_le.2 hlt
      have hgt : n + 1 < x.toNat.size := Nat.lt_size.2 hbit
      omega
    · rw [if_neg (fun h => hbit (htest.1 h))]
      exact LimbBits_eq hx n (by omega) (by omega)

/-- The outer loop of `bits()` over limbs from the top finds the bit length of their value. -/
theorem BitsLoop_eq : ∀ l : List UInt32, BitsLoop (l.length - 1) l = (Limbs.value l.reverse).size
  | [] => by simp [BitsLoop, Limbs.value_nil]
  | x :: xs => by
    rw [List.reverse_cons, List.length_cons, Nat.add_sub_cancel, BitsLoop]
    by_cases hx : x = 0
    · -- a zero limb: the scan moves one limb down
      subst hx
      rw [if_neg (not_not.2 rfl), Limbs.value_concat_zero]
      exact BitsLoop_eq xs
    · rw [if_pos hx, Limbs.size_value_concat _ hx, LimbBits_eq hx 31 (by decide) x.toNat_lt,
        List.length_reverse]

/-- `bits()` is the bit length of the value. -/
theorem bits_eq_size (a : base_uint WIDTH) : a.bits = a.val.size := by
  have h := BitsLoop_eq a.pn.reverse
  rwa [List.length_reverse, a.length_pn, List.reverse_reverse] at h

/-! ### Division -/

/-- `pn[shift / 32] |= (1 << (shift & 31))` sets bit `shift` of the value, below the top. -/
theorem val_SetBit (a : base_uint WIDTH) {shift : Nat} (hs : shift < 32 * WIDTH) :
    (a.SetBit shift).val = a.val ||| 2 ^ shift := by
  apply Nat.eq_of_testBit_eq
  intro t
  unfold val SetBit
  rw [Nat.testBit_or, Nat.testBit_two_pow, Limbs.testBit_value, Limbs.testBit_value]
  by_cases ht : t / 32 < WIDTH
  · rw [getD_modify_of_lt (by rw [a.length_pn]; exact ht)]
    by_cases hj : shift / 32 = t / 32
    · -- the limb of bit `shift`: its bit `shift % 32` is set
      rw [if_pos hj, UInt32.toNat_or, Nat.testBit_or, toNat_one_shiftLeft (Nat.mod_lt _ (by decide)),
        Nat.testBit_two_pow]
      have hiff : shift % 32 = t % 32 ↔ shift = t := by omega
      simp only [decide_eq_decide.2 hiff]
    · have hne : shift ≠ t := fun h => hj (h ▸ rfl)
      simp [hj, hne]
  · have hne : shift ≠ t := by omega
    rw [List.getD_eq_default _ _ (by rw [List.length_modify, a.length_pn]; omega),
      List.getD_eq_default _ _ (by rw [a.length_pn]; omega)]
    simp [hne]

/-- What holds at the top of the loop of `operator/=` for `A / B`, at bit `shift`: the divisor is
`B` shifted to `shift`, the remainder is below twice it, quotient times `B` plus remainder is
`A`, and the quotient has no bit from `shift` down. -/
structure DivInv (A B shift : Nat) (num div quot : base_uint WIDTH) : Prop where
  div_eq : div.val = B * 2 ^ shift
  num_lt : num.val < 2 * div.val
  eq_add : A = quot.val * B + num.val
  quot_mod : quot.val % 2 ^ (shift + 1) = 0
  shift_lt : shift < 32 * WIDTH

/-- What holds after the body of the loop at bit `shift`, of the remainder and the quotient. -/
def DivPost (A B shift : Nat) (step : base_uint WIDTH × base_uint WIDTH) : Prop :=
  step.1.val < B * 2 ^ shift ∧ A = step.2.val * B + step.1.val ∧ step.2.val % 2 ^ shift = 0

/-- One pass of the body of the loop of `operator/=`: subtracting the shifted divisor and
setting bit `shift` keeps quotient times divisor plus remainder, and brings the remainder below
the shifted divisor. -/
theorem DivInv.step {A B s : Nat} {num div quot : base_uint WIDTH}
    (h : DivInv A B s num div quot) :
    DivPost A B s (if CompareTo num div ≥ 0 then (num.sub div, quot.SetBit s) else (num, quot)) := by
  have hd := h.div_eq
  have hdvd : 2 ^ s ∣ 2 ^ (s + 1) := Nat.pow_dvd_pow 2 (Nat.le_succ s)
  obtain ⟨m, hm⟩ := Nat.dvd_of_mod_eq_zero h.quot_mod
  by_cases hge : CompareTo num div ≥ 0
  · rw [if_pos hge]
    have hle : div.val ≤ num.val := (CompareTo_nonneg_iff num div).1 hge
    -- bit `s` of the quotient is clear, so setting it adds `2 ^ s`
    have hset : (quot.SetBit s).val = 2 ^ (s + 1) * m + 2 ^ s := by
      rw [val_SetBit quot h.shift_lt, hm,
        Nat.two_pow_add_eq_or_of_lt (Nat.pow_lt_pow_right (by decide) (Nat.lt_succ_self s))]
    refine ⟨?_, ?_, ?_⟩
    · rw [val_sub_of_le hle, ← hd]
      have := h.num_lt
      omega
    · rw [val_sub_of_le hle, hset, h.eq_add, hm, Nat.add_mul, Nat.mul_comm (2 ^ s) B, ← hd]
      omega
    · rw [hset]
      exact Nat.mod_eq_zero_of_dvd (Nat.dvd_add (Nat.dvd_trans hdvd (Nat.dvd_mul_right _ m))
        (Nat.dvd_refl _))
  · rw [if_neg hge]
    have hlt : num.val < div.val := by
      have := (not_congr (CompareTo_nonneg_iff num div)).1 hge
      omega
    refine ⟨hd ▸ hlt, h.eq_add, ?_⟩
    rw [hm]
    exact Nat.mod_eq_zero_of_dvd (Nat.dvd_trans hdvd (Nat.dvd_mul_right _ m))

/-- The loop of `operator/=`, from any state that satisfies the invariant, computes `A / B`. -/
theorem val_DivLoop {A B : Nat} (hB : 0 < B) : ∀ (s : Nat) (num div quot : base_uint WIDTH),
    DivInv A B s num div quot → (DivLoop s num div quot).val = A / B
  | 0, num, div, quot, h => by
    have hpost := h.step
    rw [DivLoop]
    generalize (if CompareTo num div ≥ 0 then (num.sub div, quot.SetBit 0) else (num, quot)) = p
      at hpost ⊢
    obtain ⟨hr, heq, _⟩ := hpost
    -- the last remainder is below `B`: the quotient is exact
    rw [Nat.pow_zero, Nat.mul_one] at hr
    rw [heq, Nat.add_comm, Nat.add_mul_div_right _ _ hB, Nat.div_eq_of_lt hr, Nat.zero_add]
  | s + 1, num, div, quot, h => by
    have hpost := h.step
    rw [DivLoop]
    generalize (if CompareTo num div ≥ 0 then (num.sub div, quot.SetBit (s + 1))
      else (num, quot)) = p at hpost ⊢
    obtain ⟨hr, heq, hmod⟩ := hpost
    have hhalf : (div.shr 1).val = B * 2 ^ s := by
      rw [val_shr, h.div_eq, show (1 : UInt32).toNat = 1 from rfl, Nat.pow_succ, Nat.pow_one,
        ← Nat.mul_assoc, Nat.mul_div_cancel _ (by decide)]
    have htwice : B * 2 ^ (s + 1) = 2 * (B * 2 ^ s) := by rw [Nat.pow_succ]; ring
    exact val_DivLoop hB s _ _ _
      ⟨hhalf, hhalf ▸ htwice ▸ hr, heq, hmod, by have := h.shift_lt; omega⟩

/-- `operator/=` by zero throws. -/
theorem div_of_val_eq_zero (a : base_uint WIDTH) {b : base_uint WIDTH} (hb : b.val = 0) :
    a.div b = throw (.abort (str "Division by zero")) := by
  unfold div
  dsimp only
  rw [bits_eq_size, hb, Nat.size_zero, if_pos rfl]

/-- `operator/=` by a nonzero divisor computes the quotient rounded down, when the bit positions
fit the `int` shift of the source. -/
theorem val_div (a : base_uint WIDTH) {b : base_uint WIDTH} (hW : 32 * WIDTH < 2 ^ 32)
    (hb : b.val ≠ 0) : ∃ q, a.div b = .ok q ∧ q.val = a.val / b.val := by
  have hB : 0 < b.val := Nat.pos_of_ne_zero hb
  have hsB : 1 ≤ b.val.size := Nat.size_pos.2 hB
  have hsA : a.val.size ≤ 32 * WIDTH := Nat.size_le.2 a.val_lt
  have hbit : 2 ^ (b.val.size - 1) ≤ b.val := Nat.lt_size.1 (by omega)
  unfold div
  dsimp only
  rw [bits_eq_size, bits_eq_size, if_neg (by omega)]
  by_cases hgt : b.val.size > a.val.size
  · -- the divisor has more bits: the quotient is zero
    rw [if_pos hgt]
    refine ⟨zero WIDTH, rfl, ?_⟩
    rw [val_zero, eq_comm, Nat.div_eq_zero_iff_lt hB]
    calc a.val < 2 ^ a.val.size := Nat.lt_size_self _
      _ ≤ 2 ^ (b.val.size - 1) := Nat.pow_le_pow_right (by decide) (by omega)
      _ ≤ b.val := hbit
  · rw [if_neg hgt]
    -- aligning the divisor with the top bit of `a` does not overflow
    have hdiv : (b.shl (a.val.size - b.val.size).toUInt32).val =
        b.val * 2 ^ (a.val.size - b.val.size) := by
      rw [val_shl, UInt32.toNat_ofNat_of_lt' (by unfold UInt32.size; omega), Nat.mod_eq_of_lt]
      calc b.val * 2 ^ (a.val.size - b.val.size)
          < 2 ^ b.val.size * 2 ^ (a.val.size - b.val.size) :=
            Nat.mul_lt_mul_of_pos_right (Nat.lt_size_self _) (Nat.two_pow_pos _)
        _ = 2 ^ a.val.size := by rw [← Nat.pow_add]; congr 1; omega
        _ ≤ 2 ^ (32 * WIDTH) := Nat.pow_le_pow_right (by decide) hsA
    refine ⟨_, rfl, val_DivLoop hB _ _ _ _ ⟨hdiv, ?_, by simp, by simp, by omega⟩⟩
    -- and `a` is below twice the aligned divisor
    rw [hdiv]
    calc a.val < 2 ^ a.val.size := Nat.lt_size_self _
      _ = 2 * (2 ^ (b.val.size - 1) * 2 ^ (a.val.size - b.val.size)) := by
        rw [← Nat.pow_add, ← Nat.pow_succ']; congr 1; omega
      _ ≤ 2 * (b.val * 2 ^ (a.val.size - b.val.size)) :=
        Nat.mul_le_mul_left _ (Nat.mul_le_mul_right _ hbit)

end base_uint

/-- `base_uint<256>` is exact arithmetic modulo `2 ^ 256` on the value of its eight limbs. -/
theorem base_uint_exact_arithmetic (a b : base_uint 8) (b32 shift : UInt32) :
    (a.add b).val = (a.val + b.val) % 2 ^ 256 ∧
    ((a.sub b).val : Int) = ((a.val : Int) - b.val) % 2 ^ 256 ∧
    (a.mul32 b32).val = a.val * b32.toNat % 2 ^ 256 ∧
    (a.mul b).val = a.val * b.val % 2 ^ 256 ∧
    (a.shl shift).val = a.val * 2 ^ shift.toNat % 2 ^ 256 ∧
    (a.shr shift).val = a.val / 2 ^ shift.toNat ∧
    (b.val = 0 → a.div b = throw (.abort (str "Division by zero"))) ∧
    (b.val ≠ 0 → ∃ q, a.div b = .ok q ∧ q.val = a.val / b.val) ∧
    a.CompareTo b = (if a.val < b.val then -1 else if b.val < a.val then 1 else 0) ∧
    a.bits = a.val.size := by
  have hb := b.val_lt
  refine ⟨base_uint.val_add a b, ?_, base_uint.val_mul32 a b32, base_uint.val_mul a b,
    base_uint.val_shl a shift, base_uint.val_shr a shift, base_uint.div_of_val_eq_zero a,
    base_uint.val_div a (by decide), base_uint.CompareTo_eq a b, base_uint.bits_eq_size a⟩
  -- `a - b` is `a + (2 ^ 256 - b)`, which is `a - b` modulo `2 ^ 256`
  rw [base_uint.val_sub]
  push_cast [Nat.sub_le_of_le_add (Nat.le_add_left _ _), hb.le]
  omega

/-! ### The limbs implement the value model -/

namespace base_uint

/-- The `arith_uint256` of the value model that eight limbs stand for. -/
def toArith (a : base_uint 8) : arith_uint256 := BitVec.ofNat 256 a.val

theorem toNat_toArith (a : base_uint 8) : a.toArith.toNat = a.val := by
  rw [toArith, BitVec.toNat_ofNat]
  exact Nat.mod_eq_of_lt a.val_lt

end base_uint

/-- `base_uint<256>` implements the `arith_uint256` of the value model, on which the
proof-of-work code is verified: each operation on the limbs is the 256-bit operation on the
value, division by zero throws the same error, and comparison and `bits` read the value. -/
theorem base_uint_refines_arith_uint256 (a b : base_uint 8) (shift : UInt32) :
    (a.add b).toArith = a.toArith + b.toArith ∧
    (a.sub b).toArith = a.toArith - b.toArith ∧
    (a.mul b).toArith = a.toArith * b.toArith ∧
    (a.shl shift).toArith = a.toArith <<< shift.toNat ∧
    (a.shr shift).toArith = a.toArith >>> shift.toNat ∧
    (a.div b).map base_uint.toArith = Divide a.toArith b.toArith ∧
    a.bits = bits a.toArith ∧
    a.CompareTo b =
      (if a.toArith < b.toArith then -1 else if b.toArith < a.toArith then 1 else 0) := by
  have hA := base_uint.toNat_toArith a
  have hB := base_uint.toNat_toArith b
  refine ⟨?_, ?_, ?_, ?_, ?_, ?_, ?_, ?_⟩
  · apply BitVec.eq_of_toNat_eq
    rw [base_uint.toNat_toArith, BitVec.toNat_add, hA, hB, base_uint.val_add]
  · apply BitVec.eq_of_toNat_eq
    rw [base_uint.toNat_toArith, BitVec.toNat_sub, hA, hB, base_uint.val_sub, Nat.add_comm]
  · apply BitVec.eq_of_toNat_eq
    rw [base_uint.toNat_toArith, BitVec.toNat_mul, hA, hB, base_uint.val_mul]
  · apply BitVec.eq_of_toNat_eq
    rw [base_uint.toNat_toArith, BitVec.toNat_shiftLeft, hA, base_uint.val_shl, Nat.shiftLeft_eq]
  · apply BitVec.eq_of_toNat_eq
    rw [base_uint.toNat_toArith, BitVec.toNat_ushiftRight, hA, base_uint.val_shr,
      Nat.shiftRight_eq_div_pow]
  · -- division: the same error for a zero divisor, and the quotient otherwise
    by_cases hb : b.val = 0
    · have hzero : b.toArith = 0 := BitVec.eq_of_toNat_eq (by rw [hB, hb]; rfl)
      rw [base_uint.div_of_val_eq_zero a hb, Divide, if_pos hzero]
      rfl
    · obtain ⟨q, hq, hval⟩ := base_uint.val_div a (by decide) hb
      have hne : b.toArith ≠ 0 := fun h => hb (by rw [← hB, h]; rfl)
      rw [hq, Divide_of_ne_zero _ hne]
      show Except.ok q.toArith = Except.ok (a.toArith / b.toArith)
      congr 1
      apply BitVec.eq_of_toNat_eq
      rw [base_uint.toNat_toArith, BitVec.toNat_udiv, hA, hB, hval]
  · rw [base_uint.bits_eq_size, bits_eq_size, hA]
  · rw [base_uint.CompareTo_eq]
    simp only [BitVec.lt_def, hA, hB]

end Ravencoin
