import Mathlib.Data.Nat.Size
import Mathlib.Algebra.Group.Nat.Defs

/-!
# Base-256 lengths and single bits

Arithmetic that code over fixed-width integers leans on, stated for natural numbers. The
number of base-256 digits of `x` is read off its bit length `Nat.size`, and it pins `x`
between two powers of `256`. The bit length itself is found by scanning the bits from the top,
and one bit of a number below `2 ^ (k + 1)` says whether it has reached `2 ^ k`.

## Main definitions

* `Digits.byteLength` — the number of base-256 digits of a natural number, `0` for `0`.

## Main results

* `Digits.byteLength_le_iff` — `byteLength x ≤ k ↔ x < 256 ^ k`.
* `Digits.pow_byteLength_pred_le` — a nonzero `x` is at least `256 ^ (byteLength x - 1)`.
* `Digits.byteLength_eq_of_bounds` — the byte length of a number between two powers of `256`.
* `Digits.size_mod_two_pow_succ` — the bit length of the bits below `i + 1`, by bit `i`.
* `Digits.and_two_pow_ne_zero_iff` — below `2 ^ (k + 1)`, bit `k` is set exactly from `2 ^ k` on.
* `Digits.LowestBit` — where the lowest set bit of a number sits, and what it says about the
  powers of two dividing it.
-/

set_option autoImplicit false

namespace Digits

/-! ### Byte lengths -/

/-- The number of base-256 digits of `x`: its bit length rounded up to whole bytes. -/
def byteLength (x : Nat) : Nat := (x.size + 7) / 8

theorem pow_256 (k : Nat) : 256 ^ k = 2 ^ (8 * k) := by
  rw [Nat.pow_mul]

theorem pow_256_pos (k : Nat) : 0 < 256 ^ k := Nat.pow_pos (by decide)

theorem byteLength_le_iff {x k : Nat} : byteLength x ≤ k ↔ x < 256 ^ k := by
  rw [pow_256, ← Nat.size_le, byteLength]
  omega

theorem lt_pow_byteLength (x : Nat) : x < 256 ^ byteLength x :=
  byteLength_le_iff.1 (Nat.le_refl _)

theorem byteLength_pos {x : Nat} (hx : x ≠ 0) : 0 < byteLength x := by
  apply Nat.pos_of_ne_zero
  intro h
  have hlt := lt_pow_byteLength x
  rw [h, Nat.pow_zero] at hlt
  omega

theorem pow_byteLength_pred_le {x : Nat} (hx : x ≠ 0) : 256 ^ (byteLength x - 1) ≤ x := by
  have hpos := byteLength_pos hx
  apply Nat.le_of_not_lt
  intro hlt
  -- a number below `256 ^ (byteLength x - 1)` would have fewer bytes
  have hle := byteLength_le_iff.2 hlt
  omega

theorem byteLength_eq_of_bounds {x k : Nat} (hk : 0 < k) (hlo : 256 ^ (k - 1) ≤ x)
    (hhi : x < 256 ^ k) : byteLength x = k := by
  have hle := byteLength_le_iff.2 hhi
  have hge : ¬ byteLength x ≤ k - 1 := fun h => absurd (byteLength_le_iff.1 h) (Nat.not_lt.2 hlo)
  omega

theorem byteLength_zero : byteLength 0 = 0 := rfl

/-! ### Bit lengths and single bits -/

/-- The bit length of the bits of `x` below `i + 1`: `i + 1` if bit `i` is set, and otherwise
that of the bits below `i`. -/
theorem size_mod_two_pow_succ (x i : Nat) :
    (x % 2 ^ (i + 1)).size = if x.testBit i then i + 1 else (x % 2 ^ i).size := by
  rw [Nat.mod_pow_succ, Nat.testBit_eq_decide_div_mod_eq]
  have hlow : x % 2 ^ i < 2 ^ i := Nat.mod_lt _ (Nat.two_pow_pos i)
  by_cases hbit : x / 2 ^ i % 2 = 1
  · rw [hbit, if_pos (decide_eq_true rfl)]
    apply Nat.le_antisymm
    · rw [Nat.size_le, Nat.pow_succ]
      omega
    · exact Nat.lt_size.2 (by omega)
  · have hzero : x / 2 ^ i % 2 = 0 := by omega
    rw [hzero, if_neg (by decide), Nat.mul_zero, Nat.add_zero]

/-- A number and a power of two: bit `k` alone. -/
theorem and_two_pow (n k : Nat) : n &&& 2 ^ k = if n.testBit k then 2 ^ k else 0 := by
  apply Nat.eq_of_testBit_eq
  intro i
  rw [Nat.testBit_and, Nat.testBit_two_pow]
  by_cases hik : k = i
  · subst hik
    cases n.testBit k <;> simp [Nat.testBit_two_pow_self]
  · cases n.testBit k <;> simp [hik]

/-- Below `2 ^ (k + 1)`, bit `k` is set exactly from `2 ^ k` on. -/
theorem testBit_of_lt_two_pow_succ {n k : Nat} (hn : n < 2 ^ (k + 1)) :
    n.testBit k = decide (2 ^ k ≤ n) := by
  rw [Nat.testBit_eq_decide_div_mod_eq]
  have hpow : 2 ^ (k + 1) = 2 ^ k * 2 := Nat.pow_succ 2 k
  by_cases hle : 2 ^ k ≤ n
  · have hdiv : n / 2 ^ k = 1 := by
      apply Nat.div_eq_of_lt_le <;> omega
    simp [hdiv, hle]
  · have hdiv : n / 2 ^ k = 0 := Nat.div_eq_of_lt (by omega)
    simp [hdiv, hle]

theorem and_two_pow_ne_zero_iff {n k : Nat} (hn : n < 2 ^ (k + 1)) :
    n &&& 2 ^ k ≠ 0 ↔ 2 ^ k ≤ n := by
  have hpos := Nat.two_pow_pos k
  rw [and_two_pow, testBit_of_lt_two_pow_succ hn]
  by_cases hle : 2 ^ k ≤ n
  · simp [hle]
  · simp [hle]

/-- Bit `k` of `n` is set exactly when `n / 2 ^ k` is odd. -/
theorem and_two_pow_ne_zero_iff_odd (n k : Nat) : n &&& 2 ^ k ≠ 0 ↔ n / 2 ^ k % 2 = 1 := by
  rw [and_two_pow, Nat.testBit_eq_decide_div_mod_eq]
  have hpos := Nat.two_pow_pos k
  by_cases h : n / 2 ^ k % 2 = 1 <;> simp [h]

/-! ### The lowest set bit -/

/-- `2 ^ (j + 1)` divides `c` when `2 ^ j` does with an even quotient. -/
theorem dvd_two_pow_succ_iff (c j : Nat) : 2 ^ (j + 1) ∣ c ↔ 2 ^ j ∣ c ∧ c / 2 ^ j % 2 = 0 := by
  constructor
  · intro h
    have hj : 2 ^ j ∣ c := Nat.dvd_trans (Nat.pow_dvd_pow 2 (Nat.le_succ j)) h
    obtain ⟨t, rfl⟩ := h
    refine ⟨hj, ?_⟩
    rw [Nat.pow_succ, Nat.mul_assoc, Nat.mul_div_cancel_left _ (Nat.two_pow_pos j)]
    omega
  · rintro ⟨⟨t, rfl⟩, ht⟩
    rw [Nat.mul_div_cancel_left _ (Nat.two_pow_pos j)] at ht
    obtain ⟨u, rfl⟩ : 2 ∣ t := Nat.dvd_of_mod_eq_zero ht
    exact ⟨u, by rw [Nat.pow_succ, Nat.mul_assoc]⟩

/-- Dividing by `2 ^ (j + 1)` is dividing by `2 ^ j` and then by `2`. -/
theorem div_two_pow_succ (c j : Nat) : c / 2 ^ (j + 1) = c / 2 ^ j / 2 := by
  rw [Nat.pow_succ, Nat.div_div_eq_div_mul]

/-- A power of two that divides a number below `2 ^ w` is below `2 ^ w`. -/
theorem lt_of_two_pow_dvd {c j w : Nat} (hd : 2 ^ j ∣ c) (hc : 0 < c) (hw : c < 2 ^ w) : j < w :=
  (Nat.pow_lt_pow_iff_right (by decide)).1 (Nat.lt_of_le_of_lt (Nat.le_of_dvd hc hd) hw)

/-- A positive multiple of `2 ^ j` with an even quotient holds two blocks of `2 ^ j`. -/
theorem two_le_div_of_even {c j : Nat} (hd : 2 ^ j ∣ c) (hc : 0 < c) (he : c / 2 ^ j % 2 = 0) :
    2 ≤ c / 2 ^ j := by
  have hne : c / 2 ^ j ≠ 0 := fun h0 => by
    have := Nat.div_mul_cancel hd
    rw [h0, Nat.zero_mul] at this
    omega
  generalize c / 2 ^ j = q at hne he
  omega

/-- Two multiples of `d` less than `d` apart, the first no greater, are equal. -/
theorem eq_of_dvd_of_lt_add {d x c : Nat} (hx : d ∣ x) (hc : d ∣ c) (hle : x ≤ c)
    (hlt : c < x + d) : c = x := by
  obtain ⟨a, rfl⟩ := hx
  obtain ⟨b, rfl⟩ := hc
  have hd : 0 < d := Nat.pos_of_ne_zero fun h0 => by rw [h0] at hlt; omega
  have hab : a ≤ b := Nat.le_of_mul_le_mul_left hle hd
  have hba : b < a + 1 := Nat.lt_of_mul_lt_mul_left (by rw [Nat.mul_succ]; exact hlt)
  rw [Nat.le_antisymm (Nat.le_of_lt_succ hba) hab]

/-- `l` is the lowest set bit of `c`: the bits below it are clear and bit `l` is set. -/
structure LowestBit (c l : Nat) : Prop where
  dvd : 2 ^ l ∣ c
  odd : c / 2 ^ l % 2 = 1

namespace LowestBit

variable {c l j : Nat}

theorem dvd_of_le (h : LowestBit c l) (hj : j ≤ l) : 2 ^ j ∣ c :=
  Nat.dvd_trans (Nat.pow_dvd_pow 2 hj) h.dvd

/-- Below the lowest set bit every bit is clear. -/
theorem even_of_lt (h : LowestBit c l) (hj : j < l) : c / 2 ^ j % 2 = 0 :=
  ((dvd_two_pow_succ_iff c j).1 (h.dvd_of_le hj)).2

/-- Above the lowest set bit no power of two divides. -/
theorem not_dvd_of_lt (h : LowestBit c l) (hj : l < j) : ¬ 2 ^ j ∣ c := by
  intro hdvd
  have := ((dvd_two_pow_succ_iff c l).1 (Nat.dvd_trans (Nat.pow_dvd_pow 2 hj) hdvd)).2
  have := h.odd
  omega

theorem lt_of_dvd_succ (h : LowestBit c l) (hj : 2 ^ (j + 1) ∣ c) : j < l :=
  Nat.lt_of_not_le fun hle => h.not_dvd_of_lt (Nat.lt_succ_of_le hle) hj

theorem two_pow_le (h : LowestBit c l) : 2 ^ l ≤ c := by
  have hpos : 1 ≤ c / 2 ^ l := Nat.pos_of_ne_zero fun h0 => by simpa [h0] using h.odd
  have := (Nat.le_div_iff_mul_le (Nat.two_pow_pos l)).1 hpos
  rwa [Nat.one_mul] at this

end LowestBit

end Digits
