import Mathlib.Data.Nat.Digits.Lemmas

/-!
# Base conversion on a fixed digit buffer

A number is converted from one base to another by a loop that keeps the result in a buffer of
a fixed number of digits, least significant first, and runs `buffer = buffer * mul + x` for each
input digit `x`, most significant first. One pass walks the buffer from its least significant
digit while a carry is left or the walk is still below the digits written so far, so that it
touches only the digits that can change; it ends with the carry that did not fit. The result is
read from the top: the digits above those written, then the leading zeros, are skipped.

This module says what that loop computes, in terms of `Nat.ofDigits` and `Nat.digits`. One pass
multiplies the buffer by `mul` and adds the carry, leaving the carry that did not fit. The whole
run computes the big-endian value of the input when the buffer has room for it, and every pass
then ends with a zero carry. The digits read from the top are `Nat.digits` of that value. Room
is counted by a ratio: a buffer of `n * p / q + 1` digits in base `B` holds every number of `n`
digits in base `A` when `A ^ q ≤ B ^ p`.

## Main definitions

* `DigitBuffer.mulAdd` — one pass of `buffer = buffer * mul + carry`.
* `DigitBuffer.step` — the pass for one input digit, from a buffer and its written length.
* `DigitBuffer.carryOut` — the carry left by that pass.
* `DigitBuffer.Holds` — a buffer of `size` digits whose written digits hold a number.

## Main results

* `DigitBuffer.ofDigits_mulAdd` — the value after one pass.
* `DigitBuffer.Holds.foldl` — a run of passes computes the big-endian value of its input, and
  `DigitBuffer.Holds.carryOut_eq_zero` — every pass of it ends with a zero carry.
* `DigitBuffer.Holds.readout` — the digits read from the top are those of the value.
* `DigitBuffer.pow_le_pow_div_add_one` — the room that a ratio of powers gives.
* `DigitBuffer.digits_ofDigits_reverse`, `DigitBuffer.head_digits_reverse_ne_zero` — a digit
  list without a leading zero is the list of digits of its value.
-/

set_option autoImplicit false

namespace DigitBuffer

/-! ### One pass -/

/-- One pass of `buffer = buffer * mul + carry` in base `base`, over the digits from the least
significant: digit `i` is rewritten while `carry ≠ 0 ∨ i < length`. Returns the digits, the carry
left at the end and the number of digits visited. -/
def mulAdd (base mul : Nat) (carry i length : Nat) : List Nat → List Nat × Nat × Nat
  | [] => ([], carry, i)
  | d :: ds =>
    if carry ≠ 0 ∨ i < length then
      let c := carry + mul * d
      let r := mulAdd base mul (c / base) (i + 1) length ds
      (c % base :: r.1, r.2)
    else (d :: ds, carry, i)

/-- The pass for the input digit `x`, from a buffer and the number of its digits written so far:
the new digits and the new number written. -/
def step (base mul : Nat) (acc : List Nat × Nat) (x : Nat) : List Nat × Nat :=
  let r := mulAdd base mul x 0 acc.2 acc.1
  (r.1, r.2.2)

/-- The carry left at the end of the pass for `x`. -/
def carryOut (base mul : Nat) (acc : List Nat × Nat) (x : Nat) : Nat :=
  (mulAdd base mul x 0 acc.2 acc.1).2.1

variable {base mul : Nat}

@[simp]
theorem length_mulAdd (carry i length : Nat) (ds : List Nat) :
    (mulAdd base mul carry i length ds).1.length = ds.length := by
  induction ds generalizing carry i with
  | nil => rfl
  | cons d ds ih =>
    unfold mulAdd
    split_ifs
    · simp [ih]
    · rfl

theorem visited_le (carry i length : Nat) (ds : List Nat) :
    i ≤ (mulAdd base mul carry i length ds).2.2 ∧
      (mulAdd base mul carry i length ds).2.2 ≤ i + ds.length := by
  induction ds generalizing carry i with
  | nil => simp [mulAdd]
  | cons d ds ih =>
    unfold mulAdd
    split_ifs
    · have := ih ((carry + mul * d) / base) (i + 1)
      simp only [List.length_cons]
      omega
    · simp

section Base

variable (hb : 1 < base)
include hb

theorem digit_lt_mulAdd (carry i length : Nat) {ds : List Nat} (hds : ∀ d ∈ ds, d < base) :
    ∀ d ∈ (mulAdd base mul carry i length ds).1, d < base := by
  induction ds generalizing carry i with
  | nil => simp [mulAdd]
  | cons d ds ih =>
    unfold mulAdd
    split_ifs
    · intro x hx
      rcases List.mem_cons.1 hx with rfl | hx
      · exact Nat.mod_lt _ (by omega)
      · exact ih _ _ (fun y hy => hds y (List.mem_cons_of_mem d hy)) x hx
    · exact hds

/-- A bound on the digits from position `length - i` on, one position further. -/
theorem ofDigits_tail_lt {d length i : Nat} {ds : List Nat}
    (h : Nat.ofDigits base (d :: ds) < base ^ (length - i)) :
    Nat.ofDigits base ds < base ^ (length - (i + 1)) := by
  rw [Nat.ofDigits_cons] at h
  rcases Nat.lt_or_ge i length with hi | hi
  · -- the bound loses one factor of `base`
    rw [show length - i = (length - (i + 1)) + 1 by omega, Nat.pow_succ] at h
    have : base * Nat.ofDigits base ds < base * base ^ (length - (i + 1)) := by
      rw [Nat.mul_comm base (base ^ _)]; omega
    exact Nat.lt_of_mul_lt_mul_left this
  · -- the digits were all zero already
    rw [show length - i = 0 by omega, Nat.pow_zero] at h
    rw [show length - (i + 1) = 0 by omega, Nat.pow_zero]
    have hz : base * Nat.ofDigits base ds = 0 := by omega
    rcases Nat.mul_eq_zero.1 hz with h0 | h0
    · omega
    · omega

/-- One pass multiplies the buffer by `mul` and adds the carry; what does not fit in the buffer
is the carry left at the end. The digits from position `length - i` on must be zero: the pass
stops once it is past them with no carry. -/
theorem ofDigits_mulAdd (carry i length : Nat) {ds : List Nat}
    (h : Nat.ofDigits base ds < base ^ (length - i)) :
    Nat.ofDigits base (mulAdd base mul carry i length ds).1 +
        base ^ ds.length * (mulAdd base mul carry i length ds).2.1 =
      mul * Nat.ofDigits base ds + carry := by
  induction ds generalizing carry i with
  | nil => simp [mulAdd]
  | cons d ds ih =>
    unfold mulAdd
    split_ifs with hgo
    · -- rewrite digit `i` and carry the quotient into the rest
      have hrest := ih ((carry + mul * d) / base) (i + 1) (ofDigits_tail_lt hb h)
      have hdiv := Nat.mod_add_div (carry + mul * d) base
      simp only [Nat.ofDigits_cons, List.length_cons, Nat.pow_succ]
      calc (carry + mul * d) % base +
            base * Nat.ofDigits base (mulAdd base mul ((carry + mul * d) / base) (i + 1) length ds).1 +
            base ^ ds.length * base *
              (mulAdd base mul ((carry + mul * d) / base) (i + 1) length ds).2.1
          = (carry + mul * d) % base + base *
            (Nat.ofDigits base (mulAdd base mul ((carry + mul * d) / base) (i + 1) length ds).1 +
              base ^ ds.length *
                (mulAdd base mul ((carry + mul * d) / base) (i + 1) length ds).2.1) := by ring
        _ = (carry + mul * d) % base + base * (mul * Nat.ofDigits base ds +
              (carry + mul * d) / base) := by rw [hrest]
        _ = mul * (d + base * Nat.ofDigits base ds) + carry := by
          rw [Nat.mul_add base, ← Nat.add_assoc, Nat.add_comm _ (base * _), ← Nat.add_assoc,
            Nat.add_comm (base * _), hdiv]
          ring
    · -- past the written digits with no carry: the rest is zero and stays as it is
      have hz : Nat.ofDigits base (d :: ds) = 0 := by
        rw [show length - i = 0 by omega, Nat.pow_zero] at h
        omega
      simp only [not_or, not_not] at hgo
      simp [hz, hgo.1]

/-- After one pass, the digits from the last one visited on are zero. -/
theorem ofDigits_mulAdd_lt (carry i length : Nat) {ds : List Nat} (hds : ∀ d ∈ ds, d < base)
    (h : Nat.ofDigits base ds < base ^ (length - i)) :
    Nat.ofDigits base (mulAdd base mul carry i length ds).1 <
      base ^ ((mulAdd base mul carry i length ds).2.2 - i) := by
  induction ds generalizing carry i with
  | nil => simp [mulAdd]
  | cons d ds ih =>
    unfold mulAdd
    split_ifs with hgo
    · have hrest := ih ((carry + mul * d) / base) (i + 1)
        (fun y hy => hds y (List.mem_cons_of_mem d hy)) (ofDigits_tail_lt hb h)
      have hvis := (@visited_le base mul ((carry + mul * d) / base) (i + 1) length ds).1
      simp only [Nat.ofDigits_cons]
      rw [show (mulAdd base mul ((carry + mul * d) / base) (i + 1) length ds).2.2 - i =
        ((mulAdd base mul ((carry + mul * d) / base) (i + 1) length ds).2.2 - (i + 1)) + 1
        by omega, Nat.pow_succ]
      have hmod : (carry + mul * d) % base < base := Nat.mod_lt _ (by omega)
      -- `r + base * v < base * (v + 1) ≤ base * base ^ k`
      have hv := Nat.mul_le_mul_left base (Nat.succ_le_of_lt hrest)
      rw [Nat.mul_succ] at hv
      rw [Nat.mul_comm (base ^ _) base]
      omega
    · rw [show length - i = 0 by omega] at h
      simpa using h

end Base

/-! ### A run of passes -/

/-- A buffer of `size` digits in base `base` and the number of its digits written, holding `N`:
the digits above those written are zero. -/
structure Holds (base size : Nat) (acc : List Nat × Nat) (N : Nat) : Prop where
  length_eq : acc.1.length = size
  digit_lt : ∀ d ∈ acc.1, d < base
  ofDigits_eq : Nat.ofDigits base acc.1 = N
  lt_pow : N < base ^ acc.2
  written_le : acc.2 ≤ size

variable {size : Nat}

/-- The empty buffer holds zero. -/
theorem holds_replicate (hb : 1 < base) (size : Nat) : Holds base size (List.replicate size 0, 0) 0 :=
  ⟨List.length_replicate, fun d hd => by rw [(List.mem_replicate.1 hd).2]; omega,
    Nat.ofDigits_replicate_zero, by simp, Nat.zero_le _⟩

/-- One pass for an input digit `x < mul`, with room for `r` more digits after it: the carry is
zero, the buffer holds `mul * N + x`, and the room for the rest remains. -/
theorem Holds.pass (hb : 1 < base) {acc : List Nat × Nat} {N x r : Nat}
    (h : Holds base size acc N) (hx : x < mul) (hroom : (N + 1) * mul ^ (r + 1) ≤ base ^ size) :
    carryOut base mul acc x = 0 ∧ Holds base size (DigitBuffer.step base mul acc x) (mul * N + x) ∧
      (mul * N + x + 1) * mul ^ r ≤ base ^ size := by
  have hbound : Nat.ofDigits base acc.1 < base ^ (acc.2 - 0) := by
    rw [Nat.sub_zero, h.ofDigits_eq]; exact h.lt_pow
  have hval := @ofDigits_mulAdd base mul hb x 0 acc.2 acc.1 hbound
  have hlt := @ofDigits_mulAdd_lt base mul hb x 0 acc.2 acc.1 h.digit_lt hbound
  have hvis := (@visited_le base mul x 0 acc.2 acc.1).2
  rw [h.length_eq, h.ofDigits_eq] at hval
  rw [h.length_eq] at hvis
  rw [Nat.sub_zero] at hlt
  -- the new value fits: `mul * N + x < (N + 1) * mul ≤ base ^ size`
  have hfit : mul * N + x + 1 ≤ (N + 1) * mul := by rw [Nat.succ_mul, Nat.mul_comm]; omega
  have hroom' : (mul * N + x + 1) * mul ^ r ≤ base ^ size := by
    calc (mul * N + x + 1) * mul ^ r ≤ (N + 1) * mul * mul ^ r := Nat.mul_le_mul_right _ hfit
      _ = (N + 1) * mul ^ (r + 1) := by rw [Nat.pow_succ]; ring
      _ ≤ base ^ size := hroom
  have hpos : 0 < mul ^ r := Nat.pow_pos (Nat.lt_of_le_of_lt (Nat.zero_le x) hx)
  have hsmall : mul * N + x < base ^ size := by
    have := Nat.le_mul_of_pos_right (mul * N + x + 1) hpos
    omega
  have hcarry : carryOut base mul acc x = 0 := by
    unfold carryOut
    by_contra hne
    have := Nat.le_mul_of_pos_right (base ^ size) (Nat.pos_of_ne_zero hne)
    omega
  refine ⟨hcarry, ⟨?_, ?_, ?_, ?_, ?_⟩, hroom'⟩
  · simp [DigitBuffer.step, h.length_eq]
  · exact digit_lt_mulAdd hb x 0 acc.2 h.digit_lt
  · unfold carryOut at hcarry
    simp only [DigitBuffer.step]
    rw [hcarry, Nat.mul_zero, Nat.add_zero] at hval
    exact hval
  · unfold carryOut at hcarry
    rw [hcarry, Nat.mul_zero, Nat.add_zero] at hval
    simp only [DigitBuffer.step]
    rw [← hval]
    exact hlt
  · simpa [DigitBuffer.step] using hvis

/-- A run of passes over input digits below `mul`, with room for all of them, computes the
big-endian value of the input after `N` and keeps the room for the digits that follow. -/
theorem Holds.foldl (hb : 1 < base) :
    ∀ (pre : List Nat) {acc : List Nat × Nat} {N r : Nat}, Holds base size acc N →
      (∀ x ∈ pre, x < mul) → (N + 1) * mul ^ (pre.length + r) ≤ base ^ size →
      Holds base size (pre.foldl (DigitBuffer.step base mul) acc) (pre.foldl (fun n x => mul * n + x) N) ∧
        (pre.foldl (fun n x => mul * n + x) N + 1) * mul ^ r ≤ base ^ size
  | [], _, _, _, h, _, hroom => ⟨h, by simpa using hroom⟩
  | x :: pre, _, _, r, h, hxs, hroom => by
    have hstep := h.pass hb (hxs x (List.mem_cons_self ..))
      (r := pre.length + r) (by rw [List.length_cons, Nat.add_right_comm] at hroom; exact hroom)
    exact Holds.foldl hb pre hstep.2.1 (fun y hy => hxs y (List.mem_cons_of_mem x hy)) hstep.2.2

/-- Every pass of a run with room for its input ends with a zero carry. -/
theorem Holds.carryOut_eq_zero (hb : 1 < base) {acc : List Nat × Nat} {N : Nat}
    (h : Holds base size acc N) {pre post : List Nat} {x : Nat}
    (hxs : ∀ y ∈ pre ++ x :: post, y < mul)
    (hroom : (N + 1) * mul ^ (pre ++ x :: post).length ≤ base ^ size) :
    carryOut base mul (pre.foldl (DigitBuffer.step base mul) acc) x = 0 := by
  rw [List.length_append, List.length_cons] at hroom
  have hpre := Holds.foldl hb pre h (fun y hy => hxs y (List.mem_append_left _ hy)) hroom
  exact (hpre.1.pass hb (hxs x (by simp)) hpre.2).1

/-- The big-endian value of the digits after `N`. -/
theorem foldl_mul_add (xs : List Nat) (N : Nat) :
    xs.foldl (fun n x => mul * n + x) N = N * mul ^ xs.length + Nat.ofDigits mul xs.reverse := by
  induction xs generalizing N with
  | nil => simp
  | cons x xs ih =>
    rw [List.foldl_cons, ih, Nat.ofDigits_reverse_cons, List.length_cons, Nat.pow_succ]
    ring

/-! ### Reading the digits from the top -/

/-- The digits of a list, most significant first, without its leading zeros, are those of its
value. -/
theorem dropWhile_reverse_eq_digits (hb : 1 < base) :
    ∀ l : List Nat, (∀ x ∈ l, x < base) →
      l.reverse.dropWhile (· = 0) = (Nat.digits base (Nat.ofDigits base l)).reverse
  | [], _ => by simp
  | d :: l, hl => by
    have ih := dropWhile_reverse_eq_digits hb l (fun x hx => hl x (List.mem_cons_of_mem d hx))
    have hd : d < base := hl d (List.mem_cons_self ..)
    rw [List.reverse_cons, List.dropWhile_append, ih, Nat.ofDigits_cons]
    by_cases hv : Nat.ofDigits base l = 0
    · -- the digits above `d` are all zero
      rw [hv, Nat.digits_zero, Nat.mul_zero, Nat.add_zero]
      by_cases hd0 : d = 0
      · subst hd0
        simp
      · rw [Nat.digits_of_lt base d hd0 hd]
        simp [hd0]
    · rw [Nat.digits_add base hb d _ hd (Or.inr hv)]
      have hne : Nat.digits base (Nat.ofDigits base l) ≠ [] := by
        rwa [Ne, Nat.digits_eq_nil_iff_eq_zero]
      simp [hne]

/-- The digits of a buffer read from the top, past those above the written ones and the leading
zeros, are those of the number it holds. -/
theorem Holds.readout (hb : 1 < base) {acc : List Nat × Nat} {N : Nat}
    (h : Holds base size acc N) :
    ((acc.1.reverse).drop (size - acc.2)).dropWhile (· = 0) = (Nat.digits base N).reverse := by
  have hsplit := List.take_append_drop acc.2 acc.1
  have htake : (acc.1.take acc.2).length = acc.2 := by
    rw [List.length_take, h.length_eq]; exact Nat.min_eq_left h.written_le
  have hdrop : (acc.1.drop acc.2).reverse.length = size - acc.2 := by
    rw [List.length_reverse, List.length_drop, h.length_eq]
  -- the digits above those written add nothing: their value is zero
  have hval : Nat.ofDigits base (acc.1.take acc.2) = N := by
    have hN := h.ofDigits_eq
    rw [← hsplit, Nat.ofDigits_append, htake] at hN
    have hlt := h.lt_pow
    rcases Nat.eq_zero_or_pos (Nat.ofDigits base (acc.1.drop acc.2)) with h0 | h0
    · rw [h0, Nat.mul_zero, Nat.add_zero] at hN; exact hN
    · have := Nat.le_mul_of_pos_right (base ^ acc.2) h0
      omega
  rw [← hsplit, List.reverse_append, List.drop_left' hdrop,
    dropWhile_reverse_eq_digits hb _ (fun x hx => h.digit_lt x (List.mem_of_mem_take hx)), hval]

/-! ### Room in the buffer -/

/-- A buffer of `n * p / q + 1` digits in base `B` has room for every number of `n` digits in
base `A` when `A ^ q ≤ B ^ p`: the `q`-th powers compare as `A ^ (q n) ≤ B ^ (p n)`. -/
theorem pow_le_pow_div_add_one {A B p q : Nat} (hB : 0 < B) (hq : 0 < q) (h : A ^ q ≤ B ^ p)
    (n : Nat) : A ^ n ≤ B ^ (n * p / q + 1) := by
  have hexp : n * p ≤ (n * p / q + 1) * q := by
    rw [Nat.succ_mul]; exact Nat.le_of_lt (Nat.lt_div_mul_add hq)
  have hpow : (A ^ n) ^ q ≤ (B ^ (n * p / q + 1)) ^ q :=
    calc (A ^ n) ^ q = (A ^ q) ^ n := by rw [← Nat.pow_mul, ← Nat.pow_mul, Nat.mul_comm]
      _ ≤ (B ^ p) ^ n := Nat.pow_le_pow_left h n
      _ = B ^ (n * p) := by rw [← Nat.pow_mul, Nat.mul_comm]
      _ ≤ B ^ ((n * p / q + 1) * q) := Nat.pow_le_pow_right hB hexp
      _ = (B ^ (n * p / q + 1)) ^ q := by rw [Nat.pow_mul]
  exact (Nat.pow_le_pow_iff_left (Nat.pos_iff_ne_zero.1 hq)).1 hpow

/-! ### Digits without a leading zero -/

/-- A big-endian digit list whose first digit is not zero is the list of digits of its value. -/
theorem digits_ofDigits_reverse (hb : 1 < base) {ds : List Nat} (hds : ∀ d ∈ ds, d < base)
    (hhead : ∀ d ∈ ds.head?, d ≠ 0) : (Nat.digits base (Nat.ofDigits base ds.reverse)).reverse = ds := by
  rw [Nat.digits_ofDigits base hb ds.reverse (fun d hd => hds d (List.mem_reverse.1 hd)),
    List.reverse_reverse]
  intro hne
  rw [List.getLast_reverse]
  exact hhead _ (List.head?_eq_some_head _)

/-- The most significant digit of a number is not zero. -/
theorem head_digits_reverse_ne_zero (base N : Nat) :
    ∀ d ∈ (Nat.digits base N).reverse.head?, d ≠ 0 := by
  intro d hd
  by_cases hN : N = 0
  · subst hN
    simp at hd
  · have hne : Nat.digits base N ≠ [] := Nat.digits_ne_nil_iff_ne_zero.2 hN
    rw [List.head?_reverse, List.getLast?_eq_some_getLast hne, Option.mem_some_iff] at hd
    rw [← hd]
    exact Nat.getLast_digit_ne_zero base hN

end DigitBuffer
