import Mathlib.Data.Int.ModEq

/-!
# Byte streams and fixed-width integers

A small library for deserializers that read from the front of a byte stream, and for the
two's-complement arithmetic of fixed-width machine integers. Nothing here is specific to one
program: a stream is a `List UInt8`, a reader consumes a prefix of it and either returns a
value with the unread rest or fails (the model of a C++ stream that throws), and a `w`-bit
signed integer is an `Int` in `[-2^(w-1), 2^(w-1))`.

## Main definitions

* `ByteStream.Reader` — `StateT (List UInt8) Option`, with `readByte`, `readBytes`,
  `remaining`, and the little-endian reader `readLE`.
* `ByteStream.leNat` — the value of a little-endian byte string.
* `ByteStream.toSigned w x` — the two's-complement reading of the `w`-bit pattern `x`.
* `ByteStream.wrap w x` — `x` reduced into the signed `w`-bit range, i.e. the result of a
  wrapping machine operation whose exact result is `x`.

## Main results

* `ByteStream.bind_eq_some` — a sequenced read succeeds exactly when both parts do.
* `ByteStream.leNat_append` — the value of a concatenation.
* `ByteStream.eq_append_middle_append` — a list fixed at its first and last indices.
* `ByteStream.and_0x80_ne_zero_iff`, `ByteStream.and_0x7f_eq_zero_iff`,
  `ByteStream.toNat_and_0x7f` — the sign bit and the low bits of a byte as bounds on its value.
-/

set_option autoImplicit false

namespace ByteStream

/-- A deserializer: reads a value from the front of the stream and returns the unread rest,
or fails (`none`) when the stream ends early or the bytes are refused. -/
abbrev Reader (α : Type) : Type := StateT (List UInt8) Option α

variable {α β : Type}

/-- One byte from the front of the stream. -/
def readByte : Reader UInt8 := fun s =>
  match s with
  | [] => none
  | b :: rest => some (b, rest)

/-- The next `n` bytes; fails when fewer than `n` remain. -/
def readBytes (n : Nat) : Reader (List UInt8) := fun s =>
  if n ≤ s.length then some (s.take n, s.drop n) else none

/-- The number of unread bytes, without consuming any. -/
def remaining : Reader Nat := fun s => some (s.length, s)

/-- The value of a little-endian byte string. -/
def leNat : List UInt8 → Nat
  | [] => 0
  | b :: bs => b.toNat + 256 * leNat bs

/-- An unsigned little-endian integer of `n` bytes. -/
def readLE (n : Nat) : Reader Nat := do
  let bs ← readBytes n
  return leNat bs

/-- The two's-complement reading of a `w`-bit pattern `x < 2^w`. -/
def toSigned (w x : Nat) : Int :=
  if x < 2 ^ (w - 1) then (x : Int) else (x : Int) - 2 ^ w

/-- `x` reduced into the signed range `[-2^(w-1), 2^(w-1))` modulo `2^w`: the result of a
`w`-bit wrapping operation whose exact integer result is `x`. -/
def wrap (w : Nat) (x : Int) : Int :=
  (x + 2 ^ (w - 1)) % 2 ^ w - 2 ^ (w - 1)

/-! ### Reading -/

theorem bind_eq_some {x : Reader α} {f : α → Reader β} {s s'' : List UInt8} {b : β} :
    (x >>= f) s = some (b, s'') ↔ ∃ a s', x s = some (a, s') ∧ f a s' = some (b, s'') := by
  show (x s).bind (fun p => f p.1 p.2) = _ ↔ _
  constructor
  · intro h
    obtain ⟨⟨a, s'⟩, hx, hf⟩ := Option.bind_eq_some_iff.mp h
    exact ⟨a, s', hx, hf⟩
  · rintro ⟨a, s', hx, hf⟩
    rw [hx]
    exact hf

/-- How the reader monad runs: `pure` consumes nothing, `failure` fails, and a bind feeds the
unread rest of the first read to the second. -/
@[simp] theorem pure_apply (a : α) (s : List UInt8) : (pure a : Reader α) s = some (a, s) := rfl

@[simp] theorem failure_apply (s : List UInt8) : (failure : Reader α) s = none := rfl

theorem bind_apply (x : Reader α) (f : α → Reader β) (s : List UInt8) :
    (x >>= f) s = (x s).bind (fun p => f p.1 p.2) := rfl

@[simp] theorem readByte_cons (b : UInt8) (rest : List UInt8) :
    readByte (b :: rest) = some (b, rest) := rfl

@[simp] theorem readByte_nil : readByte ([] : List UInt8) = none := rfl

theorem readLE_eq_some {n x : Nat} {s s' : List UInt8} (h : readLE n s = some (x, s')) :
    n ≤ s.length ∧ x = leNat (s.take n) ∧ s' = s.drop n := by
  obtain ⟨bs, s₁, hb, hx⟩ := bind_eq_some.mp h
  simp only [readBytes] at hb
  split at hb
  · next hn =>
    simp only [Option.some.injEq, Prod.mk.injEq] at hb
    obtain ⟨rfl, rfl⟩ := hb
    cases hx
    exact ⟨hn, rfl, rfl⟩
  · cases hb

theorem readBytes_append (bs rest : List UInt8) :
    readBytes bs.length (bs ++ rest) = some (bs, rest) := by
  simp [readBytes]

theorem readLE_append (bs rest : List UInt8) :
    readLE bs.length (bs ++ rest) = some (leNat bs, rest) := by
  simp [readLE, Functor.map, StateT.map, readBytes]

theorem leNat_lt (bs : List UInt8) : leNat bs < 256 ^ bs.length := by
  induction bs with
  | nil => simp [leNat]
  | cons b bs ih =>
    have hb := b.toNat_lt
    simp only [leNat, List.length_cons, pow_succ]
    omega

/-! ### Lists by their indices -/

/-- A list of length `p.length + m + q.length` that agrees with `p` on its first indices and
with `q` on its last ones is `p`, its middle part, and `q`. -/
theorem eq_append_middle_append {γ : Type} {l p q : List γ} {m : Nat}
    (hlen : l.length = p.length + m + q.length)
    (hp : ∀ i < p.length, l[i]? = p[i]?) (hq : ∀ i < q.length, l[p.length + m + i]? = q[i]?) :
    l = p ++ (l.drop p.length).take m ++ q := by
  apply List.ext_getElem?
  intro i
  simp only [List.getElem?_append, List.getElem?_take, List.getElem?_drop, List.length_append,
    List.length_take, List.length_drop]
  by_cases h1 : i < p.length
  · -- in the first part
    rw [if_pos (by omega), if_pos h1, hp i h1]
  · by_cases h2 : i < p.length + m
    · -- in the middle part
      rw [if_pos (by omega), if_neg h1, if_pos (by omega)]
      congr 1
      omega
    · -- in the last part, or past the end of both lists
      rw [if_neg (by omega)]
      by_cases h3 : i < l.length
      · have hi := hq (i - (p.length + m)) (by omega)
        rw [show p.length + m + (i - (p.length + m)) = i by omega] at hi
        rw [hi]
        congr 1
        omega
      · rw [List.getElem?_eq_none (by omega), List.getElem?_eq_none (by omega)]

/-! ### Little-endian values and the top bit of a byte -/

theorem leNat_append (xs ys : List UInt8) :
    leNat (xs ++ ys) = leNat xs + 256 ^ xs.length * leNat ys := by
  induction xs with
  | nil => simp [leNat]
  | cons b xs ih =>
    simp only [List.cons_append, leNat, ih, List.length_cons, pow_succ]
    rw [Nat.mul_add, ← Nat.mul_assoc, Nat.mul_comm 256 (256 ^ xs.length), Nat.add_assoc]

theorem leNat_append_singleton (xs : List UInt8) (b : UInt8) :
    leNat (xs ++ [b]) = leNat xs + 256 ^ xs.length * b.toNat := by
  simp [leNat_append, leNat]

set_option maxRecDepth 8000 in
/-- The top bit of a byte is set exactly from `128` on. -/
theorem and_0x80_ne_zero_iff (b : UInt8) : b &&& 0x80 ≠ 0 ↔ 128 ≤ b.toNat := by
  have key : ∀ n, n < 256 → (n &&& 128 ≠ 0 ↔ 128 ≤ n) := by decide
  rw [← key _ b.toNat_lt, ne_eq, ne_eq, ← UInt8.toNat_inj]
  simp [UInt8.toNat_and]

set_option maxRecDepth 8000 in
theorem toNat_or_0x80 {b : UInt8} (h : b.toNat < 128) : (b ||| 0x80).toNat = b.toNat + 128 := by
  have key : ∀ n, n < 128 → n ||| 128 = n + 128 := by decide
  simp [UInt8.toNat_or, key _ h]

/-- The low seven bits of a byte are its value modulo `128`. -/
theorem toNat_and_0x7f (b : UInt8) : (b &&& 0x7f).toNat = b.toNat % 128 := by
  rw [UInt8.toNat_and]
  exact Nat.and_two_pow_sub_one_eq_mod b.toNat 7

set_option maxRecDepth 8000 in
/-- The low seven bits of a byte are clear exactly at `0` and `0x80`. -/
theorem and_0x7f_eq_zero_iff (b : UInt8) : b &&& 0x7f = 0 ↔ b.toNat = 0 ∨ b.toNat = 128 := by
  have key : ∀ n, n < 256 → (n &&& 127 = 0 ↔ n = 0 ∨ n = 128) := by decide
  rw [← key _ b.toNat_lt, ← UInt8.toNat_inj]
  simp [UInt8.toNat_and]

/-! ### Signed ranges and wrapping -/

section Wrap

variable (w : Nat)

/-- A `w`-bit pattern read as a signed integer lies in the signed range. -/
theorem toSigned_mem {x : Nat} (hw : 0 < w) (hx : x < 2 ^ w) :
    -2 ^ (w - 1) ≤ toSigned w x ∧ toSigned w x < 2 ^ (w - 1) := by
  have h2 : (2 : Int) ^ w = 2 * 2 ^ (w - 1) := by
    rw [← pow_succ']
    congr 1
    omega
  have hx' : (x : Int) < 2 ^ w := by exact_mod_cast hx
  unfold toSigned
  split
  · next h =>
    have : (x : Int) < 2 ^ (w - 1) := by exact_mod_cast h
    constructor <;> omega
  · next h =>
    have : (2 : Int) ^ (w - 1) ≤ x := by exact_mod_cast Nat.le_of_not_lt h
    constructor <;> omega

end Wrap

end ByteStream
