import Ravencoin.Lib.ByteStream

/-!
# Prefix codes over byte streams

A writer `w : α → List UInt8` and a reader `r : Reader α` form a prefix code on the values that
satisfy `P` when `r` reads back each such value from what `w` writes for it, whatever follows,
and when every value `r` accepts satisfies `P` and was read from exactly the bytes `w` writes
for it. The second law says that the reader is canonical: each value has one encoding, and
nothing outside `P` is ever read. Both laws survive the ways serializers are put together:
fields written one after another, a run of values counted in advance, and a change of the type
along a bijection.

## Main definitions

* `ByteStream.PrefixCode r w P` — the two laws.
* `ByteStream.readCount r n`, `ByteStream.writeAll w xs` — `n` values read in turn, and the
  values of a list written in turn.

## Main results

* `ByteStream.PrefixCode.readCount` — a run of `n` values of a prefix code is one, on the lists
  of length `n`.
* `ByteStream.PrefixCode.counted` — so is a run preceded by its length in a prefix code.
* `ByteStream.PrefixCode.map` — a prefix code carried along a bijection.
* `ByteStream.readBytes_eq_readCount` — raw bytes read at once or one by one.
-/

set_option autoImplicit false

namespace ByteStream

variable {α β : Type}

/-- `r` and `w` form a prefix code on the values that satisfy `P`: `r` reads back what `w`
writes for such a value whatever follows it, and whatever `r` accepts satisfies `P` and was read
from the bytes `w` writes for it. -/
structure PrefixCode (r : Reader α) (w : α → List UInt8) (P : α → Prop) : Prop where
  read_write : ∀ a, P a → ∀ rest, r (w a ++ rest) = some (a, rest)
  sound : ∀ {s a s'}, r s = some (a, s') → P a ∧ s = w a ++ s'

/-- `n` values read in turn. -/
def readCount (r : Reader α) : Nat → Reader (List α)
  | 0 => pure []
  | n + 1 => do
    let a ← r
    let as ← readCount r n
    return a :: as

/-- The values of `xs` written in turn. -/
def writeAll (w : α → List UInt8) (xs : List α) : List UInt8 := xs.flatMap w

@[simp] theorem readCount_zero (r : Reader α) : readCount r 0 = pure [] := rfl

theorem readCount_succ (r : Reader α) (n : Nat) :
    readCount r (n + 1) = (do let a ← r; let as ← readCount r n; return a :: as) := rfl

@[simp] theorem writeAll_nil (w : α → List UInt8) : writeAll w [] = [] := rfl

@[simp] theorem writeAll_cons (w : α → List UInt8) (a : α) (xs : List α) :
    writeAll w (a :: xs) = w a ++ writeAll w xs := rfl

namespace PrefixCode

variable {r : Reader α} {w : α → List UInt8} {P : α → Prop}

/-- A run of `n` values of a prefix code is a prefix code on the lists of length `n`. -/
theorem readCount (h : PrefixCode r w P) (n : Nat) :
    PrefixCode (ByteStream.readCount r n) (writeAll w)
      (fun xs => xs.length = n ∧ ∀ x ∈ xs, P x) where
  read_write := by
    rintro xs ⟨rfl, hP⟩ rest
    induction xs with
    | nil => rfl
    | cons x xs ih =>
      have hx := h.read_write x (hP x List.mem_cons_self) (writeAll w xs ++ rest)
      have hxs := ih (fun y hy => hP y (List.mem_cons_of_mem x hy))
      rw [List.length_cons, readCount_succ, writeAll_cons, List.append_assoc, bind_apply, hx,
        Option.bind_some, bind_apply, hxs, Option.bind_some, pure_apply]
  sound := by
    induction n with
    | zero =>
      intro s xs s' hr
      cases (hr : some ([], s) = some (xs, s'))
      exact ⟨⟨rfl, fun _ hx => absurd hx List.not_mem_nil⟩, rfl⟩
    | succ n ih =>
      intro s xs s' hr
      -- one value, then the other `n`
      obtain ⟨x, s₁, hx, hrest⟩ := bind_eq_some.mp hr
      obtain ⟨ys, s₂, hys, hpure⟩ := bind_eq_some.mp hrest
      cases (hpure : some (x :: ys, s₂) = some (xs, s'))
      obtain ⟨hPx, rfl⟩ := h.sound hx
      obtain ⟨⟨hlen, hPys⟩, rfl⟩ := ih hys
      refine ⟨⟨by rw [List.length_cons, hlen], ?_⟩, by rw [writeAll_cons, List.append_assoc]⟩
      intro y hy
      rcases List.mem_cons.1 hy with rfl | hy
      · exact hPx
      · exact hPys y hy

/-- A run of values of a prefix code, preceded by its length in a prefix code for lengths. -/
theorem counted {rc : Reader Nat} {wc : Nat → List UInt8} {Pc : Nat → Prop}
    (hc : PrefixCode rc wc Pc) (h : PrefixCode r w P) :
    PrefixCode (do let n ← rc; ByteStream.readCount r n) (fun xs => wc xs.length ++ writeAll w xs)
      (fun xs => Pc xs.length ∧ ∀ x ∈ xs, P x) where
  read_write := by
    rintro xs ⟨hlen, hP⟩ rest
    rw [bind_apply, List.append_assoc, hc.read_write _ hlen, Option.bind_some]
    exact (h.readCount xs.length).read_write xs ⟨rfl, hP⟩ rest
  sound := by
    intro s xs s' hr
    obtain ⟨n, s₁, hn, hxs⟩ := bind_eq_some.mp hr
    obtain ⟨hPn, rfl⟩ := hc.sound hn
    obtain ⟨⟨rfl, hP⟩, rfl⟩ := (h.readCount n).sound hxs
    exact ⟨⟨hPn, hP⟩, by rw [List.append_assoc]⟩

/-- A prefix code carried along a bijection `f`, `g` between the values of `P` and those of
`Q`. -/
theorem map {f : α → β} {g : β → α} {Q : β → Prop} (h : PrefixCode r w P)
    (hQ : ∀ b, Q b → P (g b)) (hfg : ∀ b, Q b → f (g b) = b)
    (hP : ∀ a, P a → Q (f a)) (hgf : ∀ a, P a → g (f a) = a) :
    PrefixCode (do let a ← r; return f a) (fun b => w (g b)) Q where
  read_write := by
    intro b hb rest
    rw [bind_apply, h.read_write _ (hQ b hb), Option.bind_some, hfg b hb]
    rfl
  sound := by
    intro s b s' hr
    obtain ⟨a, s₁, ha, hpure⟩ := bind_eq_some.mp hr
    cases (hpure : some (f a, s₁) = some (b, s'))
    obtain ⟨hPa, rfl⟩ := h.sound ha
    exact ⟨hP a hPa, by rw [hgf a hPa]⟩

end PrefixCode

/-! ### Raw bytes -/

theorem readByte_code : PrefixCode readByte (fun b => [b]) (fun _ => True) where
  read_write := fun _ _ _ => rfl
  sound := by
    intro s b s' hr
    cases s with
    | nil => cases hr
    | cons c rest =>
      cases (hr : some (c, rest) = some (b, s'))
      exact ⟨trivial, rfl⟩

/-- Reading `n` raw bytes at once is reading them one by one. -/
theorem readBytes_eq_readCount (n : Nat) : readBytes n = readCount readByte n := by
  induction n with
  | zero => funext s; simp [readBytes]
  | succ n ih =>
    funext s
    rw [readCount_succ, ← ih]
    cases s with
    | nil => simp [readBytes, bind_apply]
    | cons b rest =>
      rw [bind_apply, readByte_cons, Option.bind_some, bind_apply]
      by_cases hn : n ≤ rest.length
      · simp [readBytes, hn]
      · simp [readBytes, hn]

theorem writeAll_singleton (bs : List UInt8) : writeAll (fun b => [b]) bs = bs := by
  induction bs with
  | nil => rfl
  | cons b bs ih => rw [writeAll_cons, ih, List.singleton_append]

/-! ### Two's complement

`toSigned w` and `x ↦ (x % 2 ^ w).toNat` are inverse bijections between the `w`-bit patterns and
the signed `w`-bit range: the pair a signed field's reader and writer go through. -/

theorem toSigned_emod_toNat {w x : Nat} (hx : x < 2 ^ w) : ((toSigned w x) % 2 ^ w).toNat = x := by
  unfold toSigned
  have hx' : (x : Int) < 2 ^ w := by exact_mod_cast hx
  split
  · rw [Int.emod_eq_of_lt (by omega) hx']
    simp
  · -- a pattern with the sign bit set was read as `x - 2 ^ w`
    rw [Int.sub_emod, Int.emod_self, Int.sub_zero, Int.emod_emod_of_dvd _ (dvd_refl _),
      Int.emod_eq_of_lt (by omega) hx']
    simp

theorem toSigned_emod {w : Nat} {v : Int} (hw : 0 < w) (h1 : -2 ^ (w - 1) ≤ v)
    (h2 : v < 2 ^ (w - 1)) : toSigned w ((v % 2 ^ w).toNat) = v := by
  have hpow : (2 : Int) ^ w = 2 * 2 ^ (w - 1) := by
    rw [← pow_succ']
    congr 1
    omega
  have hpos : (0 : Int) < 2 ^ (w - 1) := by exact_mod_cast Nat.two_pow_pos (w - 1)
  have hcast : (((v % 2 ^ w).toNat : Nat) : Int) = v % 2 ^ w :=
    Int.toNat_of_nonneg (Int.emod_nonneg _ (by omega))
  unfold toSigned
  by_cases hv : 0 ≤ v
  · have hmod : v % 2 ^ w = v := Int.emod_eq_of_lt hv (by omega)
    rw [if_pos (by rw [← Int.ofNat_lt, hcast, hmod]; exact_mod_cast h2), hcast, hmod]
  · -- a negative value is written as the pattern `v + 2 ^ w`, at or above the sign bit
    have hmod : v % 2 ^ w = v + 2 ^ w := by
      rw [← Int.add_emod_right, Int.emod_eq_of_lt (by omega) (by omega)]
    rw [if_neg (by rw [← Int.ofNat_lt, hcast, hmod]; push_cast; omega), hcast, hmod]
    omega

end ByteStream
