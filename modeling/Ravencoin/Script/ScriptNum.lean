import Ravencoin.Lib.ByteStream

/-!
# Script numbers (`script/script.h`)

`CScriptNum` is the number type of the interpreter's numeric opcodes. It holds an `int64_t`; on
the stack a number is a little-endian byte string whose last byte carries the sign in its top
bit, and the empty string is zero. Reading a number from the stack refuses a string longer than
`nMaxNumSize` bytes and, when minimal encoding is required, one whose last byte could be
dropped.

## Main definitions

* `Ravencoin.CScriptNum` — the number, with `set_vch` (bytes to value), `serialize` (value to
  bytes), `getint` and `getvch`.
* `Ravencoin.CScriptNum.FromVch` — the constructor `CScriptNum(vch, fRequireMinimal,
  nMaxNumSize)`, which throws `scriptnum_error`.

## Main results

* `Ravencoin.CScriptNum.set_vch_serialize` — `set_vch` inverts `serialize`.
* `Ravencoin.CScriptNum.FromVch_serialize` — the checked constructor accepts every encoding
  `serialize` produces, minimal encoding required or not, and decodes it to its value.
* `Ravencoin.CScriptNum.serialize_set_vch_of_minimal` — a string the minimal-encoding rule
  accepts is the serialization of its value, so minimal encodings are unique.
* `Ravencoin.CScriptNum.length_serialize_le_of_lt`, `Ravencoin.CScriptNum.natAbs_set_vch_lt` —
  `k` bytes hold exactly the magnitudes below `2 ^ (8 * k - 1)`.
* `Ravencoin.CScriptNum.script_num_encoding_round_trip` — both directions for the size limits
  `4` and `5`.
* `Ravencoin.CScriptNum.FromVch_getvch` — every number of the `int32_t` range but `-2^31` that
  the interpreter pushes is read back as itself.

## Implementation notes

The value is an unbounded `Int`. The interpreter reads numbers of at most five bytes, and what
it computes from them (a sum or difference of two, a negation, a comparison) stays far inside
the `int64_t` range, where the C++ assertions of the operators never fire.
-/

set_option autoImplicit false

namespace Ravencoin

open ByteStream

/-- `CScriptNum`: a script number. -/
structure CScriptNum where
  m_value : Int
deriving DecidableEq, Repr

namespace CScriptNum

/-- `nDefaultMaxNumSize`. -/
def nDefaultMaxNumSize : Nat := 4

/-- `CScriptNum::set_vch`: the little-endian magnitude, negated when the top bit of the last
byte is set (that bit is not part of the magnitude). -/
def set_vch (vch : List UInt8) : Int :=
  match vch.getLast? with
  | none => 0
  | some last =>
    let result := leNat vch
    if last &&& 0x80 ≠ 0 then -((result - 0x80 * 256 ^ (vch.length - 1) : Nat) : Int)
    else result

/-- The loop `while (absvalue)` of `serialize`: the bytes of `absvalue`, least significant
first. A value has fewer bytes than it is large, so `fuel := absvalue` suffices. -/
def magnitudeBytes : Nat → Nat → List UInt8
  | 0, _ => []
  | fuel + 1, absvalue =>
    if absvalue = 0 then [] else (absvalue % 256).toUInt8 :: magnitudeBytes fuel (absvalue / 256)

/-- `CScriptNum::serialize`: the shortest encoding; a sign byte is appended when the top bit
of the magnitude's last byte is taken. -/
def serialize (value : Int) : List UInt8 :=
  if value = 0 then []
  else
    let neg := value < 0
    let result := magnitudeBytes value.natAbs value.natAbs
    match result.getLast? with
    | none => result
    | some last =>
      if last &&& 0x80 ≠ 0 then result ++ [if neg then 0x80 else 0]
      else if neg then result.dropLast ++ [last ||| 0x80]
      else result

/-- `CScriptNum(vch, fRequireMinimal, nMaxNumSize)`: the number a stack element encodes, or the
text of the `scriptnum_error` it throws. -/
def FromVch (vch : List UInt8) (fRequireMinimal : Bool) (nMaxNumSize : Nat) :
    Except String CScriptNum :=
  if vch.length > nMaxNumSize then .error "script number overflow"
  else match vch.getLast? with
    | some last =>
      -- the last byte may be `0x00` or `0x80` only when the byte before it needs its top bit
      if fRequireMinimal ∧ last &&& 0x7f = 0 ∧
          (vch.length ≤ 1 ∨ (vch.getD (vch.length - 2) 0) &&& 0x80 = 0) then
        .error "non-minimally encoded script number"
      else .ok ⟨set_vch vch⟩
    | none => .ok ⟨set_vch vch⟩

/-- `CScriptNum::getint`: the value clamped to the range of `int`. -/
def getint (n : CScriptNum) : Int :=
  if n.m_value > 2 ^ 31 - 1 then 2 ^ 31 - 1
  else if n.m_value < -2 ^ 31 then -2 ^ 31
  else n.m_value

/-- `CScriptNum::getvch`. -/
def getvch (n : CScriptNum) : List UInt8 := serialize n.m_value

/-! ### Reading back what is written -/

@[simp] theorem magnitudeBytes_zero (fuel : Nat) : magnitudeBytes fuel 0 = [] := by
  cases fuel <;> rfl

theorem leNat_magnitudeBytes {fuel a : Nat} (h : a ≤ fuel) : leNat (magnitudeBytes fuel a) = a := by
  induction fuel generalizing a with
  | zero => simp [show a = 0 by omega, leNat]
  | succ fuel ih =>
    by_cases ha : a = 0
    · simp [ha, leNat]
    · simp only [magnitudeBytes, ha, if_false, leNat, ih (show a / 256 ≤ fuel by omega)]
      simp
      omega

/-- The bytes of a nonzero magnitude end in a nonzero byte. -/
theorem magnitudeBytes_split {fuel a : Nat} (h : a ≤ fuel) (ha : 0 < a) :
    ∃ m last, magnitudeBytes fuel a = m ++ [last] ∧ 0 < last.toNat := by
  induction fuel generalizing a with
  | zero => omega
  | succ fuel ih =>
    simp only [magnitudeBytes, Nat.pos_iff_ne_zero.1 ha, if_false]
    by_cases hq : a / 256 = 0
    · refine ⟨[], (a % 256).toUInt8, by simp [hq], ?_⟩
      simp
      omega
    · obtain ⟨m, last, hm, hlast⟩ := ih (show a / 256 ≤ fuel by omega) (Nat.pos_of_ne_zero hq)
      exact ⟨(a % 256).toUInt8 :: m, last, by simp [hm], hlast⟩


/-- `serialize` of a nonzero value: its magnitude bytes `m ++ [last]` with `last ≠ 0`, then a
sign byte when the top bit of `last` is taken, and otherwise the sign in that top bit. -/
theorem serialize_cases {n : Int} (hn : n ≠ 0) :
    ∃ m last, 0 < last.toNat ∧ leNat m + 256 ^ m.length * last.toNat = n.natAbs ∧
      serialize n = if 128 ≤ last.toNat then m ++ [last] ++ [if n < 0 then 0x80 else 0]
        else m ++ [if n < 0 then last ||| 0x80 else last] := by
  obtain ⟨m, last, hsplit, hpos⟩ :=
    magnitudeBytes_split (le_refl n.natAbs) (Int.natAbs_pos.2 hn)
  have hval := leNat_magnitudeBytes (le_refl n.natAbs)
  rw [hsplit, leNat_append] at hval
  refine ⟨m, last, hpos, by simpa [leNat] using hval, ?_⟩
  unfold serialize
  simp only [hn, if_false, hsplit, List.getLast?_append, List.getLast?_singleton,
    Option.some_or, and_0x80_ne_zero_iff, List.dropLast_concat]
  split_ifs <;> simp

/-- `set_vch` of a string with last byte `b`: the sign is the top bit of `b`. -/
theorem set_vch_append_singleton (xs : List UInt8) (b : UInt8) :
    set_vch (xs ++ [b]) = if 128 ≤ b.toNat then
        -((leNat xs + 256 ^ xs.length * (b.toNat - 128) : Nat) : Int)
      else ((leNat xs + 256 ^ xs.length * b.toNat : Nat) : Int) := by
  unfold set_vch
  simp only [List.getLast?_append, List.getLast?_singleton, Option.some_or,
    leNat_append_singleton, and_0x80_ne_zero_iff, List.length_append, List.length_singleton,
    Nat.add_sub_cancel]
  split_ifs with hb
  · -- the sign bit is worth `128 * 256 ^ xs.length`
    have hle : 256 ^ xs.length * 128 ≤ 256 ^ xs.length * b.toNat := Nat.mul_le_mul_left _ hb
    rw [Nat.mul_sub]
    omega
  · rfl

theorem set_vch_serialize (n : Int) : set_vch (serialize n) = n := by
  by_cases hn : n = 0
  · subst hn
    rfl
  obtain ⟨m, last, hpos, hval, hser⟩ := serialize_cases hn
  rw [hser]
  split_ifs with htop hneg hneg
  · rw [set_vch_append_singleton, if_pos (by decide), leNat_append_singleton, List.length_append]
    simp only [show (0x80 : UInt8).toNat - 128 = 0 from rfl, Nat.mul_zero, Nat.add_zero, hval]
    omega
  · rw [set_vch_append_singleton, if_neg (by decide), leNat_append_singleton, List.length_append]
    simp only [show (0 : UInt8).toNat = 0 from rfl, Nat.mul_zero, Nat.add_zero, hval]
    omega
  · have hor := toNat_or_0x80 (not_le.1 htop)
    rw [set_vch_append_singleton, if_pos (by omega), hor, Nat.add_sub_cancel, hval]
    omega
  · rw [set_vch_append_singleton, if_neg htop, hval]
    omega

/-- The minimal-encoding rule passes a string whose last byte has low bits set, or whose byte
before the last carries the sign bit. -/
theorem FromVch_append_singleton {xs : List UInt8} {b : UInt8} (fRequireMinimal : Bool)
    {nMaxNumSize : Nat} (hk : (xs ++ [b]).length ≤ nMaxNumSize)
    (hmin : b &&& 0x7f = 0 → ∃ ys c, xs = ys ++ [c] ∧ c &&& 0x80 ≠ 0) :
    FromVch (xs ++ [b]) fRequireMinimal nMaxNumSize = .ok ⟨set_vch (xs ++ [b])⟩ := by
  unfold FromVch
  rw [if_neg (by omega)]
  simp only [List.getLast?_append, List.getLast?_singleton, Option.some_or]
  rw [if_neg]
  rintro ⟨-, h7, hlen⟩
  obtain ⟨ys, c, rfl, hc⟩ := hmin h7
  simp at hlen
  exact hc hlen

theorem FromVch_serialize (n : Int) (fRequireMinimal : Bool) {nMaxNumSize : Nat}
    (hk : (serialize n).length ≤ nMaxNumSize) :
    FromVch (serialize n) fRequireMinimal nMaxNumSize = .ok ⟨n⟩ := by
  by_cases hn : n = 0
  · subst hn
    simp [FromVch, serialize, set_vch]
  obtain ⟨m, last, hpos, -, hser⟩ := serialize_cases hn
  have hv := set_vch_serialize n
  rw [hser] at hv hk ⊢
  split_ifs at hv hk ⊢ with htop hneg hneg
  -- a sign byte follows a byte with the top bit set; otherwise the last byte is not `0x00` or
  -- `0x80`
  · rw [FromVch_append_singleton _ hk fun _ => ⟨m, last, rfl, (and_0x80_ne_zero_iff last).2 htop⟩,
      hv]
  · rw [FromVch_append_singleton _ hk fun _ => ⟨m, last, rfl, (and_0x80_ne_zero_iff last).2 htop⟩,
      hv]
  · refine (FromVch_append_singleton _ hk fun h7 => ?_).trans (by rw [hv])
    rw [and_0x7f_eq_zero_iff, toNat_or_0x80 (not_le.1 htop)] at h7
    omega
  · refine (FromVch_append_singleton _ hk fun h7 => ?_).trans (by rw [hv])
    rw [and_0x7f_eq_zero_iff] at h7
    omega

/-! ### Minimal encodings -/

/-- The bytes of the value of a string whose last byte is nonzero are the string itself. -/
theorem magnitudeBytes_leNat {last : UInt8} (hlast : 0 < last.toNat) :
    ∀ (ys : List UInt8) (fuel : Nat), leNat (ys ++ [last]) ≤ fuel →
      magnitudeBytes fuel (leNat (ys ++ [last])) = ys ++ [last] := by
  intro ys
  induction ys with
  | nil =>
    intro fuel hfuel
    obtain ⟨fuel, rfl⟩ : ∃ f, fuel = f + 1 := ⟨fuel - 1, by simp [leNat] at hfuel; omega⟩
    have hv : leNat ([] ++ [last]) = last.toNat := by simp [leNat]
    rw [hv, magnitudeBytes, if_neg (by omega), Nat.mod_eq_of_lt last.toNat_lt,
      Nat.div_eq_of_lt last.toNat_lt, magnitudeBytes_zero]
    simp
  | cons y ys ih =>
    intro fuel hfuel
    have hpos : 0 < leNat (ys ++ [last]) := by
      rw [leNat_append_singleton]
      exact Nat.lt_of_lt_of_le (Nat.mul_pos (Nat.pow_pos (by decide : 0 < 256)) hlast)
        (Nat.le_add_left _ _)
    have hv : leNat (y :: ys ++ [last]) = y.toNat + 256 * leNat (ys ++ [last]) := rfl
    obtain ⟨fuel, rfl⟩ : ∃ f, fuel = f + 1 := ⟨fuel - 1, by omega⟩
    have hy := y.toNat_lt
    rw [hv, magnitudeBytes, if_neg (by omega),
      show (y.toNat + 256 * leNat (ys ++ [last])) % 256 = y.toNat by omega,
      show (y.toNat + 256 * leNat (ys ++ [last])) / 256 = leNat (ys ++ [last]) by omega,
      ih fuel (by omega)]
    simp

/-- `serialize` of a nonzero value whose magnitude bytes end in `last`. -/
theorem serialize_of_magnitudeBytes {v : Int} (hv : v ≠ 0) {xs : List UInt8} {last : UInt8}
    (hm : magnitudeBytes v.natAbs v.natAbs = xs ++ [last]) :
    serialize v = if 128 ≤ last.toNat then xs ++ [last] ++ [if v < 0 then 0x80 else 0]
      else if v < 0 then xs ++ [last ||| 0x80] else xs ++ [last] := by
  unfold serialize
  simp only [hv, if_false, hm, List.getLast?_append, List.getLast?_singleton, Option.some_or,
    and_0x80_ne_zero_iff, List.dropLast_concat]

/-- What the minimal-encoding check accepts: the last byte has low bits set, or the byte before
it has its top bit set. -/
theorem FromVch_true_append_singleton {xs : List UInt8} {last : UInt8} {k : Nat}
    {n : CScriptNum} (h : FromVch (xs ++ [last]) true k = .ok n) :
    (xs ++ [last]).length ≤ k ∧ n = ⟨set_vch (xs ++ [last])⟩ ∧
      (last &&& 0x7f ≠ 0 ∨ ∃ ys c, xs = ys ++ [c] ∧ c &&& 0x80 ≠ 0) := by
  unfold FromVch at h
  split_ifs at h with hk
  simp only [List.getLast?_append, List.getLast?_singleton, Option.some_or] at h
  split_ifs at h with hmin
  cases h
  refine ⟨by omega, rfl, ?_⟩
  by_cases h7 : last &&& 0x7f = 0
  · right
    rcases List.eq_nil_or_concat xs with rfl | ⟨ys, c, hxs⟩
    · exact absurd ⟨trivial, h7, Or.inl (by simp)⟩ hmin
    · rw [List.concat_eq_append] at hxs
      subst hxs
      refine ⟨ys, c, rfl, fun hc => hmin ⟨trivial, h7, Or.inr ?_⟩⟩
      simpa [List.getD_eq_getElem?_getD, List.getElem?_append_left] using hc
  · exact Or.inl h7

/-- A minimally encoded string is the serialization of its value. -/
theorem serialize_set_vch_of_minimal {xs : List UInt8} {last : UInt8}
    (hmin : last &&& 0x7f ≠ 0 ∨ ∃ ys c, xs = ys ++ [c] ∧ c &&& 0x80 ≠ 0) :
    serialize (set_vch (xs ++ [last])) = xs ++ [last] := by
  rw [set_vch_append_singleton]
  by_cases h7 : last &&& 0x7f = 0
  · -- `last` is `0x00` or `0x80`, a sign byte after a byte `c` with its top bit set
    obtain ⟨ys, c, rfl, hc⟩ := hmin.resolve_left (not_not.2 h7)
    have hc' : 128 ≤ c.toNat := (and_0x80_ne_zero_iff c).1 hc
    have hmag : ∀ M : Nat, M = leNat (ys ++ [c]) → magnitudeBytes M M = ys ++ [c] := fun M hM => by
      rw [hM]
      exact magnitudeBytes_leNat (by omega) ys _ (Nat.le_refl _)
    have hpos : 0 < leNat (ys ++ [c]) := by
      rw [leNat_append_singleton]
      have := Nat.mul_pos (show 0 < 256 ^ ys.length from Nat.pow_pos (by decide))
        (show 0 < c.toNat by omega)
      omega
    rcases (and_0x7f_eq_zero_iff last).1 h7 with h0 | h128
    · have hl : last = 0 := UInt8.toNat_inj.1 h0
      subst hl
      rw [if_neg (by decide), show (0 : UInt8).toNat = 0 from rfl, Nat.mul_zero, Nat.add_zero]
      have hne : ((leNat (ys ++ [c]) : Nat) : Int) ≠ 0 := by omega
      rw [serialize_of_magnitudeBytes hne (hmag _ (Int.natAbs_natCast _)), if_pos hc',
        if_neg (by omega)]
    · have hl : last = 0x80 := UInt8.toNat_inj.1 h128
      subst hl
      rw [if_pos (by decide), show (0x80 : UInt8).toNat - 128 = 0 from rfl, Nat.mul_zero,
        Nat.add_zero]
      have hne : (-((leNat (ys ++ [c]) : Nat) : Int)) ≠ 0 := by omega
      rw [serialize_of_magnitudeBytes hne (hmag _ (by rw [Int.natAbs_neg, Int.natAbs_natCast])),
        if_pos hc', if_pos (by omega)]
  · -- the magnitude ends in the low seven bits of `last`
    have hb := last.toNat_lt
    have h7' : 0 < last.toNat % 128 := by
      rw [← toNat_and_0x7f]
      exact Nat.pos_of_ne_zero fun h0 => h7 (UInt8.toNat_inj.1 (by rw [h0]; rfl))
    have hl7 : (last &&& 0x7f).toNat = last.toNat % 128 := toNat_and_0x7f last
    have hmag : ∀ M : Nat, M = leNat (xs ++ [last &&& 0x7f]) →
        magnitudeBytes M M = xs ++ [last &&& 0x7f] := fun M hM => by
      rw [hM]
      exact magnitudeBytes_leNat (by omega) xs _ (Nat.le_refl _)
    have hlt : (last &&& 0x7f).toNat < 128 := by omega
    split_ifs with htop
    · have hM : (-((leNat xs + 256 ^ xs.length * (last.toNat - 128) : Nat) : Int)).natAbs =
          leNat (xs ++ [last &&& 0x7f]) := by
        rw [Int.natAbs_neg, Int.natAbs_natCast, leNat_append_singleton, hl7,
          show last.toNat - 128 = last.toNat % 128 by omega]
      have hne : (-((leNat xs + 256 ^ xs.length * (last.toNat - 128) : Nat) : Int)) ≠ 0 := by
        intro h0
        rw [← Int.natAbs_eq_zero, hM, leNat_append_singleton] at h0
        have := Nat.mul_pos (show 0 < 256 ^ xs.length from Nat.pow_pos (by decide)) (hl7 ▸ h7')
        omega
      have hor : (last &&& 0x7f ||| 0x80) = last := by
        apply UInt8.toNat_inj.1
        rw [toNat_or_0x80 hlt, hl7]
        omega
      rw [serialize_of_magnitudeBytes hne (hmag _ hM), if_neg (by omega), if_pos (by omega), hor]
    · have hM : ((leNat xs + 256 ^ xs.length * last.toNat : Nat) : Int).natAbs =
          leNat (xs ++ [last &&& 0x7f]) := by
        rw [Int.natAbs_natCast, leNat_append_singleton, hl7, Nat.mod_eq_of_lt (by omega)]
      have hne : ((leNat xs + 256 ^ xs.length * last.toNat : Nat) : Int) ≠ 0 := by
        intro h0
        rw [← Int.natAbs_eq_zero, hM, leNat_append_singleton] at h0
        have := Nat.mul_pos (show 0 < 256 ^ xs.length from Nat.pow_pos (by decide)) (hl7 ▸ h7')
        omega
      have hlow : (last &&& 0x7f) = last := by
        apply UInt8.toNat_inj.1
        rw [hl7]
        omega
      rw [serialize_of_magnitudeBytes hne (hmag _ hM), if_neg (by omega), if_neg (by omega), hlow]

/-- A string of `k + 1` bytes holds a magnitude below `2 ^ (8 * (k + 1) - 1)`: the top bit of the
last byte is the sign. -/
theorem two_pow_eight_mul_sub_one (k : Nat) : 2 ^ (8 * (k + 1) - 1) = 128 * 256 ^ k := by
  rw [show 8 * (k + 1) - 1 = 7 + 8 * k by omega, Nat.pow_add, Nat.pow_mul]

/-- A value below `2 ^ (8 * k - 1)` serializes to at most `k` bytes. -/
theorem length_serialize_le_of_lt {n : Int} {k : Nat} (hk : 1 ≤ k)
    (h : n.natAbs < 2 ^ (8 * k - 1)) : (serialize n).length ≤ k := by
  by_cases hn : n = 0
  · subst hn
    exact Nat.zero_le k
  obtain ⟨m, last, hpos, hval, hser⟩ := serialize_cases hn
  obtain ⟨k, rfl⟩ : ∃ j, k = j + 1 := ⟨k - 1, by omega⟩
  rw [two_pow_eight_mul_sub_one] at h
  have hlen : (serialize n).length = if 128 ≤ last.toNat then m.length + 2 else m.length + 1 := by
    rw [hser]
    split_ifs <;> simp
  have hb := last.toNat_lt
  rw [hlen]
  split_ifs with htop
  · -- a sign byte follows: the magnitude's bytes are at least `128 * 256 ^ m.length`
    have hle := Nat.mul_le_mul_left (256 ^ m.length) htop
    have hlt : 256 ^ m.length < 256 ^ k := by
      rw [Nat.mul_comm (256 ^ m.length)] at hle
      exact Nat.lt_of_mul_lt_mul_left (a := 128) (by omega)
    have := (Nat.pow_lt_pow_iff_right (by decide : 1 < 256)).1 hlt
    omega
  · have hle := Nat.mul_le_mul_left (256 ^ m.length) hpos
    have hlt : 256 ^ m.length < 256 ^ (k + 1) := by
      rw [Nat.pow_succ]
      omega
    have := (Nat.pow_lt_pow_iff_right (by decide : 1 < 256)).1 hlt
    omega

/-- A value of the `int32_t` range other than `-2^31` takes at most four bytes. -/
theorem length_serialize_le {n : Int} (h : n.natAbs < 2 ^ 31) : (serialize n).length ≤ 4 :=
  length_serialize_le_of_lt (k := 4) (by decide) h

/-- The value of a nonempty string is below `2 ^ (8 * length - 1)` in magnitude. -/
theorem natAbs_set_vch_lt (xs : List UInt8) (last : UInt8) :
    (set_vch (xs ++ [last])).natAbs < 2 ^ (8 * (xs ++ [last]).length - 1) := by
  rw [List.length_append, List.length_singleton, two_pow_eight_mul_sub_one, set_vch_append_singleton]
  have hx := leNat_lt xs
  have hb := last.toNat_lt
  split_ifs with htop
  · rw [Int.natAbs_neg, Int.natAbs_natCast]
    have := Nat.mul_le_mul_left (256 ^ xs.length) (show last.toNat - 128 ≤ 127 by omega)
    omega
  · rw [Int.natAbs_natCast]
    have := Nat.mul_le_mul_left (256 ^ xs.length) (show last.toNat ≤ 127 by omega)
    omega

/-- Without the minimal-encoding rule, a string within the size limit is read as its value. -/
theorem FromVch_false_of_le {vch : List UInt8} {k : Nat} (hk : vch.length ≤ k) :
    FromVch vch false k = .ok ⟨set_vch vch⟩ := by
  unfold FromVch
  rw [if_neg (by omega)]
  split <;> simp

theorem script_num_encoding_round_trip (k : Nat) (hk : k = 4 ∨ k = 5) :
    (∀ v : Int, v.natAbs < 2 ^ (8 * k - 1) →
      (serialize v).length ≤ k ∧ FromVch (serialize v) true k = .ok ⟨v⟩) ∧
    (∀ (b : List UInt8) (n : CScriptNum), b.length ≤ k → FromVch b true k = .ok n →
      serialize n.m_value = b) ∧
    (∀ (b : List UInt8) (n : CScriptNum), b.length ≤ k → FromVch b false k = .ok n →
      n.m_value.natAbs < 2 ^ (8 * k - 1) ∧ (serialize n.m_value).length ≤ b.length ∧
        FromVch (serialize n.m_value) true k = .ok n ∧
        ∀ c : List UInt8, FromVch c true k = .ok n → c = serialize n.m_value) := by
  have hk1 : 1 ≤ k := by omega
  -- what the minimal reader accepts is a serialization
  have hexact : ∀ (b : List UInt8) (n : CScriptNum), FromVch b true k = .ok n →
      serialize n.m_value = b := by
    intro b n h
    rcases List.eq_nil_or_concat b with rfl | ⟨xs, last, hb⟩
    · cases h
      rfl
    · rw [List.concat_eq_append] at hb
      subst hb
      obtain ⟨-, rfl, hmin⟩ := FromVch_true_append_singleton h
      exact serialize_set_vch_of_minimal hmin
  refine ⟨fun v hv => ?_, fun b n _ h => hexact b n h, fun b n hb h => ?_⟩
  · have hlen := length_serialize_le_of_lt hk1 hv
    exact ⟨hlen, FromVch_serialize v true hlen⟩
  · rw [FromVch_false_of_le hb] at h
    cases h
    -- the value is below the bound of its own length, and so of `k`
    have hbound : (set_vch b).natAbs < 2 ^ (8 * b.length - 1) ∧
        (serialize (set_vch b)).length ≤ b.length := by
      rcases List.eq_nil_or_concat b with rfl | ⟨xs, last, hxs⟩
      · exact ⟨by decide, Nat.le_refl 0⟩
      · rw [List.concat_eq_append] at hxs
        subst hxs
        have hlt := natAbs_set_vch_lt xs last
        exact ⟨hlt, length_serialize_le_of_lt (by simp) hlt⟩
    refine ⟨Nat.lt_of_lt_of_le hbound.1 (Nat.pow_le_pow_right (by decide) (by omega)), hbound.2,
      FromVch_serialize _ true (Nat.le_trans hbound.2 hb), fun c hc => (hexact c _ hc).symm⟩

theorem script_num_encoding_round_trip_four :
    (4 = 4 ∨ 4 = 5) ∧
    ((∀ v : Int, v.natAbs < 2 ^ (8 * 4 - 1) →
      (serialize v).length ≤ 4 ∧ FromVch (serialize v) true 4 = .ok ⟨v⟩) ∧
    (∀ (b : List UInt8) (n : CScriptNum), b.length ≤ 4 → FromVch b true 4 = .ok n →
      serialize n.m_value = b) ∧
    (∀ (b : List UInt8) (n : CScriptNum), b.length ≤ 4 → FromVch b false 4 = .ok n →
      n.m_value.natAbs < 2 ^ (8 * 4 - 1) ∧ (serialize n.m_value).length ≤ b.length ∧
        FromVch (serialize n.m_value) true 4 = .ok n ∧
        ∀ c : List UInt8, FromVch c true 4 = .ok n → c = serialize n.m_value)) :=
  ⟨Or.inl rfl, script_num_encoding_round_trip 4 (Or.inl rfl)⟩

/-- The interpreter reads back every number it writes: a value of the `int32_t` range other
than `-2^31`, serialized by `getvch`, is decoded to itself by `CScriptNum(vch,
fRequireMinimal)`, whether or not minimal encoding is required. -/
theorem FromVch_getvch (n : CScriptNum) (fRequireMinimal : Bool) (h : n.m_value.natAbs < 2 ^ 31) :
    FromVch n.getvch fRequireMinimal nDefaultMaxNumSize = .ok n := by
  have hlen : n.getvch.length ≤ nDefaultMaxNumSize := length_serialize_le h
  exact FromVch_serialize n.m_value fRequireMinimal hlen

theorem FromVch_getvch_int32_max :
    (⟨2 ^ 31 - 1⟩ : CScriptNum).m_value.natAbs < 2 ^ 31 ∧
      FromVch (⟨2 ^ 31 - 1⟩ : CScriptNum).getvch true nDefaultMaxNumSize = .ok ⟨2 ^ 31 - 1⟩ :=
  ⟨by decide, FromVch_getvch _ true (by decide)⟩

end CScriptNum

end Ravencoin
