import Ravencoin.Lib.ByteStream

/-!
# Network serialization (`serialize.h`)

The pieces of the network serialization that the asset layer, the coin database and the block
index read and write: compact sizes, variable-length integers, `std::string`, and the
little-endian fixed-width integers. Reading is a `ByteStream.Reader` over the unread bytes of a
`CDataStream`; a C++ `std::ios_base::failure` is a failed read. A C++ `std::string` is its byte
string, a `List UInt8`.

Both integer encodings are canonical. A compact size is one byte below `253`, or a marker and a
2-, 4- or 8-byte value, and the reader refuses a longer form than needed. A variable-length
integer is written in base 128, most significant digit first, each digit but the last one less
than its place value and carrying the continuation bit, so that every number has exactly one
encoding; the reader refuses a number before it would overflow its integer type.

## Main definitions

* `Ravencoin.ReadCompactSize`, `Ravencoin.WriteCompactSize`, `Ravencoin.GetSizeOfCompactSize`.
* `Ravencoin.WriteVarInt`, `Ravencoin.GetSizeOfVarInt`, `Ravencoin.IntType.ReadVarInt` — the
  reader for an integer type `Ravencoin.IntType`, and `Ravencoin.ReadVarIntLoopIn`, its loop
  with every value assigned to `n` checked against the type's range.
* `Ravencoin.ReadString`, `Ravencoin.WriteString` — `Unserialize`/`Serialize` of `std::string`.
* `Ravencoin.ReadInt64`, `Ravencoin.ReadInt8` — `int64_t` and `int8_t` fields, read as
  two's-complement values.

## Main results

* `Ravencoin.ReadCompactSize_WriteCompactSize`, `Ravencoin.ReadCompactSize_eq_some` — compact
  sizes round trip, and the reader accepts only canonical encodings.
* `Ravencoin.ReadVarIntLoop_WriteVarInt`, `Ravencoin.ReadVarIntLoop_eq_some` — the same for
  variable-length integers.
* `Ravencoin.ReadVarIntLoopIn_eq` — the reader never overflows its integer type.
* `Ravencoin.WriteVarInt_fits_tmp` — the writer's buffer holds every value of its type.
* `Ravencoin.integer_encodings_round_trip` — all of it together.

## Implementation notes

Values are natural numbers. The writers take the value of a C++ integer, which here is never
negative; `IntType` records only what the reader needs of a type, its width and sign, and
leaves out `bool`.
-/

set_option autoImplicit false

namespace Ravencoin

open ByteStream

/-- The bytes of a C++ string literal (every character here is ASCII). -/
def str (s : String) : List UInt8 := s.toList.map fun c => c.toNat.toUInt8

/-- `MAX_SIZE`: the largest compact size a reader accepts. -/
def MAX_SIZE : Nat := 0x02000000

/-- The `n` low bytes of `x`, least significant first. -/
def leBytes : Nat → Nat → List UInt8
  | 0, _ => []
  | n + 1, x => (x % 256).toUInt8 :: leBytes n (x / 256)

/-- `GetSizeOfCompactSize`. -/
def GetSizeOfCompactSize (nSize : Nat) : Nat :=
  if nSize < 253 then 1
  else if nSize ≤ 0xFFFF then 3
  else if nSize ≤ 0xFFFFFFFF then 5
  else 9

/-- `WriteCompactSize`. -/
def WriteCompactSize (nSize : Nat) : List UInt8 :=
  if nSize < 253 then leBytes 1 nSize
  else if nSize ≤ 0xFFFF then 253 :: leBytes 2 nSize
  else if nSize ≤ 0xFFFFFFFF then 254 :: leBytes 4 nSize
  else 255 :: leBytes 8 nSize

/-- `ReadCompactSize`: a one-byte size below 253, or a marker byte and a 2-, 4- or 8-byte
size; the longer forms must not encode a size the shorter form could hold ("non-canonical"),
and no size may exceed `MAX_SIZE`. -/
def ReadCompactSize : Reader Nat := do
  let chSize ← readByte
  let nSizeRet ←
    if chSize.toNat < 253 then pure chSize.toNat
    else if chSize.toNat = 253 then do
      let v ← readLE 2
      if v < 253 then failure else pure v
    else if chSize.toNat = 254 then do
      let v ← readLE 4
      if v < 0x10000 then failure else pure v
    else do
      let v ← readLE 8
      if v < 0x100000000 then failure else pure v
  if nSizeRet > MAX_SIZE then failure else pure nSizeRet

/-- `Unserialize(Stream&, std::string&)`: a compact size, then that many bytes. -/
def ReadString : Reader (List UInt8) := do
  let nSize ← ReadCompactSize
  readBytes nSize

/-- `Serialize(Stream&, const std::string&)`. -/
def WriteString (s : List UInt8) : List UInt8 :=
  WriteCompactSize s.length ++ s

/-- `ser_readdata64` into an `int64_t`. -/
def ReadInt64 : Reader Int := do
  let x ← readLE 8
  return toSigned 64 x

/-- `ser_readdata8` into an `int8_t` (or a `char`). -/
def ReadInt8 : Reader Int := do
  let x ← readLE 1
  return toSigned 8 x

/-- `ser_writedata64` of an `int64_t`. -/
def WriteInt64 (x : Int) : List UInt8 :=
  leBytes 8 (x % 2 ^ 64).toNat

/-- `ser_writedata8` of an `int8_t`. -/
def WriteInt8 (x : Int) : List UInt8 :=
  leBytes 1 (x % 2 ^ 8).toNat

theorem length_leBytes (n x : Nat) : (leBytes n x).length = n := by
  induction n generalizing x with
  | zero => rfl
  | succ n ih => simp [leBytes, ih]

/-- Reading back `n` written bytes gives the value modulo `256 ^ n`. -/
theorem leNat_leBytes (n x : Nat) : leNat (leBytes n x) = x % 256 ^ n := by
  induction n generalizing x with
  | zero => simp [leBytes, leNat, Nat.mod_one]
  | succ n ih =>
    rw [leBytes, leNat, ih, Nat.pow_succ', Nat.mod_mul]
    simp

/-- A byte string is the `leBytes` of its own value. -/
theorem leBytes_leNat (bs : List UInt8) : leBytes bs.length (leNat bs) = bs := by
  induction bs with
  | nil => rfl
  | cons b bs ih =>
    have hb := b.toNat_lt
    have hlow : (b.toNat + 256 * leNat bs) % 256 = b.toNat := by omega
    have hhigh : (b.toNat + 256 * leNat bs) / 256 = leNat bs := by omega
    rw [List.length_cons, leBytes, leNat, hlow, hhigh, ih, Nat.toUInt8_eq, UInt8.ofNat_toNat]

/-! ### Compact sizes -/

/-- Reading back `k` written bytes of a value below `256 ^ k`. -/
theorem readLE_leBytes {k n : Nat} (hn : n < 256 ^ k) (rest : List UInt8) :
    readLE k (leBytes k n ++ rest) = some (n, rest) := by
  have h := readLE_append (leBytes k n) rest
  rwa [length_leBytes, leNat_leBytes, Nat.mod_eq_of_lt hn] at h

/-- A `k`-byte read is the `leBytes` of the value it returns. -/
theorem readLE_eq_leBytes {k x : Nat} {s s' : List UInt8} (h : readLE k s = some (x, s')) :
    x < 256 ^ k ∧ s = leBytes k x ++ s' := by
  obtain ⟨hk, rfl, rfl⟩ := readLE_eq_some h
  have hlen : (s.take k).length = k := List.length_take_of_le hk
  have hbytes := leBytes_leNat (s.take k)
  have hlt := leNat_lt (s.take k)
  rw [hlen] at hbytes hlt
  refine ⟨hlt, ?_⟩
  rw [hbytes, List.take_append_drop]

/-- The last check of `ReadCompactSize`: a size above `MAX_SIZE` is refused. -/
theorem sizeCheck_eq_some {v n : Nat} {s s' : List UInt8}
    (h : (if v > MAX_SIZE then failure else pure v : Reader Nat) s = some (n, s')) :
    v = n ∧ s = s' ∧ v ≤ MAX_SIZE := by
  by_cases hbig : v > MAX_SIZE
  · simp [hbig] at h
  · simp only [hbig, if_false, pure_apply, Option.some.injEq, Prod.mk.injEq] at h
    exact ⟨h.1, h.2, Nat.not_lt.1 hbig⟩

/-- A marked form of `ReadCompactSize`, a `k`-byte value refused below `lo` and then passed
on to `K`, reads the `leBytes` of a value at least `lo`. -/
theorem readMarked_eq_some {k lo n : Nat} {K : Nat → Reader Nat} {s s' : List UInt8}
    (h : (readLE k >>= fun v => if v < lo then failure >>= K else pure v >>= K) s =
      some (n, s')) :
    ∃ v s₂, lo ≤ v ∧ v < 256 ^ k ∧ s = leBytes k v ++ s₂ ∧ K v s₂ = some (n, s') := by
  obtain ⟨v, s₂, hv, hK⟩ := bind_eq_some.mp h
  obtain ⟨hvlt, rfl⟩ := readLE_eq_leBytes hv
  by_cases hlo : v < lo
  · simp [hlo] at hK
  rw [if_neg hlo, pure_bind] at hK
  exact ⟨v, s₂, Nat.not_lt.1 hlo, hvlt, rfl, hK⟩

/-- `ReadCompactSize` reads back every size up to `MAX_SIZE` that `WriteCompactSize` wrote. -/
theorem ReadCompactSize_WriteCompactSize {n : Nat} (hn : n ≤ MAX_SIZE) (rest : List UInt8) :
    ReadCompactSize (WriteCompactSize n ++ rest) = some (n, rest) := by
  have hmax : ¬ n > MAX_SIZE := Nat.not_lt.2 hn
  unfold ReadCompactSize WriteCompactSize
  by_cases h1 : n < 253
  · -- one byte holding the size
    have hbyte : ((n % 256).toUInt8).toNat = n := by
      rw [Nat.toUInt8_eq, UInt8.toNat_ofNat']
      omega
    simp [leBytes, h1, hbyte, hmax, bind_apply]
  · by_cases h2 : n ≤ 0xFFFF
    · simp [h1, h2, hmax, bind_apply, readLE_leBytes (by omega : n < 256 ^ 2)]
    · have h3 : n ≤ 0xFFFFFFFF := by unfold MAX_SIZE at hn; omega
      have h4 : ¬ n < 0x10000 := by omega
      simp [h1, h2, h3, h4, hmax, bind_apply, readLE_leBytes (by omega : n < 256 ^ 4)]

theorem length_WriteCompactSize (n : Nat) :
    (WriteCompactSize n).length = GetSizeOfCompactSize n := by
  unfold WriteCompactSize GetSizeOfCompactSize
  split_ifs <;> simp [length_leBytes]

/-- `ReadCompactSize` accepts only canonical encodings: the bytes it reads are those
`WriteCompactSize` writes for the size it returns. -/
theorem ReadCompactSize_eq_some {s s' : List UInt8} {n : Nat}
    (h : ReadCompactSize s = some (n, s')) : n ≤ MAX_SIZE ∧ s = WriteCompactSize n ++ s' := by
  unfold ReadCompactSize at h
  obtain ⟨c, s₁, hc, hbody⟩ := bind_eq_some.mp h
  clear h
  have hs : s = c :: s₁ := by
    cases s with
    | nil => simp at hc
    | cons b rest =>
      simp only [readByte_cons, Option.some.injEq, Prod.mk.injEq] at hc
      rw [hc.1, hc.2]
  subst hs
  have hc256 := c.toNat_lt
  -- one case for each marker byte; a marked value below its bound fails
  by_cases h1 : c.toNat < 253
  · rw [if_pos h1, pure_bind] at hbody
    obtain ⟨rfl, rfl, hle⟩ := sizeCheck_eq_some hbody
    exact ⟨hle, by simp [WriteCompactSize, h1, leBytes]⟩
  rw [if_neg h1] at hbody
  by_cases h2 : c.toNat = 253
  · rw [if_pos h2] at hbody
    obtain ⟨v, s₂, hlo, hhi, rfl, hK⟩ := readMarked_eq_some hbody
    obtain ⟨rfl, rfl, hle⟩ := sizeCheck_eq_some hK
    have hc : c = 253 := UInt8.toNat_inj.mp h2
    have hn1 : ¬ v < 253 := by omega
    have hn2 : v ≤ 0xFFFF := by omega
    exact ⟨hle, by simp [WriteCompactSize, hn1, hn2, hc]⟩
  rw [if_neg h2] at hbody
  by_cases h3 : c.toNat = 254
  · rw [if_pos h3] at hbody
    obtain ⟨v, s₂, hlo, hhi, rfl, hK⟩ := readMarked_eq_some hbody
    obtain ⟨rfl, rfl, hle⟩ := sizeCheck_eq_some hK
    have hc : c = 254 := UInt8.toNat_inj.mp h3
    have hn1 : ¬ v < 253 := by omega
    have hn2 : ¬ v ≤ 0xFFFF := by omega
    have hn3 : v ≤ 0xFFFFFFFF := by omega
    exact ⟨hle, by simp [WriteCompactSize, hn1, hn2, hn3, hc]⟩
  rw [if_neg h3] at hbody
  obtain ⟨v, s₂, hlo, hhi, rfl, hK⟩ := readMarked_eq_some hbody
  obtain ⟨rfl, rfl, hle⟩ := sizeCheck_eq_some hK
  have hc : c = 255 := UInt8.toNat_inj.mp (by simp; omega)
  have hn1 : ¬ v < 253 := by omega
  have hn2 : ¬ v ≤ 0xFFFF := by omega
  have hn3 : ¬ v ≤ 0xFFFFFFFF := by omega
  exact ⟨hle, by simp [WriteCompactSize, hn1, hn2, hn3, hc]⟩

/-! ### Variable-length integers -/

/-- `GetSizeOfVarInt`: one byte for each pass of the writer's loop. -/
def GetSizeOfVarInt (n : Nat) : Nat :=
  if n ≤ 0x7F then 1 else GetSizeOfVarInt (n / 128 - 1) + 1
termination_by n
decreasing_by omega

/-- The bytes `WriteVarInt` writes for `n`, most significant first, the last one or'ed with
`flag`: above `127`, the bytes of `n / 128 - 1` with the continuation bit `0x80`, then the byte
`n % 128`. `fuel` bounds the number of bytes. -/
def VarIntBytes : Nat → Nat → UInt8 → List UInt8
  | 0, _, _ => []
  | fuel + 1, n, flag =>
    (if n ≤ 0x7F then [] else VarIntBytes fuel (n / 128 - 1) 0x80) ++ [(n % 128).toUInt8 ||| flag]

/-- `WriteVarInt`: `n` in base 128, most significant digit first; every digit but the last
carries the continuation bit and is one less than its place value, so that every number has
one encoding. -/
def WriteVarInt (n : Nat) : List UInt8 := VarIntBytes (n + 1) n 0

/-- The loop of `ReadVarInt<I>` for a type `I` whose largest value is `max`, with `n` read so
far: the value must not overflow at the shift (`n > max >> 7`) nor reach `max` at the
increment. -/
def ReadVarIntLoop (max : Nat) (n : Nat) : List UInt8 → Option (Nat × List UInt8)
  | [] => none
  | chData :: rest =>
    if n > max / 128 then none
    else
      -- `(n << 7) | (chData & 0x7F)`: the low seven bits of `n << 7` are clear
      let n := n * 128 + (chData &&& 0x7F).toNat
      if chData &&& 0x80 ≠ 0 then
        if n = max then none else ReadVarIntLoop max (n + 1) rest
      else some (n, rest)

/-- `ReadVarInt<I>` for an unsigned `I` of `w` bits. -/
def ReadVarInt (w : Nat) : Reader Nat := ReadVarIntLoop (2 ^ w - 1) 0

/-- A C++ integer type other than `bool`: signed or not, and at least `CHAR_BIT` bits wide. -/
structure IntType where
  signed : Bool
  width : Nat
  width_ge : 8 ≤ width

/-- `std::numeric_limits<I>::max()`. -/
def IntType.max (I : IntType) : Nat :=
  if I.signed then 2 ^ (I.width - 1) - 1 else 2 ^ I.width - 1

/-- `ReadVarInt<I>`, for every integer type `I`. -/
def IntType.ReadVarInt (I : IntType) : Reader Nat := ReadVarIntLoop I.max 0

/-- The loop of `ReadVarInt<I>` with `n` held in `I`: each value assigned to `n` is checked
against `max`, and one beyond it, an overflow of `I`, is the error `()`. A thrown
`std::ios_base::failure` is `.ok none`. -/
def ReadVarIntLoopIn (max : Nat) (n : Nat) : List UInt8 → Except Unit (Option (Nat × List UInt8))
  | [] => .ok none
  | chData :: rest =>
    if n > max / 128 then .ok none
    -- `n << 7` and the or of the low bits
    else if n * 128 + (chData &&& 0x7F).toNat > max then .error ()
    else
      let n := n * 128 + (chData &&& 0x7F).toNat
      if chData &&& 0x80 ≠ 0 then
        if n = max then .ok none
        -- `n++`
        else if n + 1 > max then .error ()
        else ReadVarIntLoopIn max (n + 1) rest
      else .ok (some (n, rest))

/-- A byte with the continuation bit: the reader adds its digit and one, and goes on. -/
theorem ReadVarIntLoop_continue {max n k : Nat} (rest : List UInt8) (hn : n ≤ max / 128)
    (hk : k < 128) (hmax : n * 128 + k ≠ max) :
    ReadVarIntLoop max n ((k.toUInt8 ||| 0x80) :: rest) = ReadVarIntLoop max (n * 128 + k + 1) rest := by
  have hbyte : k.toUInt8.toNat = k := by
    rw [Nat.toUInt8_eq, UInt8.toNat_ofNat']
    omega
  have hlow : ((k.toUInt8 ||| 0x80) &&& 0x7F).toNat = k := by
    rw [toNat_and_0x7f, toNat_or_0x80 (by omega), hbyte]
    omega
  have htop : (k.toUInt8 ||| 0x80) &&& 0x80 ≠ 0 := by
    rw [and_0x80_ne_zero_iff, toNat_or_0x80 (by omega)]
    omega
  simp [ReadVarIntLoop, hlow, htop, hmax, Nat.not_lt.2 hn]

/-- A byte without the continuation bit ends the number. -/
theorem ReadVarIntLoop_last {max n k : Nat} (rest : List UInt8) (hn : n ≤ max / 128)
    (hk : k < 128) :
    ReadVarIntLoop max n ((k.toUInt8 ||| 0) :: rest) = some (n * 128 + k, rest) := by
  have hbyte : k.toUInt8.toNat = k := by
    rw [Nat.toUInt8_eq, UInt8.toNat_ofNat']
    omega
  have hlow : (k.toUInt8 &&& 0x7F).toNat = k := by
    rw [toNat_and_0x7f, hbyte]
    omega
  have htop : ¬(k.toUInt8 &&& 0x80 ≠ 0) := by
    rw [and_0x80_ne_zero_iff, hbyte]
    omega
  simp only [UInt8.or_zero] at htop ⊢
  simp [ReadVarIntLoop, hlow, htop, Nat.not_lt.2 hn]

/-- Reading the continuation bytes written for `m` leaves `m + 1` read. The induction is on
the fuel, that is on the bytes from the most significant one. -/
theorem ReadVarIntLoop_VarIntBytes {max : Nat} :
    ∀ (fuel m : Nat) (rest : List UInt8), m < fuel → m < max →
      ReadVarIntLoop max 0 (VarIntBytes fuel m 0x80 ++ rest) = ReadVarIntLoop max (m + 1) rest
  | 0, _, _, hfuel, _ => absurd hfuel (Nat.not_lt_zero _)
  | fuel + 1, m, rest, hfuel, hmax => by
    have hdigit : m % 128 < 128 := Nat.mod_lt _ (by decide)
    by_cases hm : m ≤ 0x7F
    · -- one byte: the digit is `m` itself
      have hmod : m % 128 = m := Nat.mod_eq_of_lt (by omega)
      simp only [VarIntBytes, hm, if_true, List.nil_append, List.cons_append]
      rw [ReadVarIntLoop_continue rest (Nat.zero_le _) hdigit (by omega)]
      congr 2
      omega
    · -- the bytes of `m / 128 - 1` first, then the digit `m % 128`
      have hhigh : m / 128 - 1 < fuel := by omega
      have hq : m / 128 - 1 + 1 = m / 128 := by omega
      have hle : m / 128 ≤ max / 128 := Nat.div_le_div_right (by omega)
      have hval : m / 128 * 128 + m % 128 = m := by omega
      simp only [VarIntBytes, hm, if_false, List.append_assoc, List.cons_append, List.nil_append]
      rw [ReadVarIntLoop_VarIntBytes fuel (m / 128 - 1) _ hhigh (by omega), hq,
        ReadVarIntLoop_continue rest hle hdigit (by omega), hval]

/-- `ReadVarInt` reads back what `WriteVarInt` wrote, for every value of the type. -/
theorem ReadVarIntLoop_WriteVarInt {max n : Nat} (rest : List UInt8) (hn : n ≤ max) :
    ReadVarIntLoop max 0 (WriteVarInt n ++ rest) = some (n, rest) := by
  have hdigit : n % 128 < 128 := Nat.mod_lt _ (by decide)
  by_cases hsmall : n ≤ 0x7F
  · have hmod : n % 128 = n := Nat.mod_eq_of_lt (by omega)
    simp only [WriteVarInt, VarIntBytes, hsmall, if_true, List.nil_append, List.cons_append]
    rw [ReadVarIntLoop_last rest (Nat.zero_le _) hdigit]
    congr 2
    omega
  · have hhigh : n / 128 - 1 < n := by omega
    have hq : n / 128 - 1 + 1 = n / 128 := by omega
    have hle : n / 128 ≤ max / 128 := Nat.div_le_div_right hn
    simp only [WriteVarInt, VarIntBytes, hsmall, if_false, List.append_assoc, List.cons_append,
      List.nil_append]
    rw [ReadVarIntLoop_VarIntBytes n (n / 128 - 1) _ hhigh (by omega), hq,
      ReadVarIntLoop_last rest hle hdigit]
    congr 2
    omega

theorem ReadVarInt_WriteVarInt {w n : Nat} (rest : List UInt8) (hn : n < 2 ^ w) :
    ReadVarInt w (WriteVarInt n ++ rest) = some (n, rest) :=
  ReadVarIntLoop_WriteVarInt rest (by omega)

/-- A value below `128` is written as the one byte of its value. -/
theorem WriteVarInt_of_lt {b : UInt8} (hb : b.toNat < 128) : WriteVarInt b.toNat = [b] := by
  have hle : b.toNat ≤ 0x7F := by omega
  simp [WriteVarInt, VarIntBytes, hle, Nat.mod_eq_of_lt hb]

/-! ### Lengths and canonical forms of variable-length integers -/

/-- The writer's bytes do not depend on the fuel once it exceeds the value. -/
theorem VarIntBytes_fuel (flag : UInt8) {F F' m : Nat} (hF : m < F) (hF' : m < F') :
    VarIntBytes F m flag = VarIntBytes F' m flag := by
  induction F generalizing F' m flag with
  | zero => omega
  | succ F ih =>
    obtain ⟨G, rfl⟩ : ∃ G, F' = G + 1 := ⟨F' - 1, by omega⟩
    by_cases hm : m ≤ 0x7F
    · simp [VarIntBytes, hm]
    · have hG : m / 128 - 1 < G := by omega
      simp only [VarIntBytes, hm, if_false]
      rw [ih 0x80 (by omega) hG]

theorem length_VarIntBytes (flag : UInt8) {F m : Nat} (hF : m < F) :
    (VarIntBytes F m flag).length = GetSizeOfVarInt m := by
  induction F generalizing m flag with
  | zero => omega
  | succ F ih =>
    rw [GetSizeOfVarInt.eq_def]
    by_cases hm : m ≤ 0x7F
    · simp [VarIntBytes, hm]
    · simp only [VarIntBytes, hm, if_false, List.length_append, List.length_singleton]
      rw [ih 0x80 (by omega)]

/-- `WriteVarInt` writes `GetSizeOfVarInt` bytes. -/
theorem length_WriteVarInt (n : Nat) : (WriteVarInt n).length = GetSizeOfVarInt n :=
  length_VarIntBytes 0 (Nat.lt_succ_self n)

/-- The continuation bytes after which the loop of `ReadVarInt` holds `n`: none for `0`, and
the writer's bytes of `m` with the continuation bit for `m + 1`. -/
def VarIntPrefix : Nat → List UInt8
  | 0 => []
  | m + 1 => VarIntBytes (m + 1) m 0x80

/-- The writer's bytes of `n * 128 + d` are the prefix that leaves `n` read, then the digit `d`. -/
theorem VarIntBytes_digit (n : Nat) {d : Nat} (hd : d < 128) (flag : UInt8) :
    VarIntBytes (n * 128 + d + 1) (n * 128 + d) flag = VarIntPrefix n ++ [d.toUInt8 ||| flag] := by
  have hmod : (n * 128 + d) % 128 = d := by omega
  cases n with
  | zero =>
    have hle : d ≤ 0x7F := by omega
    simp [VarIntBytes, hle, VarIntPrefix, Nat.mod_eq_of_lt hd]
  | succ m =>
    have hgt : ¬ (m + 1) * 128 + d ≤ 0x7F := by omega
    have hq : ((m + 1) * 128 + d) / 128 - 1 = m := by omega
    rw [VarIntBytes.eq_2, if_neg hgt, hq, hmod, VarIntPrefix,
      VarIntBytes_fuel 0x80 (by omega : m < (m + 1) * 128 + d) (Nat.lt_succ_self m)]

/-- A byte is its low seven bits with its top bit put back. -/
theorem low_or_top (c : UInt8) :
    (c &&& 0x7F).toNat.toUInt8 ||| (if c &&& 0x80 ≠ 0 then 0x80 else 0) = c := by
  have hlow : (c &&& 0x7F).toNat.toUInt8.toNat = c.toNat % 128 := by
    rw [Nat.toUInt8_eq, UInt8.toNat_ofNat', toNat_and_0x7f]
    omega
  have hc := c.toNat_lt
  apply UInt8.toNat_inj.mp
  by_cases htop : c &&& 0x80 ≠ 0
  · rw [if_pos htop, toNat_or_0x80 (by omega), hlow]
    rw [and_0x80_ne_zero_iff] at htop
    omega
  · rw [if_neg htop, UInt8.or_zero, hlow]
    rw [and_0x80_ne_zero_iff] at htop
    omega

/-- Whatever the loop of `ReadVarInt` accepts after the prefix of `n` are the writer's bytes of
the value it returns: every accepted byte string is the one encoding of its value. The induction
is on the unread bytes. -/
theorem ReadVarIntLoop_eq_some {max : Nat} (s : List UInt8) :
    ∀ (n v : Nat) (s' : List UInt8), ReadVarIntLoop max n s = some (v, s') →
      VarIntPrefix n ++ s = WriteVarInt v ++ s' := by
  induction s with
  | nil => intro n v s' h; simp [ReadVarIntLoop] at h
  | cons c rest ih =>
    intro n v s' h
    have hd : (c &&& 0x7F).toNat < 128 := by rw [toNat_and_0x7f]; omega
    have hc := low_or_top c
    by_cases hn : n > max / 128
    · simp [ReadVarIntLoop, hn] at h
    by_cases htop : c &&& 0x80 ≠ 0
    · -- a continuation byte: the prefix of the next value ends in it
      simp only [ReadVarIntLoop, hn, if_false, htop, ne_eq] at h
      rw [if_pos htop] at hc
      by_cases hmax : n * 128 + (c &&& 0x7F).toNat = max
      · rw [if_pos hmax] at h
        cases h
      rw [if_neg hmax] at h
      have hnext := ih _ v s' h
      simp only [VarIntPrefix] at hnext
      rw [VarIntBytes_digit n hd, hc, List.append_assoc, List.singleton_append] at hnext
      exact hnext
    · -- the last byte: the value read is the one written
      simp only [ReadVarIntLoop, hn, if_false, htop, Option.some.injEq, Prod.mk.injEq] at h
      rw [if_neg htop] at hc
      obtain ⟨rfl, rfl⟩ := h
      rw [WriteVarInt, VarIntBytes_digit n hd, hc, List.append_assoc, List.singleton_append]

/-- `ReadVarInt` accepts only the encoding `WriteVarInt` writes for the value it returns. -/
theorem ReadVarIntLoop_zero_eq_some {max v : Nat} {s s' : List UInt8}
    (h : ReadVarIntLoop max 0 s = some (v, s')) : s = WriteVarInt v ++ s' :=
  ReadVarIntLoop_eq_some s 0 v s' h


/-! ### No overflow of the integer type -/

/-- The largest value of an integer type ends in seven one bits. -/
theorem IntType.max_mod (I : IntType) : I.max % 128 = 127 := by
  have hpow : ∀ k, 7 ≤ k → (2 ^ k - 1) % 128 = 127 := by
    intro k hk
    obtain ⟨j, rfl⟩ : ∃ j, k = j + 7 := ⟨k - 7, by omega⟩
    have hj : 0 < 2 ^ j := Nat.two_pow_pos j
    rw [Nat.pow_add, show (2 : Nat) ^ 7 = 128 from rfl]
    omega
  have hw := I.width_ge
  unfold IntType.max
  split
  · exact hpow _ (by omega)
  · exact hpow _ (by omega)

/-- When `max` ends in seven one bits, the loop of `ReadVarInt` held in the integer type never
overflows it: the check `n > max >> 7` keeps the shift in range, and the check `n == max` the
increment. The induction is on the unread bytes. -/
theorem ReadVarIntLoopIn_eq {max : Nat} (hmax : max % 128 = 127) (s : List UInt8) :
    ∀ n, ReadVarIntLoopIn max n s = .ok (ReadVarIntLoop max n s) := by
  induction s with
  | nil => intro n; rfl
  | cons c rest ih =>
    intro n
    have hd : (c &&& 0x7F).toNat < 128 := by rw [toNat_and_0x7f]; omega
    by_cases hn : n > max / 128
    · simp [ReadVarIntLoopIn, ReadVarIntLoop, hn]
    have hfit : ¬ n * 128 + (c &&& 0x7F).toNat > max := by omega
    by_cases htop : c &&& 0x80 ≠ 0
    · by_cases hlast : n * 128 + (c &&& 0x7F).toNat = max
      · simp only [ReadVarIntLoopIn, ReadVarIntLoop, hn, htop, hlast, gt_iff_lt, lt_irrefl,
          if_false, ne_eq, not_false_eq_true, if_true]
      have hinc : ¬ n * 128 + (c &&& 0x7F).toNat + 1 > max := by omega
      simp only [ReadVarIntLoopIn, ReadVarIntLoop, hn, hfit, htop, hlast, hinc, if_false, ne_eq,
        not_false_eq_true, if_true]
      exact ih _
    · simp only [ReadVarIntLoopIn, ReadVarIntLoop, hn, hfit, htop, if_false]


/-! ### The writer's buffer -/

theorem one_le_GetSizeOfVarInt (n : Nat) : 1 ≤ GetSizeOfVarInt n := by
  rw [GetSizeOfVarInt.eq_def]
  split <;> omega

/-- A value written in `k` bytes, `k ≥ 2`, is at least `128 ^ (k - 1)`. The induction follows
the writer's loop. -/
theorem pow_GetSizeOfVarInt_le (n : Nat) (hn : 0x7F < n) :
    2 ^ (7 * (GetSizeOfVarInt n - 1)) ≤ n := by
  induction n using Nat.strong_induction_on with
  | _ n ih =>
    rw [GetSizeOfVarInt.eq_def, if_neg (by omega)]
    have hsize := one_le_GetSizeOfVarInt (n / 128 - 1)
    rw [show 7 * (GetSizeOfVarInt (n / 128 - 1) + 1 - 1) =
        7 * (GetSizeOfVarInt (n / 128 - 1) - 1) + 7 by omega,
      Nat.pow_add, show (2 : Nat) ^ 7 = 128 from rfl]
    by_cases hsmall : n / 128 - 1 ≤ 0x7F
    · -- two bytes
      rw [GetSizeOfVarInt.eq_def, if_pos hsmall]
      simp only [Nat.sub_self, Nat.mul_zero, pow_zero, Nat.one_mul]
      omega
    · have hhigh := ih (n / 128 - 1) (by omega) (by omega)
      omega

theorem IntType.max_lt (I : IntType) : I.max < 2 ^ I.width := by
  unfold IntType.max
  split
  · have hle : 2 ^ (I.width - 1) ≤ 2 ^ I.width := Nat.pow_le_pow_right (by decide) (Nat.sub_le _ _)
    have hpos : 0 < 2 ^ (I.width - 1) := Nat.two_pow_pos _
    omega
  · have hpos : 0 < 2 ^ I.width := Nat.two_pow_pos _
    omega

/-- The buffer of `WriteVarInt<I>`, `(sizeof(n) * 8 + 6) / 7` bytes, holds every byte the
writer puts in it, for every value of `I`. -/
theorem WriteVarInt_fits_tmp (I : IntType) {n : Nat} (hn : n ≤ I.max) :
    (WriteVarInt n).length ≤ (I.width + 6) / 7 := by
  rw [length_WriteVarInt]
  have hw := I.width_ge
  by_cases hsmall : n ≤ 0x7F
  · rw [GetSizeOfVarInt.eq_def, if_pos hsmall]
    omega
  · -- `128 ^ (k - 1) ≤ n < 2 ^ width` bounds the number `k` of bytes
    have hlow := pow_GetSizeOfVarInt_le n (by omega)
    have hlt : 2 ^ (7 * (GetSizeOfVarInt n - 1)) < 2 ^ I.width :=
      lt_of_le_of_lt hlow (lt_of_le_of_lt hn I.max_lt)
    rw [Nat.pow_lt_pow_iff_right (by decide)] at hlt
    have hsize := one_le_GetSizeOfVarInt n
    omega

/-- An `int64_t`'s largest value takes ten bytes, as many as the buffer has. -/
theorem WriteVarInt_fits_tmp_int64 :
    2 ^ 63 - 1 ≤ IntType.max ⟨true, 64, by decide⟩ ∧
      (WriteVarInt (2 ^ 63 - 1)).length ≤ (64 + 6) / 7 :=
  have hn : 2 ^ 63 - 1 ≤ IntType.max ⟨true, 64, by decide⟩ := by decide
  ⟨hn, WriteVarInt_fits_tmp ⟨true, 64, by decide⟩ hn⟩

/-! ### Both integer encodings -/

/-- Compact sizes up to `MAX_SIZE` and variable-length integers of every integer type round
trip, each in the bytes its size function counts; the readers accept only what the writers
write; and the reader of variable-length integers refuses a value before it overflows its
type. -/
theorem integer_encodings_round_trip :
    (∀ n, n ≤ MAX_SIZE → ∀ rest, ReadCompactSize (WriteCompactSize n ++ rest) = some (n, rest)) ∧
    (∀ n, (WriteCompactSize n).length = GetSizeOfCompactSize n) ∧
    (∀ s n s', ReadCompactSize s = some (n, s') → s = WriteCompactSize n ++ s') ∧
    (∀ (I : IntType) n, n ≤ I.max → ∀ rest,
      I.ReadVarInt (WriteVarInt n ++ rest) = some (n, rest)) ∧
    (∀ n, (WriteVarInt n).length = GetSizeOfVarInt n) ∧
    (∀ (I : IntType) s n s', I.ReadVarInt s = some (n, s') → s = WriteVarInt n ++ s') ∧
    (∀ (I : IntType) s, ReadVarIntLoopIn I.max 0 s = .ok (I.ReadVarInt s)) := by
  refine ⟨?_, length_WriteCompactSize, ?_, ?_, length_WriteVarInt, ?_, ?_⟩
  · intro n hn rest
    exact ReadCompactSize_WriteCompactSize hn rest
  · intro s n s' h
    exact (ReadCompactSize_eq_some h).2
  · intro I n hn rest
    exact ReadVarIntLoop_WriteVarInt rest hn
  · intro I s n s' h
    exact ReadVarIntLoop_zero_eq_some h
  · intro I s
    exact ReadVarIntLoopIn_eq I.max_mod s 0

theorem integer_encodings_round_trip_sample :
    ReadCompactSize (WriteCompactSize 0xFFFF ++ []) = some (0xFFFF, []) ∧
      IntType.ReadVarInt ⟨true, 32, by decide⟩ (WriteVarInt (2 ^ 31 - 1) ++ []) =
        some (2 ^ 31 - 1, []) :=
  ⟨integer_encodings_round_trip.1 0xFFFF (by decide) [],
    integer_encodings_round_trip.2.2.2.1 ⟨true, 32, by decide⟩ (2 ^ 31 - 1) (by decide) []⟩


end Ravencoin
