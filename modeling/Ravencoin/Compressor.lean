import Ravencoin.Assets.Transactions

/-!
# Compact coin records (`compressor.cpp`, `compressor.h`, `Coin::Serialize`)

The coins database stores an unspent coin as a `VARINT` of its height and coinbase flag, a
`VARINT` of its compressed amount, and its compressed script. `CompressAmount` removes up to
nine trailing decimal zeros and folds the last non-zero digit into the code; `DecompressAmount`
undoes it. `CScriptCompressor` writes the six common script templates (pay to key hash, pay to
script hash, and pay to a public key in its three forms) as a size byte below six and the key or
hash, and any other script as a `VARINT` of its length plus six and its bytes.

## Main definitions

* `Ravencoin.CompressAmount`, `Ravencoin.DecompressAmount` — on `uint64_t`, as the C++ computes.
* `Ravencoin.Secp256k1` — the two curve operations the script compressor uses.
* `Ravencoin.CScriptCompressor.Compress`, `Ravencoin.CScriptCompressor.Decompress` and the
  stream functions `Serialize`/`Unserialize` of `CScriptCompressor`, `CTxOutCompressor` and
  `Coin`.

## Main results

* `Ravencoin.DecompressAmount_CompressAmount` — the amount code round trip, for every amount
  whose ninefold fits in 64 bits.
* `Ravencoin.CScriptCompressor.Unserialize_Serialize` — every script of at most
  `MAX_SCRIPT_SIZE` bytes is read back, when decompressing a key inverts compressing it.
* `Ravencoin.Coin.Unserialize_Serialize_self` — the record round trip of an unspent coin whose
  amount code does not wrap around.
* `Ravencoin.coin_record_amount_wraps` — a coin with an amount in `MoneyRange` whose record
  reads back another amount.

## Implementation notes

`CompressAmount` computes `1 + (n*9 + d - 1)*10 + e` in `uint64_t`; the code is about nine times
the amount, so amounts from about `2.05·10^18` on wrap around, and `MAX_MONEY` is `2.1·10^18`.
The script compressor writes into a script and reads into a fresh, empty one, as
`CCoinsViewCache::FetchCoin` does; a `Decompress` that fails leaves it empty. The size
`script.size() + nSpecialScripts` of an `unsigned int` is computed without wrapping: no script
in memory comes near `2^32` bytes. The database stream is a `CDataStream`, whose `ignore` takes
an `int`.
-/

set_option autoImplicit false

namespace Ravencoin

open ByteStream

/-! ### Amounts -/

/-- The loop of `CompressAmount`: while the last digit is `0` and fewer than nine digits have
been removed, divide by ten and count; `k` is the number of rounds left, `9 - e`. -/
def StripZeros : Nat → UInt64 → Nat → UInt64 × Nat
  | 0, n, e => (n, e)
  | k + 1, n, e => if n % 10 = 0 then StripZeros k (n / 10) (e + 1) else (n, e)

/-- `CTxOutCompressor::CompressAmount`: `0` is `0`; with `e < 9` zeros removed and the last
digit `d`, the code is `1 + 10·(9n + d - 1) + e` for the rest `n`; with nine zeros removed it is
`1 + 10·(n - 1) + 9`. The `assert(d >= 1 && d <= 9)` holds (`StripZeros_spec`). -/
def CompressAmount (n : UInt64) : UInt64 :=
  if n = 0 then 0
  else
    let (n, e) := StripZeros 9 n 0
    if e < 9 then
      let d := n % 10
      let n := n / 10
      1 + (n * 9 + d - 1) * 10 + e.toUInt64
    else 1 + (n - 1) * 10 + 9

/-- The loop of `DecompressAmount`: `while (e) { n *= 10; e--; }`. -/
def TimesTenPow : UInt64 → Nat → UInt64
  | n, 0 => n
  | n, e + 1 => TimesTenPow (n * 10) e

/-- `CTxOutCompressor::DecompressAmount`. -/
def DecompressAmount (x : UInt64) : UInt64 :=
  if x = 0 then 0
  else
    let x := x - 1
    let e := (x % 10).toNat
    let x := x / 10
    let n := if e < 9 then x / 9 * 10 + (x % 9 + 1) else x + 1
    TimesTenPow n e

/-- The loop removes `j ≤ k` zeros, and it stopped early only at a non-zero last digit. -/
theorem StripZeros_spec : ∀ (k : Nat) (n : UInt64) (e : Nat),
    ∃ m j, StripZeros k n e = (m, e + j) ∧ j ≤ k ∧ n.toNat = m.toNat * 10 ^ j ∧
      (j < k → m.toNat % 10 ≠ 0)
  | 0, n, e => ⟨n, 0, rfl, le_rfl, by simp, fun h => absurd h (Nat.lt_irrefl 0)⟩
  | k + 1, n, e => by
    by_cases hz : n % 10 = 0
    · -- a zero digit: one more round on `n / 10`
      have hz' : n.toNat % 10 = 0 := by
        have := congrArg UInt64.toNat hz
        simpa [UInt64.toNat_mod] using this
      obtain ⟨m, j, hs, hj, hval, hdig⟩ := StripZeros_spec k (n / 10) (e + 1)
      refine ⟨m, j + 1, ?_, by omega, ?_, fun hlt => hdig (by omega)⟩
      · have hsum : e + 1 + j = e + (j + 1) := by omega
        rw [StripZeros, if_pos hz, hs, hsum]
      · have hdiv : (n / 10).toNat = n.toNat / 10 := UInt64.toNat_div n 10
        rw [pow_succ, ← Nat.mul_assoc, ← hval, hdiv]
        omega
    · -- a non-zero digit stops the loop
      have hz' : n.toNat % 10 ≠ 0 := by
        intro h
        apply hz
        apply UInt64.toNat_inj.mp
        simpa [UInt64.toNat_mod] using h
      exact ⟨n, 0, by rw [StripZeros, if_neg hz, Nat.add_zero], Nat.zero_le _, by simp, fun _ => hz'⟩

/-- Multiplying by ten `e` times computes `n · 10^e` where that fits in 64 bits. -/
theorem toNat_TimesTenPow : ∀ (e : Nat) (n : UInt64), n.toNat * 10 ^ e < 2 ^ 64 →
    (TimesTenPow n e).toNat = n.toNat * 10 ^ e
  | 0, n, _ => by simp [TimesTenPow]
  | e + 1, n, h => by
    have hpow : n.toNat * 10 ≤ n.toNat * 10 ^ (e + 1) :=
      Nat.mul_le_mul_left _ (Nat.le_self_pow (by omega) 10)
    have hmul : (n * 10).toNat = n.toNat * 10 := by
      simp only [UInt64.toNat_mul, UInt64.reduceToNat]
      exact Nat.mod_eq_of_lt (by omega)
    have hrest : (n * 10).toNat * 10 ^ e < 2 ^ 64 := by
      rw [hmul, Nat.mul_assoc, ← pow_succ']
      exact h
    rw [TimesTenPow, toNat_TimesTenPow e (n * 10) hrest, hmul, Nat.mul_assoc, ← pow_succ']

/-- `DecompressAmount` of a code `1 + 10·(9q + d - 1) + e` with `e < 9` and `1 ≤ d ≤ 9`. -/
theorem DecompressAmount_of_digit {x : UInt64} {q d e : Nat} (he : e < 9) (hd : 1 ≤ d)
    (hd' : d ≤ 9) (hx : x.toNat = 1 + (9 * q + d - 1) * 10 + e) (hfit : (10 * q + d) * 10 ^ e < 2 ^ 64) :
    (DecompressAmount x).toNat = (10 * q + d) * 10 ^ e := by
  have hx0 : x ≠ 0 := by
    intro h
    simp only [h, UInt64.reduceToNat] at hx
    omega
  have hsub : (x - 1).toNat = (9 * q + d - 1) * 10 + e := by
    have hlt := x.toNat_lt
    simp only [UInt64.toNat_sub, hx, UInt64.reduceToNat] at hlt ⊢
    omega
  have hexp : ((x - 1) % 10).toNat = e := by
    simp only [UInt64.toNat_mod, hsub, UInt64.reduceToNat]
    omega
  have hrest : ((x - 1) / 10).toNat = 9 * q + d - 1 := by
    simp only [UInt64.toNat_div, hsub, UInt64.reduceToNat]
    omega
  have hn : ((x - 1) / 10 / 9 * 10 + ((x - 1) / 10 % 9 + 1)).toNat = 10 * q + d := by
    have hfit' : 10 * q + d < 2 ^ 64 :=
      Nat.lt_of_le_of_lt (Nat.le_mul_of_pos_right _ (Nat.one_le_pow _ _ (by decide))) hfit
    simp only [UInt64.toNat_add, UInt64.toNat_mul, UInt64.toNat_div, UInt64.toNat_mod,
      UInt64.reduceToNat, hrest]
    omega
  simp only [DecompressAmount, if_neg hx0, hexp, if_pos he]
  rw [toNat_TimesTenPow e _ (by rw [hn]; exact hfit), hn]

/-- `DecompressAmount` of a code `10·m` with `m ≥ 1`: nine zeros are appended to `m`. -/
theorem DecompressAmount_of_billions {x : UInt64} {m : Nat} (hm : 1 ≤ m) (hx : x.toNat = 10 * m)
    (hfit : m * 10 ^ 9 < 2 ^ 64) :
    (DecompressAmount x).toNat = m * 10 ^ 9 := by
  have hx0 : x ≠ 0 := by
    intro h
    simp only [h, UInt64.reduceToNat] at hx
    omega
  have hsub : (x - 1).toNat = 10 * m - 1 := by
    have hlt := x.toNat_lt
    simp only [UInt64.toNat_sub, hx, UInt64.reduceToNat] at hlt ⊢
    omega
  have hexp : ((x - 1) % 10).toNat = 9 := by
    simp only [UInt64.toNat_mod, hsub, UInt64.reduceToNat]
    omega
  have hn : ((x - 1) / 10 + 1).toNat = m := by
    simp only [UInt64.toNat_add, UInt64.toNat_div, hsub, UInt64.reduceToNat]
    omega
  simp only [DecompressAmount, if_neg hx0, hexp, Nat.lt_irrefl, if_false]
  rw [toNat_TimesTenPow 9 _ (by rw [hn]; exact hfit), hn]

/-- The amount code round trip: `DecompressAmount` undoes `CompressAmount` for every amount
whose ninefold fits in 64 bits. The code is at most nine times the amount, so no step wraps
around. -/
theorem DecompressAmount_CompressAmount (n : UInt64) (h : 9 * n.toNat < 2 ^ 64) :
    DecompressAmount (CompressAmount n) = n := by
  by_cases hn : n = 0
  · simp [CompressAmount, DecompressAmount, hn]
  have hpos : 0 < n.toNat := by
    rcases Nat.eq_zero_or_pos n.toNat with h0 | h0
    · exact absurd (UInt64.toNat_inj.mp (by simpa using h0)) hn
    · exact h0
  obtain ⟨m, j, hs, hj, hval, hdig⟩ := StripZeros_spec 9 n 0
  have hm : 0 < m.toNat := by
    rcases Nat.eq_zero_or_pos m.toNat with h0 | h0
    · rw [h0, Nat.zero_mul] at hval
      omega
    · exact h0
  apply UInt64.toNat_inj.mp
  by_cases hj9 : j < 9
  · -- the last digit `d` of `m` is not zero: the code is `1 + 10·(9q + d - 1) + j`
    have hd := hdig hj9
    have hdm : 10 * (m.toNat / 10) + m.toNat % 10 = m.toNat := Nat.div_add_mod m.toNat 10
    -- the code fits in 64 bits: it is at most `9 m + 8`, and `m ≤ n / 10` once a zero is gone
    have hcode : 1 + (9 * (m.toNat / 10) + m.toNat % 10 - 1) * 10 + j < 2 ^ 64 := by
      have hmul : m.toNat * 10 ≤ n.toNat ∨ j = 0 := by
        rcases Nat.eq_zero_or_pos j with hj0 | hj0
        · exact Or.inr hj0
        · left
          rw [hval]
          exact Nat.mul_le_mul_left _ (Nat.le_self_pow (by omega) 10)
      rcases hmul with hmul | hj0
      · omega
      · subst hj0
        simp at hval
        omega
    have hc : (CompressAmount n).toNat = 1 + (9 * (m.toNat / 10) + m.toNat % 10 - 1) * 10 + j := by
      have hj' : (j.toUInt64).toNat = j := by
        rw [Nat.toUInt64_eq, UInt64.toNat_ofNat']
        omega
      simp only [CompressAmount, if_neg hn, hs, Nat.zero_add, if_pos hj9]
      simp only [UInt64.toNat_add, UInt64.toNat_mul, UInt64.toNat_sub, UInt64.toNat_div,
        UInt64.toNat_mod, UInt64.reduceToNat, hj']
      omega
    have hfit : (10 * (m.toNat / 10) + m.toNat % 10) * 10 ^ j < 2 ^ 64 := by
      rw [hdm, ← hval]
      exact n.toNat_lt
    rw [DecompressAmount_of_digit hj9 (by omega) (by omega) hc hfit, hdm, hval]
  · -- nine zeros removed: the code is `10·m`
    have hj9' : j = 9 := by omega
    subst hj9'
    have hmul : m.toNat * 10 ≤ n.toNat := by
      rw [hval]
      exact Nat.mul_le_mul_left _ (by decide)
    have hc : (CompressAmount n).toNat = 10 * m.toNat := by
      simp only [CompressAmount, if_neg hn, hs, Nat.zero_add, Nat.lt_irrefl, if_false]
      simp only [UInt64.toNat_add, UInt64.toNat_mul, UInt64.toNat_sub, UInt64.reduceToNat]
      omega
    rw [DecompressAmount_of_billions hm hc (by omega), hval]

/-- The amount a coin record reads back: the `int64_t` amount is passed to `CompressAmount` as
a `uint64_t`, and the decompressed `uint64_t` is stored back into the `int64_t`. -/
def StoredAmount (nValue : CAmount) : CAmount :=
  toSigned 64 (DecompressAmount (CompressAmount (UInt64.ofInt nValue))).toNat

/-- Without wrap-around, a record reads back the amount it was written with. -/
theorem StoredAmount_eq {nValue : Int} (hvalue : 0 ≤ nValue) (hfit : 9 * nValue < 2 ^ 64) :
    StoredAmount nValue = nValue := by
  -- the bound as a numeral, which `omega` reads
  have hlt : 9 * nValue < 18446744073709551616 := by simpa using hfit
  have hv : (UInt64.ofInt nValue).toNat = nValue.toNat := by
    rw [UInt64.ofInt, UInt64.toNat_ofNat', Int.emod_eq_of_lt hvalue (by omega)]
    exact Nat.mod_eq_of_lt (by omega)
  have hround := DecompressAmount_CompressAmount (UInt64.ofInt nValue) (by rw [hv]; omega)
  rw [StoredAmount, hround, hv, toSigned, if_pos (by omega)]
  exact Int.toNat_of_nonneg hvalue

/-! ### Scripts -/

/-- The two operations of `libsecp256k1` the script compressor uses: whether a 65-byte key is a
point of the curve (`CPubKey::IsFullyValid`), and the 65-byte form of a 33-byte compressed key
when it is a point (`CPubKey::Decompress`). A decompressed key has 65 bytes, which the C++
asserts. -/
structure Secp256k1 where
  IsFullyValid : List UInt8 → Bool
  Decompress : List UInt8 → Option (List UInt8)
  length_Decompress : ∀ v k, Decompress v = some k → k.length = 65

/-- Decompressing a key inverts compressing it: a fully valid uncompressed key, written as
`0x02 | parity` and its `x` coordinate, decompresses to itself. -/
def Secp256k1.InvertsCompression (K : Secp256k1) : Prop :=
  ∀ pubkey : List UInt8, pubkey.length = 65 → pubkey[0]? = some 0x04 →
    K.IsFullyValid pubkey = true →
      K.Decompress ((0x02 ||| (pubkey.getD 64 0 &&& 0x01)) :: (pubkey.drop 1).take 32) = some pubkey

/-- `nSpecialScripts`: the sizes below six stand for the special templates. -/
def nSpecialScripts : Nat := 6

/-- `CDataStream::ignore(int nSize)`: a size that is negative as an `int` throws. -/
def IgnoreBytes (nSize : Nat) : Reader Unit := do
  if nSize ≥ 2 ^ 31 then failure
  let _ ← readBytes nSize

namespace CScriptCompressor

variable (K : Secp256k1)

/-- `CScriptCompressor::IsToKeyID`: the pay-to-key-hash template, with its key hash. -/
def IsToKeyID (script : CScript) : Option (List UInt8) :=
  if script.length = 25 ∧ script[0]? = some OP_DUP ∧ script[1]? = some OP_HASH160 ∧
      script[2]? = some 20 ∧ script[23]? = some OP_EQUALVERIFY ∧ script[24]? = some OP_CHECKSIG then
    some ((script.drop 3).take 20)
  else none

/-- `CScriptCompressor::IsToScriptID`: the pay-to-script-hash template, with its hash. -/
def IsToScriptID (script : CScript) : Option (List UInt8) :=
  if script.length = 23 ∧ script[0]? = some OP_HASH160 ∧ script[1]? = some 20 ∧
      script[22]? = some OP_EQUAL then
    some ((script.drop 2).take 20)
  else none

/-- `CScriptCompressor::IsToPubKey`: a pay-to-key script with a compressed key, or with an
uncompressed key that is a point of the curve; the key. -/
def IsToPubKey (script : CScript) : Option (List UInt8) :=
  if script.length = 35 ∧ script[0]? = some 33 ∧ script[34]? = some OP_CHECKSIG ∧
      (script[1]? = some 0x02 ∨ script[1]? = some 0x03) then
    some ((script.drop 1).take 33)
  else if script.length = 67 ∧ script[0]? = some 65 ∧ script[66]? = some OP_CHECKSIG ∧
      script[1]? = some 0x04 then
    let pubkey := (script.drop 1).take 65
    if K.IsFullyValid pubkey then some pubkey else none
  else none

/-- `CScriptCompressor::Compress`: the special size byte and the hash, or the first key byte
(for an uncompressed key `0x04 | parity`) and the `x` coordinate. -/
def Compress (script : CScript) : Option (List UInt8) :=
  match IsToKeyID script with
  | some keyID => some (0x00 :: keyID)
  | none =>
  match IsToScriptID script with
  | some scriptID => some (0x01 :: scriptID)
  | none =>
  match IsToPubKey K script with
  | some (b :: rest) =>
    if b = 0x02 ∨ b = 0x03 then some (b :: rest.take 32)
    else if b = 0x04 then some ((0x04 ||| (rest.getD 63 0 &&& 0x01)) :: rest.take 32)
    else none
  | _ => none

/-- `CScriptCompressor::GetSpecialSize`: how many bytes follow a special size. -/
def GetSpecialSize (nSize : Nat) : Nat :=
  if nSize = 0 ∨ nSize = 1 then 20
  else if nSize = 2 ∨ nSize = 3 ∨ nSize = 4 ∨ nSize = 5 then 32
  else 0

/-- `CScriptCompressor::Decompress`: the script of a special size, or `none` when it returns
`false` (an unknown size, or a key that is not a point of the curve). -/
def Decompress (nSize : Nat) (input : List UInt8) : Option CScript :=
  if nSize = 0x00 then
    some ([OP_DUP, OP_HASH160, 20] ++ input.take 20 ++ [OP_EQUALVERIFY, OP_CHECKSIG])
  else if nSize = 0x01 then some ([OP_HASH160, 20] ++ input.take 20 ++ [OP_EQUAL])
  else if nSize = 0x02 ∨ nSize = 0x03 then
    some ([33, nSize.toUInt8] ++ input.take 32 ++ [OP_CHECKSIG])
  else if nSize = 0x04 ∨ nSize = 0x05 then
    (K.Decompress ((nSize - 2).toUInt8 :: input.take 32)).map fun pubkey =>
      [65] ++ pubkey ++ [OP_CHECKSIG]
  else none

/-- `CScriptCompressor::Serialize`: the compressed form, or the size plus six and the bytes. -/
def Serialize (script : CScript) : List UInt8 :=
  match Compress K script with
  | some compr => compr
  | none => WriteVarInt (script.length + nSpecialScripts) ++ script

/-- `CScriptCompressor::Unserialize` into a fresh script. -/
def Unserialize : Reader CScript := do
  let nSize ← ReadVarInt 32
  if nSize < nSpecialScripts then
    let vch ← readBytes (GetSpecialSize nSize)
    return (Decompress K nSize vch).getD []
  else
    let nSize := nSize - nSpecialScripts
    if nSize > MAX_SCRIPT_SIZE then
      -- an overly long script is replaced with a short invalid one
      IgnoreBytes nSize
      return [OP_RETURN]
    else readBytes nSize

end CScriptCompressor

/-! ### Outputs and coins -/

namespace CTxOutCompressor

variable (K : Secp256k1)

/-- `CTxOutCompressor::SerializationOp` when writing. -/
def Serialize (txout : CTxOut) : List UInt8 :=
  WriteVarInt (CompressAmount (UInt64.ofInt txout.nValue)).toNat ++
    CScriptCompressor.Serialize K txout.scriptPubKey

/-- `CTxOutCompressor::SerializationOp` when reading. -/
def Unserialize : Reader CTxOut := do
  let nVal ← ReadVarInt 64
  let nValue := toSigned 64 (DecompressAmount nVal.toUInt64).toNat
  let scriptPubKey ← CScriptCompressor.Unserialize K
  return ⟨nValue, scriptPubKey⟩

end CTxOutCompressor

/-- `Coin::Serialize`: `assert(!IsSpent())`, then the `uint32_t` code `nHeight * 2 + fCoinBase`
and the compressed output. -/
def Coin.Serialize (K : Secp256k1) (c : Coin) : Except Halt (List UInt8) :=
  if c.IsSpent then .error (.abort (str "assert(!IsSpent())"))
  else
    .ok (WriteVarInt ((c.nHeight * 2 + if c.fCoinBase then 1 else 0) % 2 ^ 32) ++
      CTxOutCompressor.Serialize K c.out)

/-- `Coin::Unserialize`: `nHeight = code >> 1`, `fCoinBase = code & 1`. -/
def Coin.Unserialize (K : Secp256k1) : Reader Coin := do
  let code ← ReadVarInt 32
  let out ← CTxOutCompressor.Unserialize K
  return { out, fCoinBase := code % 2 == 1, nHeight := code / 2 }

/-! ### Scripts read back -/

/-- The parity bit of a byte is `0` or `1`. -/
theorem and_one_eq_zero_or_one (x : UInt8) : x &&& 1 = 0 ∨ x &&& 1 = 1 := by
  have h : (x &&& 1).toNat = x.toNat % 2 := by
    rw [UInt8.toNat_and]
    exact Nat.and_two_pow_sub_one_eq_mod x.toNat 1
  rcases Nat.mod_two_eq_zero_or_one x.toNat with h0 | h1
  · left
    apply UInt8.toNat_inj.mp
    rw [h, h0]
    rfl
  · right
    apply UInt8.toNat_inj.mp
    rw [h, h1]
    rfl

namespace CScriptCompressor

variable (K : Secp256k1)

/-- A script `IsToKeyID` accepts is the pay-to-key-hash template of its hash. -/
theorem IsToKeyID_eq_some {script keyID : CScript} (h : IsToKeyID script = some keyID) :
    script = [OP_DUP, OP_HASH160, 20] ++ keyID ++ [OP_EQUALVERIFY, OP_CHECKSIG] ∧
      keyID.length = 20 := by
  unfold IsToKeyID at h
  split_ifs at h with hs
  obtain ⟨hlen, h0, h1, h2, h23, h24⟩ := hs
  cases h
  refine ⟨eq_append_middle_append (by simp [hlen]) ?_ ?_, by simp [hlen]⟩
  · intro i hi
    obtain rfl | rfl | rfl : i = 0 ∨ i = 1 ∨ i = 2 := by simp at hi; omega
    · simpa using h0
    · simpa using h1
    · simpa using h2
  · intro i hi
    obtain rfl | rfl : i = 0 ∨ i = 1 := by simp at hi; omega
    · simpa using h23
    · simpa using h24

/-- A script `IsToScriptID` accepts is the pay-to-script-hash template of its hash. -/
theorem IsToScriptID_eq_some {script scriptID : CScript} (h : IsToScriptID script = some scriptID) :
    script = [OP_HASH160, 20] ++ scriptID ++ [OP_EQUAL] ∧ scriptID.length = 20 := by
  unfold IsToScriptID at h
  split_ifs at h with hs
  obtain ⟨hlen, h0, h1, h22⟩ := hs
  cases h
  refine ⟨eq_append_middle_append (by simp [hlen]) ?_ ?_, by simp [hlen]⟩
  · intro i hi
    obtain rfl | rfl : i = 0 ∨ i = 1 := by simp at hi; omega
    · simpa using h0
    · simpa using h1
  · intro i hi
    obtain rfl : i = 0 := by simp at hi; omega
    simpa using h22

/-- A script `IsToPubKey` accepts is a pay-to-key script with a compressed key, or with an
uncompressed key that is a point of the curve. -/
theorem IsToPubKey_eq_some {script pubkey : CScript} (h : IsToPubKey K script = some pubkey) :
    (script = [33] ++ pubkey ++ [OP_CHECKSIG] ∧ pubkey.length = 33 ∧
        (pubkey[0]? = some 0x02 ∨ pubkey[0]? = some 0x03)) ∨
      (script = [65] ++ pubkey ++ [OP_CHECKSIG] ∧ pubkey.length = 65 ∧
        pubkey[0]? = some 0x04 ∧ K.IsFullyValid pubkey = true) := by
  unfold IsToPubKey at h
  dsimp only at h
  split_ifs at h with hc hu hvalid
  · -- a compressed key
    obtain ⟨hlen, h0, h34, h1⟩ := hc
    cases h
    refine Or.inl ⟨eq_append_middle_append (by simp [hlen]) ?_ ?_, by simp [hlen], ?_⟩
    · intro i hi
      obtain rfl : i = 0 := by simp at hi; omega
      simpa using h0
    · intro i hi
      obtain rfl : i = 0 := by simp at hi; omega
      simpa using h34
    · simpa using h1
  · -- an uncompressed key that is a point
    obtain ⟨hlen, h0, h66, h1⟩ := hu
    cases h
    refine Or.inr ⟨eq_append_middle_append (by simp [hlen]) ?_ ?_, by simp [hlen], by simpa using h1,
      hvalid⟩
    · intro i hi
      obtain rfl : i = 0 := by simp at hi; omega
      simpa using h0
    · intro i hi
      obtain rfl : i = 0 := by simp at hi; omega
      simpa using h66

/-- What `Compress` writes: a special size below six, the bytes that size reads, and the
bytes from which `Decompress` rebuilds the script. -/
theorem Compress_eq_some (hK : K.InvertsCompression) {script compr : CScript}
    (h : Compress K script = some compr) :
    ∃ b body, compr = b :: body ∧ b.toNat < nSpecialScripts ∧
      body.length = GetSpecialSize b.toNat ∧ Decompress K b.toNat body = some script := by
  unfold Compress at h
  cases hkey : IsToKeyID script with
  | some keyID =>
    -- pay to key hash
    rw [hkey] at h
    cases h
    obtain ⟨rfl, hlen⟩ := IsToKeyID_eq_some hkey
    refine ⟨0x00, keyID, rfl, by decide, by simp [GetSpecialSize, hlen], ?_⟩
    simp [Decompress, List.take_of_length_le hlen.le]
  | none =>
  rw [hkey] at h
  cases hsid : IsToScriptID script with
  | some scriptID =>
    -- pay to script hash
    rw [hsid] at h
    cases h
    obtain ⟨rfl, hlen⟩ := IsToScriptID_eq_some hsid
    refine ⟨0x01, scriptID, rfl, by decide, by simp [GetSpecialSize, hlen], ?_⟩
    simp [Decompress, List.take_of_length_le hlen.le]
  | none =>
  rw [hsid] at h
  cases hpk : IsToPubKey K script with
  | none =>
    rw [hpk] at h
    cases h
  | some pubkey =>
  rw [hpk] at h
  rcases IsToPubKey_eq_some K hpk with ⟨rfl, hlen, hfirst⟩ | ⟨rfl, hlen, hfirst, hvalid⟩
  · -- a compressed key is written as it is
    cases pubkey with
    | nil => simp at hlen
    | cons b rest =>
    have hrest : rest.length = 32 := by simpa using hlen
    have hb : b = 0x02 ∨ b = 0x03 := by simpa using hfirst
    simp only [hb, if_true, Option.some.injEq] at h
    subst h
    have htake : rest.take 32 = rest := List.take_of_length_le hrest.le
    rcases hb with rfl | rfl
    · refine ⟨0x02, rest.take 32, rfl, by decide, by simp [GetSpecialSize, hrest], ?_⟩
      simp [Decompress, htake]
    · refine ⟨0x03, rest.take 32, rfl, by decide, by simp [GetSpecialSize, hrest], ?_⟩
      simp [Decompress, htake]
  · -- an uncompressed key: `0x04 | parity` and the `x` coordinate
    cases pubkey with
    | nil => simp at hlen
    | cons b rest =>
    have hb : b = 0x04 := by simpa using hfirst
    subst hb
    have hrest : rest.length = 64 := by simpa using hlen
    have hinv := hK (0x04 :: rest) hlen hfirst hvalid
    simp only [List.getD_cons_succ, List.drop_one, List.tail_cons] at hinv
    simp only [show ¬((0x04 : UInt8) = 0x02 ∨ (0x04 : UInt8) = 0x03) by decide, if_false, if_true,
      Option.some.injEq] at h
    subst h
    have htake : (rest.take 32).take 32 = rest.take 32 := by rw [List.take_take, Nat.min_self]
    -- the parity bit picks the size `4` or `5`, and the key byte `0x02` or `0x03`
    rcases and_one_eq_zero_or_one (rest.getD 63 0) with hp | hp <;> rw [hp] at hinv ⊢
    · have hb4 : (0x04 : UInt8) ||| 0 = 4 := by decide
      have hk2 : (0x02 : UInt8) ||| 0 = 2 := by decide
      rw [hk2] at hinv
      refine ⟨0x04 ||| 0, rest.take 32, rfl, by decide, by simp [GetSpecialSize, hrest], ?_⟩
      rw [hb4]
      unfold Decompress
      rw [if_neg (by decide), if_neg (by decide), if_neg (by decide), if_pos (by decide)]
      show (K.Decompress (2 :: (rest.take 32).take 32)).map _ = _
      rw [htake, hinv]
      rfl
    · have hb5 : (0x04 : UInt8) ||| 1 = 5 := by decide
      have hk3 : (0x02 : UInt8) ||| 1 = 3 := by decide
      rw [hk3] at hinv
      refine ⟨0x04 ||| 1, rest.take 32, rfl, by decide, by simp [GetSpecialSize, hrest], ?_⟩
      rw [hb5]
      unfold Decompress
      rw [if_neg (by decide), if_neg (by decide), if_neg (by decide), if_pos (by decide)]
      show (K.Decompress (3 :: (rest.take 32).take 32)).map _ = _
      rw [htake, hinv]
      rfl

/-- `Unserialize` reads back every script of at most `MAX_SCRIPT_SIZE` bytes, whatever bytes
follow it. -/
theorem Unserialize_Serialize (hK : K.InvertsCompression) (script : CScript) (rest : List UInt8)
    (hsize : script.length ≤ MAX_SCRIPT_SIZE) :
    Unserialize K (Serialize K script ++ rest) = some (script, rest) := by
  unfold Serialize
  cases hc : Compress K script with
  | some compr =>
    -- a special size, read as a one-byte `VARINT`, then the bytes it stands for
    obtain ⟨b, body, rfl, hb, hbody, hdec⟩ := Compress_eq_some K hK hc
    have hb' : b.toNat < 6 := hb
    have hread : ReadVarInt 32 (b :: (body ++ rest)) = some (b.toNat, body ++ rest) := by
      have h := ReadVarInt_WriteVarInt (w := 32) (body ++ rest) (n := b.toNat) (by omega)
      rwa [WriteVarInt_of_lt (by omega), List.singleton_append] at h
    have hbytes : readBytes (GetSpecialSize b.toNat) (body ++ rest) = some (body, rest) := by
      rw [← hbody]
      exact readBytes_append body rest
    simp only [List.cons_append, Unserialize, bind_apply, hread, Option.bind_some, if_pos hb,
      hbytes, pure_apply, hdec, Option.getD_some]
  | none =>
    -- the length plus six, then the bytes
    have hlen : script.length + nSpecialScripts < 2 ^ 32 := by
      unfold MAX_SCRIPT_SIZE at hsize
      unfold nSpecialScripts
      omega
    have hread := ReadVarInt_WriteVarInt (script ++ rest) hlen
    have hbytes : readBytes script.length (script ++ rest) = some (script, rest) :=
      readBytes_append script rest
    have hspecial : ¬(script.length + nSpecialScripts < nSpecialScripts) := by omega
    simp only [List.append_assoc, Unserialize, bind_apply, hread, Option.bind_some, if_neg hspecial,
      Nat.add_sub_cancel, if_neg (Nat.not_lt.2 hsize), hbytes]

end CScriptCompressor

/-! ### Outputs and coins read back -/

/-- An output record reads back the script and the stored amount. -/
theorem CTxOutCompressor.Unserialize_Serialize (K : Secp256k1) (hK : K.InvertsCompression)
    (txout : CTxOut) (rest : List UInt8) (hsize : txout.scriptPubKey.length ≤ MAX_SCRIPT_SIZE) :
    CTxOutCompressor.Unserialize K (CTxOutCompressor.Serialize K txout ++ rest) =
      some ({ txout with nValue := StoredAmount txout.nValue }, rest) := by
  have hread := ReadVarInt_WriteVarInt (w := 64)
    (CScriptCompressor.Serialize K txout.scriptPubKey ++ rest)
    (CompressAmount (UInt64.ofInt txout.nValue)).toNat_lt
  have hscript := CScriptCompressor.Unserialize_Serialize K hK txout.scriptPubKey rest hsize
  simp only [CTxOutCompressor.Serialize, CTxOutCompressor.Unserialize, List.append_assoc,
    bind_apply, hread, Option.bind_some, hscript, pure_apply, Nat.toUInt64_eq, UInt64.ofNat_toNat]
  rfl

/-- A coin record reads back the coin with its stored amount, when the height fits the
31 bits of `nHeight`. -/
theorem Coin.Unserialize_Serialize_stored (K : Secp256k1) (hK : K.InvertsCompression) (c : Coin)
    (rest : List UInt8) (hunspent : c.IsSpent = false) (hheight : c.nHeight < 2 ^ 31)
    (hsize : c.out.scriptPubKey.length ≤ MAX_SCRIPT_SIZE) :
    ∃ bytes, c.Serialize K = .ok bytes ∧
      Coin.Unserialize K (bytes ++ rest) =
        some ({ c with out := { c.out with nValue := StoredAmount c.out.nValue } }, rest) := by
  obtain ⟨out, fCoinBase, nHeight⟩ := c
  -- the header code `nHeight * 2 + fCoinBase` fits in 32 bits
  have hcode : (nHeight * 2 + if fCoinBase then 1 else 0) % 2 ^ 32 =
      nHeight * 2 + if fCoinBase then 1 else 0 :=
    Nat.mod_eq_of_lt (by simp only at hheight; split <;> omega)
  refine ⟨WriteVarInt (nHeight * 2 + if fCoinBase then 1 else 0) ++
    CTxOutCompressor.Serialize K out, ?_, ?_⟩
  · rw [Coin.Serialize, if_neg (by simpa using hunspent), hcode]
  · have hread := ReadVarInt_WriteVarInt (w := 32) (CTxOutCompressor.Serialize K out ++ rest)
      (n := nHeight * 2 + if fCoinBase then 1 else 0) (by simp only at hheight; split <;> omega)
    have hout := CTxOutCompressor.Unserialize_Serialize K hK out rest hsize
    simp only [Coin.Unserialize, List.append_assoc, bind_apply, hread, Option.bind_some, hout,
      pure_apply, Option.some.injEq, Prod.mk.injEq, and_true]
    -- the flag is the low bit of the code and the height the rest
    have hflag : ((nHeight * 2 + if fCoinBase then 1 else 0) % 2 == 1) = fCoinBase := by
      cases fCoinBase <;> simp
    have hhigh : (nHeight * 2 + if fCoinBase then 1 else 0) / 2 = nHeight := by
      split <;> omega
    rw [hflag, hhigh]

/-- The record round trip of an unspent coin: a coin whose height fits in 31 bits, whose
amount is not negative and small enough that its code does not wrap around, and whose script
has at most `MAX_SCRIPT_SIZE` bytes is read back from its record, whatever bytes follow. -/
theorem Coin.Unserialize_Serialize_self (K : Secp256k1) (hK : K.InvertsCompression) (c : Coin)
    (rest : List UInt8) (hheight : c.nHeight < 2 ^ 31) (hvalue : 0 ≤ c.out.nValue)
    (hfit : 9 * c.out.nValue < 2 ^ 64) (hsize : c.out.scriptPubKey.length ≤ MAX_SCRIPT_SIZE) :
    ∃ bytes, c.Serialize K = .ok bytes ∧ Coin.Unserialize K (bytes ++ rest) = some (c, rest) := by
  have hunspent : c.IsSpent = false := by
    have hne : c.out.nValue ≠ -1 := by
      intro h
      rw [h] at hvalue
      exact absurd hvalue (by decide)
    simpa [Coin.IsSpent, CTxOut.IsNull] using hne
  obtain ⟨bytes, hser, hread⟩ := Coin.Unserialize_Serialize_stored K hK c rest hunspent hheight hsize
  refine ⟨bytes, hser, ?_⟩
  rw [hread, StoredAmount_eq hvalue hfit]

/-- An uncompressed key: `0x04` and 64 bytes. -/
def SampleUncompressedKey : List UInt8 := 0x04 :: List.replicate 64 0x11

/-- A curve with the one point `SampleUncompressedKey`, whose compressed form is `0x03` (its
last byte is odd) and its first 32 coordinate bytes. -/
def SampleCurve : Secp256k1 where
  IsFullyValid := fun k => k == SampleUncompressedKey
  Decompress := fun v =>
    if v = 0x03 :: List.replicate 32 0x11 then some SampleUncompressedKey else none
  length_Decompress := fun v k h => by
    split_ifs at h
    cases h
    rfl

theorem SampleCurve_InvertsCompression : SampleCurve.InvertsCompression := by
  intro pubkey _ _ hvalid
  have hkey : pubkey = SampleUncompressedKey := by simpa [SampleCurve] using hvalid
  subst hkey
  decide

/-- A coin of one RVN at height 100 paying `SampleUncompressedKey`. -/
def SamplePubKeyCoin : Coin := ⟨⟨COIN, [65] ++ SampleUncompressedKey ++ [OP_CHECKSIG]⟩, false, 100⟩

theorem Coin.Unserialize_Serialize_pubkey :
    SampleCurve.InvertsCompression ∧ SamplePubKeyCoin.nHeight < 2 ^ 31 ∧
      0 ≤ SamplePubKeyCoin.out.nValue ∧ 9 * SamplePubKeyCoin.out.nValue < 2 ^ 64 ∧
      SamplePubKeyCoin.out.scriptPubKey.length ≤ MAX_SCRIPT_SIZE ∧
      ∃ bytes, SamplePubKeyCoin.Serialize SampleCurve = .ok bytes ∧
        Coin.Unserialize SampleCurve (bytes ++ []) = some (SamplePubKeyCoin, []) :=
  ⟨SampleCurve_InvertsCompression, by decide, by decide, by decide, by decide,
    Coin.Unserialize_Serialize_self SampleCurve SampleCurve_InvertsCompression SamplePubKeyCoin []
      (by decide) (by decide) (by decide) (by decide)⟩

/-- A coin of `2099999999999999999` units, in `MoneyRange`, at height 100 paying `SampleKeyA`. -/
def WrappingAmountCoin : Coin := ⟨⟨2099999999999999999, P2PKH SampleKeyA⟩, false, 100⟩

/-- The code of the amount of `WrappingAmountCoin` wraps around in `CompressAmount`: with
every curve whose decompression inverts compression, the coin's record reads back a coin of
`5555605888118076368` units. -/
theorem coin_record_amount_wraps :
    MoneyRange WrappingAmountCoin.out.nValue = true ∧
      ∀ K : Secp256k1, K.InvertsCompression → ∃ bytes, WrappingAmountCoin.Serialize K = .ok bytes ∧
        Coin.Unserialize K bytes =
          some ({ WrappingAmountCoin with out := ⟨5555605888118076368, P2PKH SampleKeyA⟩ }, []) := by
  refine ⟨by decide, fun K hK => ?_⟩
  have hstored : StoredAmount 2099999999999999999 = 5555605888118076368 := by decide +kernel
  obtain ⟨bytes, hser, hread⟩ :=
    Coin.Unserialize_Serialize_stored K hK WrappingAmountCoin [] (by decide) (by decide) (by decide)
  refine ⟨bytes, hser, ?_⟩
  rw [← List.append_nil bytes, hread]
  simp only [WrappingAmountCoin, hstored]

end Ravencoin
