import Ravencoin.Primitives
import Ravencoin.Lib.Codec

/-!
# The field serializers of `serialize.h` as prefix codes

Every field reader of the network serialization, together with its writer, is a prefix code in
the sense of `Lib/Codec.lean` on the values its writer can write and its reader's checks admit:
a little-endian integer on its width, a compact size up to `MAX_SIZE`, a byte string or a vector
whose length is at most `MAX_SIZE`. The serialization of a structure is its fields one after
another, so what this module proves of the fields carries over to the structures of
`Primitives/Transaction.lean`.

## Main definitions

* `Ravencoin.ReadUInt32`, `Ravencoin.ReadInt32`, `Ravencoin.ReadUint256` and their writers — the
  `uint32_t`, `int32_t` and `uint256` fields.
* `Ravencoin.ReadVector`, `Ravencoin.WriteVector` — a `std::vector` of values that have their own
  serialization.

## Main results

* `Ravencoin.readLE_code`, `Ravencoin.ReadUInt32_code`, `Ravencoin.ReadInt32_code`,
  `Ravencoin.ReadInt64_code`, `Ravencoin.ReadUint256_code` — the fixed-width fields.
* `Ravencoin.ReadCompactSize_code`, `Ravencoin.ReadString_code` — sizes and byte strings.
* `Ravencoin.ReadVector_code` — a vector of values of a prefix code.
-/

set_option autoImplicit false

namespace Ravencoin

open ByteStream

/-- `ser_readdata32` into a `uint32_t`. -/
def ReadUInt32 : Reader UInt32 := do
  let x ← readLE 4
  return x.toUInt32

/-- `ser_writedata32` of a `uint32_t`. -/
def WriteUInt32 (x : UInt32) : List UInt8 := leBytes 4 x.toNat

/-- `ser_readdata32` into an `int32_t`. -/
def ReadInt32 : Reader Int := do
  let x ← readLE 4
  return toSigned 32 x

/-- `ser_writedata32` of an `int32_t`. -/
def WriteInt32 (x : Int) : List UInt8 := leBytes 4 (x % 2 ^ 32).toNat

/-- `base_blob<256>::Unserialize`: the 32 bytes of the blob, least significant first. -/
def ReadUint256 : Reader uint256 := do
  let x ← readLE 32
  return BitVec.ofNat 256 x

/-- `base_blob<256>::Serialize`. -/
def WriteUint256 (h : uint256) : List UInt8 := leBytes 32 h.toNat

/-- `Unserialize_impl` of a `std::vector` of values that have their own `Unserialize`: a compact
size, then that many values. The source grows the vector in steps of 5 MB of elements, which
bounds the memory a bad size can claim and changes nothing that is read. -/
def ReadVector {α : Type} (r : Reader α) : Reader (List α) := do
  let nSize ← ReadCompactSize
  readCount r nSize

/-- `Serialize_impl` of a `std::vector`: its size, then its values. -/
def WriteVector {α : Type} (w : α → List UInt8) (v : List α) : List UInt8 :=
  WriteCompactSize v.length ++ writeAll w v

@[simp] theorem WriteVector_nil {α : Type} (w : α → List UInt8) : WriteVector w [] = [0] := rfl

/-- `k` little-endian bytes, on the values below `256 ^ k`. -/
theorem readLE_code (k : Nat) : PrefixCode (readLE k) (leBytes k) (· < 256 ^ k) where
  read_write := fun _ hn rest => readLE_leBytes hn rest
  sound := fun hr => readLE_eq_leBytes hr

theorem ReadUInt32_code : PrefixCode ReadUInt32 WriteUInt32 (fun _ => True) :=
  (readLE_code 4).map (fun x _ => x.toNat_lt_size) (fun _ _ => UInt32.ofNat_toNat)
    (fun _ _ => trivial) (fun _ hn => UInt32.toNat_ofNat_of_lt' hn)

/-- A signed field of `k` bytes, on the signed range of its `8 * k` bits. -/
theorem readSigned_code (k : Nat) (hk : 0 < k) :
    PrefixCode (do let x ← readLE k; return toSigned (8 * k) x)
      (fun v => leBytes k (v % 2 ^ (8 * k)).toNat)
      (fun v => -2 ^ (8 * k - 1) ≤ v ∧ v < 2 ^ (8 * k - 1)) := by
  have hpow : (256 : Nat) ^ k = 2 ^ (8 * k) := by rw [pow_mul]; rfl
  refine (readLE_code k).map (fun v _ => ?_) (fun _ hv => toSigned_emod (by omega) hv.1 hv.2)
    (fun _ hx => toSigned_mem (8 * k) (by omega) (hpow ▸ hx))
    (fun _ hx => toSigned_emod_toNat (hpow ▸ hx))
  -- the pattern written for a signed value lies below `2 ^ (8 * k)`
  have hpos : (0 : Int) < 2 ^ (8 * k) := by exact_mod_cast Nat.two_pow_pos (8 * k)
  have hnn : 0 ≤ v % 2 ^ (8 * k) := Int.emod_nonneg v (by omega)
  have hlt : ((v % 2 ^ (8 * k)).toNat : Int) < 2 ^ (8 * k) := by
    rw [Int.toNat_of_nonneg hnn]
    exact Int.emod_lt_of_pos v hpos
  rw [hpow]
  exact_mod_cast hlt

theorem ReadInt32_code :
    PrefixCode ReadInt32 WriteInt32 (fun v => -2 ^ 31 ≤ v ∧ v < 2 ^ 31) :=
  readSigned_code 4 (by decide)

theorem ReadInt64_code :
    PrefixCode ReadInt64 WriteInt64 (fun v => -2 ^ 63 ≤ v ∧ v < 2 ^ 63) :=
  readSigned_code 8 (by decide)

theorem ReadUint256_code : PrefixCode ReadUint256 WriteUint256 (fun _ => True) :=
  (readLE_code 32).map (fun h _ => h.isLt) (fun h _ => BitVec.ofNat_toNat _ h)
    (fun _ _ => trivial) (fun _ hn => Nat.mod_eq_of_lt hn)

/-! ### Sizes, strings and vectors -/

theorem ReadCompactSize_code : PrefixCode ReadCompactSize WriteCompactSize (· ≤ MAX_SIZE) where
  read_write := fun _ hn rest => ReadCompactSize_WriteCompactSize hn rest
  sound := fun hr => ReadCompactSize_eq_some hr

/-- A vector of values of a prefix code, on the lists of at most `MAX_SIZE` values. -/
theorem ReadVector_code {α : Type} {r : Reader α} {w : α → List UInt8} {P : α → Prop}
    (h : PrefixCode r w P) :
    PrefixCode (ReadVector r) (WriteVector w) (fun v => v.length ≤ MAX_SIZE ∧ ∀ x ∈ v, P x) :=
  ReadCompactSize_code.counted h

/-- A byte string is a vector of bytes. -/
theorem ReadString_code : PrefixCode ReadString WriteString (fun s => s.length ≤ MAX_SIZE) := by
  have hread : ReadString = ReadVector readByte := by
    show (ReadCompactSize >>= fun n => readBytes n) =
      ReadCompactSize >>= fun n => readCount readByte n
    simp only [readBytes_eq_readCount]
  have hwrite : WriteString = WriteVector fun b => [b] := by
    funext s
    rw [WriteString, WriteVector, writeAll_singleton]
  have h := ReadVector_code readByte_code
  rw [← hread, ← hwrite] at h
  exact ⟨fun s hs rest => h.read_write s ⟨hs, fun _ _ => trivial⟩ rest,
    fun hr => ⟨(h.sound hr).1.1, (h.sound hr).2⟩⟩

end Ravencoin
