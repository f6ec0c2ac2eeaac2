import Ravencoin.Serialize

/-!
# Amounts, outpoints, transactions and coins

The data model of `amount.h`, `primitives/transaction.h`, `primitives/block.h` and `coins.h`
that the asset layer reads. Machine integers are `Int`/`Nat` values in their C++ ranges; a
`uint256` is a 256-bit vector.

## Main definitions

* `Ravencoin.CAmount`, `Ravencoin.COIN`, `Ravencoin.MAX_MONEY`, `Ravencoin.MoneyRange`.
* `Ravencoin.COutPoint`, `Ravencoin.CTxIn`, `Ravencoin.CTxOut`, `Ravencoin.CTransaction`,
  `Ravencoin.Coin`, `Ravencoin.CBlock`.
* `Ravencoin.CTransaction.GetSerializeSize` — the serialized size without witness, which
  `CheckTransaction` bounds.

## Implementation notes

`CTransaction` caches its hash in the C++ (`const uint256 hash`, computed from the
serialization by SHA-256d); the model keeps that cached field and does not embed SHA-256.
The transactions here carry no witness: nothing in the asset layer reads it, and the size bound
is taken without witness. Witnesses appear only in the wire format of `Primitives/Transaction.lean`,
whose `GetSerializeSize_eq_length` ties the size here to the writer. A block is its transaction
list and its (cached) header hash.
-/

set_option autoImplicit false

namespace Ravencoin

/-- `CAmount`: an `int64_t` count of the smallest unit. -/
abbrev CAmount := Int

/-- `COIN`. -/
def COIN : CAmount := 100000000

/-- `MAX_MONEY`. -/
def MAX_MONEY : CAmount := 21000000000 * COIN

/-- `int64_t` addition and subtraction as the compiled code performs them: signed overflow is
undefined in C++, and the machine wraps around modulo `2^64`. -/
def AddInt64 (a b : Int) : Int := ByteStream.wrap 64 (a + b)
def SubInt64 (a b : Int) : Int := ByteStream.wrap 64 (a - b)

/-- `MoneyRange`. -/
def MoneyRange (nValue : CAmount) : Bool := 0 ≤ nValue && nValue ≤ MAX_MONEY

/-- `uint256`. -/
abbrev uint256 := BitVec 256

/-- A script: `CScript` is a byte vector. -/
abbrev CScript := List UInt8

/-- `COutPoint`: a transaction hash and an output index. -/
structure COutPoint where
  hash : uint256
  n : UInt32
deriving DecidableEq, Repr

/-- `COutPoint::IsNull`. -/
def COutPoint.IsNull (o : COutPoint) : Bool := o.hash == 0 && o.n == 0xFFFFFFFF

/-- `CTxIn` (without its witness). -/
structure CTxIn where
  prevout : COutPoint
  scriptSig : CScript
  nSequence : UInt32
deriving DecidableEq, Repr

/-- `CTxOut`. -/
structure CTxOut where
  nValue : CAmount
  scriptPubKey : CScript
deriving DecidableEq, Repr

/-- `CTxOut::SetNull`: the empty output that marks a spent coin. -/
def CTxOut.Null : CTxOut := ⟨-1, []⟩

/-- `CTxOut::IsNull`. -/
def CTxOut.IsNull (o : CTxOut) : Bool := o.nValue == -1

/-- `CTransaction`, with its cached hash. -/
structure CTransaction where
  nVersion : Int
  vin : List CTxIn
  vout : List CTxOut
  nLockTime : UInt32
  hash : uint256
deriving DecidableEq, Repr

/-- `CTransaction::GetHash`. -/
def CTransaction.GetHash (tx : CTransaction) : uint256 := tx.hash

/-- `CTransaction::IsCoinBase`: exactly one input, whose outpoint is null. -/
def CTransaction.IsCoinBase (tx : CTransaction) : Bool :=
  match tx.vin with
  | [i] => i.prevout.IsNull
  | _ => false

/-- The serialized size of an input. -/
def CTxIn.SerializeSize (i : CTxIn) : Nat :=
  36 + GetSizeOfCompactSize i.scriptSig.length + i.scriptSig.length + 4

/-- The serialized size of an output. -/
def CTxOut.SerializeSize (o : CTxOut) : Nat :=
  8 + GetSizeOfCompactSize o.scriptPubKey.length + o.scriptPubKey.length

/-- `GetSerializeSize(tx, SER_NETWORK, PROTOCOL_VERSION | SERIALIZE_TRANSACTION_NO_WITNESS)`:
version, inputs, outputs and lock time. -/
def CTransaction.GetSerializeSize (tx : CTransaction) : Nat :=
  4 + GetSizeOfCompactSize tx.vin.length + (tx.vin.map CTxIn.SerializeSize).sum +
    GetSizeOfCompactSize tx.vout.length + (tx.vout.map CTxOut.SerializeSize).sum + 4

/-- `WITNESS_SCALE_FACTOR`. -/
def WITNESS_SCALE_FACTOR : Nat := 4

/-- `GetMaxBlockWeight()`, which returns `MAX_BLOCK_WEIGHT_RIP2`. -/
def GetMaxBlockWeight : Nat := 8000000

/-- `COINBASE_MATURITY`. -/
def COINBASE_MATURITY : Int := 100

/-- `Coin`: an unspent output with the height and coinbase flag of its transaction. -/
structure Coin where
  out : CTxOut
  fCoinBase : Bool
  nHeight : Nat
deriving DecidableEq, Repr

/-- `Coin::IsSpent`. -/
def Coin.IsSpent (c : Coin) : Bool := c.out.IsNull

/-- `Coin::Clear`: the empty (spent) coin. -/
def Coin.Empty : Coin := ⟨CTxOut.Null, false, 0⟩

/-- `CBlock`: the transactions, the (cached) header hash, the header's `hashPrevBlock` and
version, and the memo `fChecked` that `CheckBlock` sets once it has passed with proof-of-work
and merkle checks. -/
structure CBlock where
  vtx : List CTransaction
  hash : uint256
  hashPrevBlock : uint256
  nVersion : Int
  fChecked : Bool
deriving DecidableEq, Repr

/-- `CBlock::GetHash`. -/
def CBlock.GetHash (b : CBlock) : uint256 := b.hash

end Ravencoin
