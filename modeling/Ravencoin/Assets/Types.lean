import Ravencoin.Script.Script

/-!
# Asset objects and their encodings (`assets/assettypes.h`)

The three asset payloads — a new asset (`CNewAsset`), a transfer (`CAssetTransfer`) and a
reissue (`CReissueAsset`) — with the `SerializationOp` that reads and writes them, and the
`ConstructTransaction` methods that append an asset payload to a script as
`OP_RVN_ASSET <"rvn" tag payload> OP_DROP`.

## Main definitions

* `Ravencoin.CNewAsset`, `Ravencoin.CAssetTransfer`, `Ravencoin.CReissueAsset`.
* `Ravencoin.CNewAsset.Unserialize` and friends — `ssAsset >> asset` from a fresh object.
* `Ravencoin.CNewAsset.ConstructTransaction`, `ConstructOwnerTransaction`,
  `Ravencoin.CAssetTransfer.ConstructTransaction`, `Ravencoin.CReissueAsset.ConstructTransaction`.
* `Ravencoin.CDatabasedAssetData`, `Ravencoin.CBlockAssetUndo`.

## Implementation notes

The `int8_t` fields are `Int`s in `[-128, 128)`; the reader's `ReadInt8` produces exactly
those. The IPFS hash is read only when at least 34 bytes remain in the stream, exactly as
`ReadWriteIPFSHash` tests `s.size() >= 34`; the bytes then read are a marker byte and a
`std::string`, of which the first 32 bytes are kept behind the two-byte multihash prefix.
-/

set_option autoImplicit false

namespace Ravencoin

open ByteStream

/-- `AssetType`. -/
inductive AssetType
  | ROOT
  | SUB
  | UNIQUE
  | OWNER
  | MSGCHANNEL
  | VOTE
  | REISSUE
  | INVALID
deriving DecidableEq, Repr

/-- `MAX_UNIT`. -/
def MAX_UNIT : Int := 8

/-- `OWNER_TAG`, the suffix of an owner token's name. -/
def OWNER_TAG : List UInt8 := str "!"

/-- `OWNER_ASSET_AMOUNT` and `UNIQUE_ASSET_AMOUNT`: one whole unit. -/
def OWNER_ASSET_AMOUNT : CAmount := 1 * COIN
def UNIQUE_ASSET_AMOUNT : CAmount := 1 * COIN

/-- `UNIQUE_ASSET_UNITS`. -/
def UNIQUE_ASSET_UNITS : Int := 0

/-- `MIN_ASSET_LENGTH` and `OWNER_LENGTH`. -/
def MIN_ASSET_LENGTH : Nat := 3
def OWNER_LENGTH : Nat := 1

/-- `CNewAsset`. -/
structure CNewAsset where
  strName : List UInt8
  nAmount : CAmount
  units : Int
  nReissuable : Int
  nHasIPFS : Int
  strIPFSHash : List UInt8
deriving DecidableEq, Repr

/-- `CNewAsset::SetNull`. -/
def CNewAsset.Null : CNewAsset := ⟨[], 0, MAX_UNIT, 0, 0, []⟩

/-- `CAssetTransfer`. -/
structure CAssetTransfer where
  strName : List UInt8
  nAmount : CAmount
deriving DecidableEq, Repr

/-- `CReissueAsset`. -/
structure CReissueAsset where
  strName : List UInt8
  nAmount : CAmount
  nUnits : Int
  nReissuable : Int
  strIPFSHash : List UInt8
deriving DecidableEq, Repr

/-- `CDatabasedAssetData`: an asset with the height and block of its issue. -/
structure CDatabasedAssetData where
  asset : CNewAsset
  nHeight : Int
  blockHash : uint256
deriving DecidableEq, Repr

/-- `CBlockAssetUndo`: what a reissue changed, and the values it replaced. -/
structure CBlockAssetUndo where
  fChangedIPFS : Bool
  fChangedUnits : Bool
  strIPFS : List UInt8
  nUnits : Int
deriving DecidableEq, Repr

/-! ### Reading -/

/-- `IPFS_SHA2_256` and `IPFS_SHA2_256_LEN`, the multihash prefix of an IPFS hash. -/
def IPFS_SHA2_256 : UInt8 := 0x12
def IPFS_SHA2_256_LEN : UInt8 := 0x20

/-- `ReadWriteIPFSHash` when reading: with at least 34 bytes left, a marker byte and a string
whose first 32 bytes follow the multihash prefix; otherwise the empty hash. -/
def ReadIPFSHash : Reader (List UInt8) := do
  let n ← remaining
  if n ≠ 0 ∧ n ≥ 34 then
    let _sha2_256 ← ReadInt8
    let hash ← ReadString
    return IPFS_SHA2_256 :: IPFS_SHA2_256_LEN :: hash.take 32
  else return []

/-- `ssAsset >> asset` into a `CNewAsset`. -/
def CNewAsset.Unserialize : Reader CNewAsset := do
  let strName ← ReadString
  let nAmount ← ReadInt64
  let units ← ReadInt8
  let nReissuable ← ReadInt8
  let nHasIPFS ← ReadInt8
  let strIPFSHash ← if nHasIPFS = 1 then ReadIPFSHash else pure []
  return { strName, nAmount, units, nReissuable, nHasIPFS, strIPFSHash }

/-- `ssAsset >> assetTransfer` into a `CAssetTransfer`. -/
def CAssetTransfer.Unserialize : Reader CAssetTransfer := do
  let strName ← ReadString
  let nAmount ← ReadInt64
  return { strName, nAmount }

/-- `ssReissue >> reissue` into a `CReissueAsset`. -/
def CReissueAsset.Unserialize : Reader CReissueAsset := do
  let strName ← ReadString
  let nAmount ← ReadInt64
  let nUnits ← ReadInt8
  let nReissuable ← ReadInt8
  let strIPFSHash ← ReadIPFSHash
  return { strName, nAmount, nUnits, nReissuable, strIPFSHash }

/-! ### Writing -/

/-- `ReadWriteIPFSHash` when writing: a 34-byte hash is written as its marker byte and the
string of its last 32 bytes; any other hash is not written. -/
def WriteIPFSHash (strIPFSHash : List UInt8) : List UInt8 :=
  if strIPFSHash.length = 34 then IPFS_SHA2_256 :: WriteString (strIPFSHash.drop 2) else []

/-- `ssAsset << asset` for a `CNewAsset`. -/
def CNewAsset.Serialize (a : CNewAsset) : List UInt8 :=
  WriteString a.strName ++ WriteInt64 a.nAmount ++ WriteInt8 a.units ++ WriteInt8 a.nReissuable ++
    WriteInt8 a.nHasIPFS ++ (if a.nHasIPFS = 1 then WriteIPFSHash a.strIPFSHash else [])

/-- `ssTransfer << transfer` for a `CAssetTransfer`. -/
def CAssetTransfer.Serialize (t : CAssetTransfer) : List UInt8 :=
  WriteString t.strName ++ WriteInt64 t.nAmount

/-- `ssReissue << reissue` for a `CReissueAsset`. -/
def CReissueAsset.Serialize (r : CReissueAsset) : List UInt8 :=
  WriteString r.strName ++ WriteInt64 r.nAmount ++ WriteInt8 r.nUnits ++ WriteInt8 r.nReissuable ++
    WriteIPFSHash r.strIPFSHash

/-- `script << OP_RVN_ASSET << ToByteVector(vchMessage) << OP_DROP` with the message `"rvn"`,
the type tag and the payload. -/
def AppendAssetPayload (script : CScript) (tag : UInt8) (payload : List UInt8) : CScript :=
  script ++ [OP_RVN_ASSET] ++ PushData ([RVN_R, RVN_V, RVN_N, tag] ++ payload) ++ [OP_DROP]

/-- `CNewAsset::ConstructTransaction`. -/
def CNewAsset.ConstructTransaction (a : CNewAsset) (script : CScript) : CScript :=
  AppendAssetPayload script RVN_Q a.Serialize

/-- `CNewAsset::ConstructOwnerTransaction`: the owner token `strName + "!"`. -/
def CNewAsset.ConstructOwnerTransaction (a : CNewAsset) (script : CScript) : CScript :=
  AppendAssetPayload script RVN_O (WriteString (a.strName ++ OWNER_TAG))

/-- `CAssetTransfer::ConstructTransaction`. -/
def CAssetTransfer.ConstructTransaction (t : CAssetTransfer) (script : CScript) : CScript :=
  AppendAssetPayload script RVN_T t.Serialize

/-- `CReissueAsset::ConstructTransaction`. -/
def CReissueAsset.ConstructTransaction (r : CReissueAsset) (script : CScript) : CScript :=
  AppendAssetPayload script RVN_R r.Serialize

end Ravencoin
