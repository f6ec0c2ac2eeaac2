import Mathlib.Data.List.AList
import Ravencoin.Lib.KeyedSet
import Ravencoin.Lib.LRU
import Ravencoin.Assets.Scripts

/-!
# The asset cache and its lookups (`CAssetsCache`, `assets/assets.h`)

The asset state of a node lives in three layers: the database `passetsdb`, the global
dirty cache `passets` with the LRU cache `passetsCache` of database records, and the
short-lived `CAssetsCache` objects that block connection and disconnection fill and then
`Flush` into `passets`. A `CAssetsCache` records its changes as sets of entries to add and to
remove, a map of reissued metadata, a map of address balances, and lists of spends.

## Main definitions

* `Ravencoin.CAssetsCache` — the fields of the C++ class, the sets ordered by their keys.
* `Ravencoin.CAssetsDB` — the records of the asset database that the cache reads and writes.
* `Ravencoin.AssetGlobals` — `passets`, `passetsCache` and `passetsdb`.
* `Ravencoin.AssetsCtx` — the state a method of a `CAssetsCache` runs in: the cache it is
  called on and the globals.
* `Ravencoin.CheckIfAssetExists`, `Ravencoin.GetAssetMetaDataIfExists`,
  `Ravencoin.GetBestAssetAddressAmount`.

## Main results

* `Ravencoin.AssetsCtx.setLRU_self`, `Ravencoin.AssetsCtx.modifySelf_g` and the other setter
  lemmas — the part of the context each setter changes, for `simp`.

## Implementation notes

`std::string` keys compare bytewise as `unsigned char`, which is the order of `List UInt8`;
`COutPoint` compares its hash with `memcmp` on the little-endian bytes of `base_blob`, then
its index. The pointers `passetsCache` and `passetsdb` are taken to be set, as they are once
the node has started. A database write or erase is taken to succeed.
-/

set_option autoImplicit false

namespace Ravencoin

/-! ### Keys and entries -/

/-- `std::string::operator<`. -/
def StringLt (a b : List UInt8) : Bool := decide (a < b)

/-- The bytes of a `uint256` as `base_blob` stores them, least significant first. -/
def uint256.bytes (h : uint256) : List UInt8 :=
  (List.range 32).map fun i => (h.toNat / 256 ^ i % 256).toUInt8

/-- `COutPoint::operator<`: `memcmp` of the hashes, then the index. -/
def COutPoint.lt (a b : COutPoint) : Bool :=
  decide (a.hash.bytes < b.hash.bytes) || (a.hash == b.hash && decide (a.n < b.n))

/-- `CDatabasedAssetData` as the database and `passetsCache` store it. -/
abbrev AssetRecord := CDatabasedAssetData

/-- `CAssetCacheNewAsset`: an issue, ordered by the asset name. -/
structure CAssetCacheNewAsset where
  asset : CNewAsset
  address : List UInt8
  blockHash : uint256
  blockHeight : Int
deriving DecidableEq, Repr

/-- `CAssetCacheReissueAsset`: a reissue, ordered by its outpoint. -/
structure CAssetCacheReissueAsset where
  reissue : CReissueAsset
  address : List UInt8
  out : COutPoint
  blockHash : uint256
  blockHeight : Int
deriving DecidableEq, Repr

/-- `CAssetCacheNewTransfer`: a transfer output, ordered by its outpoint. -/
structure CAssetCacheNewTransfer where
  transfer : CAssetTransfer
  address : List UInt8
  out : COutPoint
deriving DecidableEq, Repr

/-- `CAssetCacheNewOwner`: an owner token, ordered by its name. -/
structure CAssetCacheNewOwner where
  assetName : List UInt8
  address : List UInt8
deriving DecidableEq, Repr

/-- `CAssetCacheUndoAssetAmount` and `CAssetCacheSpendAsset`: a balance change to write. -/
structure CAssetCacheAmount where
  assetName : List UInt8
  address : List UInt8
  nAmount : CAmount
deriving DecidableEq, Repr

/-- The keys the comparators of the four entry kinds compare. -/
def CAssetCacheNewAsset.key (e : CAssetCacheNewAsset) : List UInt8 := e.asset.strName
def CAssetCacheReissueAsset.key (e : CAssetCacheReissueAsset) : COutPoint := e.out
def CAssetCacheNewTransfer.key (e : CAssetCacheNewTransfer) : COutPoint := e.out
def CAssetCacheNewOwner.key (e : CAssetCacheNewOwner) : List UInt8 := e.assetName

abbrev NewAssetSet := KeyedSet CAssetCacheNewAsset.key StringLt
abbrev ReissueSet := KeyedSet CAssetCacheReissueAsset.key COutPoint.lt
abbrev TransferSet := KeyedSet CAssetCacheNewTransfer.key COutPoint.lt
abbrev OwnerSet := KeyedSet CAssetCacheNewOwner.key StringLt

/-- An (asset name, address) pair, the key of the balance maps. -/
abbrev AssetAddress := List UInt8 × List UInt8

/-! ### The cache, the database and the globals -/

/-- `CAssetsCache`. -/
structure CAssetsCache where
  mapAssetsAddressAmount : AList fun _ : AssetAddress => CAmount
  mapReissuedAssetData : AList fun _ : List UInt8 => CNewAsset
  vUndoAssetAmount : List CAssetCacheAmount
  vSpentAssets : List CAssetCacheAmount
  setNewAssetsToRemove : NewAssetSet
  setNewAssetsToAdd : NewAssetSet
  setNewReissueToRemove : ReissueSet
  setNewReissueToAdd : ReissueSet
  setNewOwnerAssetsToAdd : OwnerSet
  setNewOwnerAssetsToRemove : OwnerSet
  setNewTransferAssetsToAdd : TransferSet
  setNewTransferAssetsToRemove : TransferSet

/-- `CAssetsCache()`: the empty cache (`ClearDirtyCache`). -/
def CAssetsCache.empty : CAssetsCache :=
  ⟨∅, ∅, [], [], ∅, ∅, ∅, ∅, ∅, ∅, ∅, ∅⟩

/-- The records of `CAssetsDB` the asset layer uses: asset data by name, the two balance
indexes, and the undo data of each block. -/
structure CAssetsDB where
  assetData : AList fun _ : List UInt8 => AssetRecord
  assetAddressQuantity : AList fun _ : AssetAddress => CAmount
  addressAssetQuantity : AList fun _ : AssetAddress => CAmount
  blockUndoAssetData : AList fun _ : uint256 => List (List UInt8 × CBlockAssetUndo)

/-- `ReadAssetData`. -/
def CAssetsDB.ReadAssetData (db : CAssetsDB) (name : List UInt8) : Option AssetRecord :=
  db.assetData.lookup name

/-- `ReadAssetAddressQuantity`. -/
def CAssetsDB.ReadAssetAddressQuantity (db : CAssetsDB) (pair : AssetAddress) : Option CAmount :=
  db.assetAddressQuantity.lookup pair

/-- `MAX_CACHE_ASSETS_SIZE`, the bound of `passetsCache`. -/
def MAX_CACHE_ASSETS_SIZE : Nat := 2500

/-- The globals of the asset layer: `passets`, `passetsCache` and `passetsdb`. -/
structure AssetGlobals where
  passets : CAssetsCache
  passetsCache : LRUCache (List UInt8) AssetRecord
  passetsdb : CAssetsDB

/-- `CAssetsDB` with no records. -/
def CAssetsDB.empty : CAssetsDB := ⟨∅, ∅, ∅, ∅⟩

/-- The asset globals of a node that has seen no asset. -/
def AssetGlobals.empty : AssetGlobals :=
  ⟨CAssetsCache.empty, LRUCache.empty MAX_CACHE_ASSETS_SIZE, CAssetsDB.empty⟩

/-- The node's fixed configuration the asset layer reads: the hash functions, the chain
parameters, the `-assetindex` flag `fAssetIndex`, and the value that the uninitialised
`int assetHeight` of `AddReissueAsset` holds when it is read. -/
structure NodeConfig where
  H : Hashes
  P : CChainParams
  fAssetIndex : Bool
  nIndeterminateHeight : Int

/-- The configuration of concrete runs: the sample hashes, the main network, no asset index. -/
def SampleConfig : NodeConfig := ⟨SampleHashes, MainParams, false, 0⟩

/-- The state a method of `CAssetsCache` runs in: the cache it is called on and the
globals. -/
structure AssetsCtx where
  self : CAssetsCache
  g : AssetGlobals

/-- Replace `passetsCache`. -/
def AssetsCtx.setLRU (ctx : AssetsCtx) (lru : LRUCache (List UInt8) AssetRecord) : AssetsCtx :=
  { ctx with g := { ctx.g with passetsCache := lru } }

/-- Update the cache the method runs on. -/
def AssetsCtx.modifySelf (ctx : AssetsCtx) (f : CAssetsCache → CAssetsCache) : AssetsCtx :=
  { ctx with self := f ctx.self }

@[simp] theorem AssetsCtx.setLRU_self (ctx : AssetsCtx) (lru : LRUCache (List UInt8) AssetRecord) :
    (ctx.setLRU lru).self = ctx.self := rfl

@[simp] theorem AssetsCtx.setLRU_passets (ctx : AssetsCtx)
    (lru : LRUCache (List UInt8) AssetRecord) : (ctx.setLRU lru).g.passets = ctx.g.passets := rfl

@[simp] theorem AssetsCtx.setLRU_passetsdb (ctx : AssetsCtx)
    (lru : LRUCache (List UInt8) AssetRecord) : (ctx.setLRU lru).g.passetsdb = ctx.g.passetsdb :=
  rfl

@[simp] theorem AssetsCtx.modifySelf_self (ctx : AssetsCtx) (f : CAssetsCache → CAssetsCache) :
    (ctx.modifySelf f).self = f ctx.self := rfl

@[simp] theorem AssetsCtx.modifySelf_g (ctx : AssetsCtx) (f : CAssetsCache → CAssetsCache) :
    (ctx.modifySelf f).g = ctx.g := rfl

/-- Run a method on `passets` itself, as `GetCurrentAssetCache()->...` does; the method must
be one that leaves its own cache unchanged, as the lookups do. -/
def onPassets {α : Type} (m : AssetsCtx → α × AssetsCtx) (g : AssetGlobals) : α × AssetGlobals :=
  let r := m ⟨g.passets, g⟩
  (r.1, r.2.g)

/-! ### Lookups

A method of `CAssetsCache` is a function from the state it runs in to its result and the new
state. -/

/-- `CheckIfAssetExists(name, fForceDuplicateCheck)`: the sets of removed assets first, then
the sets of added ones, then `passetsCache`, then the database (whose record goes into
`passetsCache`). Outside the sets of removed assets, a hit counts only when
`fForceDuplicateCheck` is set. -/
def CheckIfAssetExists (name : List UInt8) (fForceDuplicateCheck : Bool) (ctx : AssetsCtx) :
    Bool × AssetsCtx :=
  if ctx.self.setNewAssetsToRemove.contains name then (false, ctx)
  else if ctx.g.passets.setNewAssetsToRemove.contains name then (false, ctx)
  else if ctx.self.setNewAssetsToAdd.contains name && fForceDuplicateCheck then (true, ctx)
  else if ctx.g.passets.setNewAssetsToAdd.contains name && fForceDuplicateCheck then (true, ctx)
  else if ctx.g.passetsCache.Exists name then (fForceDuplicateCheck, ctx)
  else
    match ctx.g.passetsdb.ReadAssetData name with
    | none => (false, ctx)
    | some data =>
      (fForceDuplicateCheck, ctx.setLRU (ctx.g.passetsCache.Put data.asset.strName data))

/-- `GetAssetMetaDataIfExists(name, asset, nHeight, blockHash)`: the reissue maps first, then
the sets of removed and added assets, then `passetsCache`, then the database. The height and
block hash are `none` when the branch that found the asset does not set them. -/
def GetAssetMetaDataIfExists (name : List UInt8) (ctx : AssetsCtx) :
    Option (CNewAsset × Option (Int × uint256)) × AssetsCtx :=
  match ctx.self.mapReissuedAssetData.lookup name with
  | some asset => (some (asset, none), ctx)
  | none =>
  match ctx.g.passets.mapReissuedAssetData.lookup name with
  | some asset => (some (asset, none), ctx)
  | none =>
  if ctx.self.setNewAssetsToRemove.contains name then (none, ctx)
  else if ctx.g.passets.setNewAssetsToRemove.contains name then (none, ctx)
  else
  match ctx.self.setNewAssetsToAdd.find? name with
  | some e => (some (e.asset, some (e.blockHeight, e.blockHash)), ctx)
  | none =>
  match ctx.g.passets.setNewAssetsToAdd.find? name with
  | some e => (some (e.asset, some (e.blockHeight, e.blockHash)), ctx)
  | none =>
  match ctx.g.passetsCache.Get name with
  | some (data, lru) => (some (data.asset, some (data.nHeight, data.blockHash)), ctx.setLRU lru)
  | none =>
  match ctx.g.passetsdb.ReadAssetData name with
  | some data =>
    (some (data.asset, some (data.nHeight, data.blockHash)),
      ctx.setLRU (ctx.g.passetsCache.Put data.asset.strName data))
  | none => (none, ctx)

/-- `GetBestAssetAddressAmount(cache, name, address)`: with the asset index on, make sure the
cache's balance map holds the pair, copying it from `passets` or the database. -/
def GetBestAssetAddressAmount (fAssetIndex : Bool) (pair : AssetAddress) (ctx : AssetsCtx) :
    Bool × AssetsCtx :=
  if !fAssetIndex then (false, ctx)
  else if (ctx.self.mapAssetsAddressAmount.lookup pair).isSome then (true, ctx)
  else
    match ctx.g.passets.mapAssetsAddressAmount.lookup pair with
    | some amount =>
      (true, ctx.modifySelf fun c =>
        { c with mapAssetsAddressAmount := c.mapAssetsAddressAmount.insert pair amount })
    | none =>
    match ctx.g.passetsdb.ReadAssetAddressQuantity pair with
    | some amount =>
      (true, ctx.modifySelf fun c =>
        { c with mapAssetsAddressAmount := c.mapAssetsAddressAmount.insert pair amount })
    | none => (false, ctx)

/-! ### Facts -/

end Ravencoin
