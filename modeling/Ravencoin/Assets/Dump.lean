import Ravencoin.Assets.CacheOps

/-!
# Writing `passets` to the database (`CAssetsCache::DumpCacheToDatabase`)

`FlushStateToDisk` calls `passets->DumpCacheToDatabase()`, which walks the dirty sets of
`passets` in order, writes asset records and address balances to `passetsdb`, keeps
`passetsCache` in step with the records it writes or erases, and then clears `passets`.

## Main definitions

* `Ravencoin.CAssetsDB.WriteQuantity`, `Ravencoin.CAssetsDB.EraseQuantity` — the paired
  writes to the asset→address and address→asset balance indexes.
* `Ravencoin.DumpCacheToDatabase`.

## Implementation notes

Every database write and erase succeeds in the model, so the C++ never leaves through one of
its `dirty` error returns and the dump always returns `true`.
-/

set_option autoImplicit false

namespace Ravencoin

/-! ### Database writes -/

/-- `WriteAssetData(asset, nHeight, blockHash)`: the record is stored under the asset's name. -/
def CAssetsDB.WriteAssetData (db : CAssetsDB) (asset : CNewAsset) (nHeight : Int)
    (blockHash : uint256) : CAssetsDB :=
  { db with assetData := db.assetData.insert asset.strName ⟨asset, nHeight, blockHash⟩ }

/-- `EraseAssetData`. -/
def CAssetsDB.EraseAssetData (db : CAssetsDB) (name : List UInt8) : CAssetsDB :=
  { db with assetData := db.assetData.erase name }

/-- `WriteAssetAddressQuantity` together with `WriteAddressAssetQuantity`. -/
def CAssetsDB.WriteQuantity (db : CAssetsDB) (name address : List UInt8) (q : CAmount) :
    CAssetsDB :=
  { db with assetAddressQuantity := db.assetAddressQuantity.insert (name, address) q
            addressAssetQuantity := db.addressAssetQuantity.insert (address, name) q }

/-- `EraseAssetAddressQuantity` together with `EraseAddressAssetQuantity`. -/
def CAssetsDB.EraseQuantity (db : CAssetsDB) (name address : List UInt8) : CAssetsDB :=
  { db with assetAddressQuantity := db.assetAddressQuantity.erase (name, address)
            addressAssetQuantity := db.addressAssetQuantity.erase (address, name) }

/-- The three ways the dump writes a balance the cache holds for a pair: only when the cache
holds it (`.always`), only when it is positive (`.positive`), or erasing the records when it
is `0` (`.eraseZero`). -/
inductive QuantityWrite
  | always
  | positive
  | eraseZero

/-- Write the cache's balance of a pair to the database, the way the dump's loop does. -/
def WriteBalance (map : AList fun _ : AssetAddress => CAmount) (mode : QuantityWrite)
    (name address : List UInt8) (db : CAssetsDB) : CAssetsDB :=
  match map.lookup (name, address), mode with
  | none, _ => db
  | some q, .always => db.WriteQuantity name address q
  | some q, .positive => if q > 0 then db.WriteQuantity name address q else db
  | some q, .eraseZero => if q = 0 then db.EraseQuantity name address else db.WriteQuantity name address q

/-! ### The dump -/

/-- The state the dump changes: `passetsCache` and `passetsdb`. -/
abbrev DumpState := LRUCache (List UInt8) AssetRecord × CAssetsDB

section Dump

variable (fAssetIndex : Bool) (c : CAssetsCache)

/-- The loop over `setNewAssetsToRemove`. -/
def DumpRemovedAsset (s : DumpState) (e : CAssetCacheNewAsset) : DumpState :=
  let db := s.2.EraseAssetData e.asset.strName
  (s.1.Erase e.asset.strName, if fAssetIndex then db.EraseQuantity e.asset.strName e.address else db)

/-- The loop over `setNewAssetsToAdd`. -/
def DumpAddedAsset (s : DumpState) (e : CAssetCacheNewAsset) : DumpState :=
  let db := s.2.WriteAssetData e.asset e.blockHeight e.blockHash
  (s.1.Put e.asset.strName ⟨e.asset, e.blockHeight, e.blockHash⟩,
    if fAssetIndex then db.WriteQuantity e.asset.strName e.address e.asset.nAmount else db)

/-- The loop over `setNewReissueToAdd`: the reissued metadata is written with the height and
hash of the reissue entry. -/
def DumpAddedReissue (s : DumpState) (e : CAssetCacheReissueAsset) : DumpState :=
  let name := e.reissue.strName
  match c.mapReissuedAssetData.lookup name with
  | none => s
  | some asset =>
    let db := s.2.WriteAssetData asset e.blockHeight e.blockHash
    (s.1.Erase name,
      if fAssetIndex then WriteBalance c.mapAssetsAddressAmount .positive name e.address db else db)

/-- The loop over `setNewReissueToRemove`: skipped when the issue itself is being removed. -/
def DumpRemovedReissue (s : DumpState) (e : CAssetCacheReissueAsset) : DumpState :=
  let name := e.reissue.strName
  if c.setNewAssetsToRemove.contains name then s
  else
    match c.mapReissuedAssetData.lookup name with
    | none => s
    | some asset =>
      let db := s.2.WriteAssetData asset e.blockHeight e.blockHash
      (s.1.Erase name,
        if fAssetIndex then WriteBalance c.mapAssetsAddressAmount .eraseZero name e.address db else db)

/-- The balance loops run with the asset index on: removed owners, added owners, undone
transfers, new transfers; after the reissue loops, undone spends and spends. -/
def DumpOwnerAndTransferBalances (db : CAssetsDB) : CAssetsDB :=
  let map := c.mapAssetsAddressAmount
  let db := c.setNewOwnerAssetsToRemove.toList.foldl (fun db o => db.EraseQuantity o.assetName o.address) db
  let db := c.setNewOwnerAssetsToAdd.toList.foldl
    (fun db o => WriteBalance map .positive o.assetName o.address db) db
  let db := c.setNewTransferAssetsToRemove.toList.foldl
    (fun db t => WriteBalance map .eraseZero t.transfer.strName t.address db) db
  c.setNewTransferAssetsToAdd.toList.foldl
    (fun db t => WriteBalance map .always t.transfer.strName t.address db) db

/-- The spend loops run with the asset index on. -/
def DumpSpendBalances (db : CAssetsDB) : CAssetsDB :=
  let map := c.mapAssetsAddressAmount
  let db := c.vUndoAssetAmount.foldl (fun db u => WriteBalance map .always u.assetName u.address db) db
  c.vSpentAssets.foldl (fun db u => WriteBalance map .eraseZero u.assetName u.address db) db

end Dump

/-- `DumpCacheToDatabase` on `passets`: the loops in the C++ order, then `ClearDirtyCache`. -/
def DumpCacheToDatabase (fAssetIndex : Bool) (g : AssetGlobals) : AssetGlobals :=
  let c := g.passets
  let s : DumpState := (g.passetsCache, g.passetsdb)
  let s := c.setNewAssetsToRemove.toList.foldl (DumpRemovedAsset fAssetIndex) s
  let s := c.setNewAssetsToAdd.toList.foldl (DumpAddedAsset fAssetIndex) s
  let s := if fAssetIndex then (s.1, DumpOwnerAndTransferBalances c s.2) else s
  let s := c.setNewReissueToAdd.toList.foldl (DumpAddedReissue fAssetIndex c) s
  let s := c.setNewReissueToRemove.toList.foldl (DumpRemovedReissue fAssetIndex c) s
  let s := if fAssetIndex then (s.1, DumpSpendBalances c s.2) else s
  { passets := CAssetsCache.empty, passetsCache := s.1, passetsdb := s.2 }

end Ravencoin
