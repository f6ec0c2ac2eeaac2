import Ravencoin.Assets.Cache

/-!
# Changing the asset cache (`CAssetsCache` methods, `assets/assets.cpp`)

The methods that block connection calls for each asset output and input (`AddNewAsset`,
`AddOwnerAsset`, `AddReissueAsset`, `AddTransferAsset`, `TrySpendCoin`), the methods that
block disconnection calls to undo them (`RemoveNewAsset`, `RemoveOwnerAsset`,
`RemoveReissueAsset`, `RemoveTransfer`, `UndoAssetCoin`), and `Flush`, which merges a cache
into `passets`.

## Main definitions

* `Ravencoin.AddNewAsset` … `Ravencoin.TrySpendCoin` — each returns the C++ return value and
  the new state.
* `Ravencoin.ApplyReissue` — what a reissue does to an asset's metadata.
* `Ravencoin.Flush` — `CAssetsCache::Flush`.

## Main results

* `Ravencoin.undone_issue_keeps_metadata` — undoing an issue whose reissue was undone first
  leaves the reissued metadata in the cache, so the two lookups of the cache then disagree on
  the name.

## Implementation notes

Amounts in the balance map change by `int64_t` arithmetic, which the model wraps modulo
`2^64` (`AddInt64`). `std::set::insert` does not replace an element with the same key, and
`std::map::insert` does not replace a value; `operator[]` does.
-/

set_option autoImplicit false

namespace Ravencoin

open txnouttype

/-! ### The balance map -/

/-- The balance the cache holds for a pair, `0` where `operator[]` would create it. -/
def CAssetsCache.balance (c : CAssetsCache) (pair : AssetAddress) : CAmount :=
  (c.mapAssetsAddressAmount.lookup pair).getD 0

/-- `mapAssetsAddressAmount[pair] = amount`. -/
def setBalance (pair : AssetAddress) (amount : CAmount) (ctx : AssetsCtx) : AssetsCtx :=
  ctx.modifySelf fun c => { c with mapAssetsAddressAmount := c.mapAssetsAddressAmount.insert pair amount }

/-- `if (!GetBestAssetAddressAmount(*this, name, address)) mapAssetsAddressAmount.insert(pair, 0)`:
the pair is in the cache's map afterwards. -/
def LoadBalanceOrZero (fAssetIndex : Bool) (pair : AssetAddress) (ctx : AssetsCtx) : AssetsCtx :=
  let (found, ctx) := GetBestAssetAddressAmount fAssetIndex pair ctx
  if found || (ctx.self.mapAssetsAddressAmount.lookup pair).isSome then ctx else setBalance pair 0 ctx

@[simp] theorem setBalance_g (pair : AssetAddress) (amount : CAmount) (ctx : AssetsCtx) :
    (setBalance pair amount ctx).g = ctx.g := rfl

@[simp] theorem balance_setBalance (pair pair' : AssetAddress) (amount : CAmount)
    (ctx : AssetsCtx) :
    (setBalance pair amount ctx).self.balance pair' =
      if pair' = pair then amount else ctx.self.balance pair' := by
  simp only [setBalance, AssetsCtx.modifySelf_self, CAssetsCache.balance]
  split_ifs with hp
  · rw [hp, AList.lookup_insert]
    rfl
  · rw [AList.lookup_insert_ne hp]

section Methods

variable (cfg : NodeConfig)

/-! ### Issues, owners and transfers -/

/-- `AddToAssetBalance`: with the asset index on, an owner token sets the balance to
`OWNER_ASSET_AMOUNT`, any other asset adds its amount. -/
def AddToAssetBalance (strName address : List UInt8) (nAmount : CAmount) (ctx : AssetsCtx) :
    AssetsCtx :=
  if cfg.fAssetIndex then
    let pair := (strName, address)
    let ctx := LoadBalanceOrZero cfg.fAssetIndex pair ctx
    if IsAssetNameAnOwner strName then setBalance pair OWNER_ASSET_AMOUNT ctx
    else setBalance pair (AddInt64 (ctx.self.balance pair) nAmount) ctx
  else ctx

/-- `AddTransferAsset`. -/
def AddTransferAsset (transfer : CAssetTransfer) (address : List UInt8) (out : COutPoint)
    (ctx : AssetsCtx) : Bool × AssetsCtx :=
  let ctx := AddToAssetBalance cfg transfer.strName address transfer.nAmount ctx
  let newTransfer : CAssetCacheNewTransfer := ⟨⟨transfer.strName, transfer.nAmount⟩, address, out⟩
  (true, ctx.modifySelf fun c =>
    { c with setNewTransferAssetsToRemove := c.setNewTransferAssetsToRemove.erase out
             setNewTransferAssetsToAdd := c.setNewTransferAssetsToAdd.insert newTransfer })

/-- `AddNewAsset`: fails on an existing name; otherwise records the issue and, with the asset
index on, sets the balance of its address to the issued amount. -/
def AddNewAsset (asset : CNewAsset) (address : List UInt8) (nHeight : Int) (blockHash : uint256)
    (ctx : AssetsCtx) : Bool × AssetsCtx :=
  let (exists_, ctx) := CheckIfAssetExists asset.strName true ctx
  if exists_ then (false, ctx)
  else
    let newAsset : CAssetCacheNewAsset := ⟨asset, address, blockHash, nHeight⟩
    let ctx := ctx.modifySelf fun c =>
      { c with setNewAssetsToRemove := c.setNewAssetsToRemove.erase asset.strName
               setNewAssetsToAdd := c.setNewAssetsToAdd.insert newAsset }
    (true, if cfg.fAssetIndex then setBalance (asset.strName, address) asset.nAmount ctx else ctx)

/-- `RemoveNewAsset`: fails on a missing name; otherwise records the removal and, with the
asset index on, sets the balance of the address to `0`. -/
def RemoveNewAsset (asset : CNewAsset) (address : List UInt8) (ctx : AssetsCtx) :
    Bool × AssetsCtx :=
  let (exists_, ctx) := CheckIfAssetExists asset.strName true ctx
  if !exists_ then (false, ctx)
  else
    let newAsset : CAssetCacheNewAsset := ⟨asset, address, 0, 0⟩
    let ctx := ctx.modifySelf fun c =>
      { c with setNewAssetsToAdd := c.setNewAssetsToAdd.erase asset.strName
               setNewAssetsToRemove := c.setNewAssetsToRemove.insert newAsset }
    (true, if cfg.fAssetIndex then setBalance (asset.strName, address) 0 ctx else ctx)

/-- `AddOwnerAsset`. -/
def AddOwnerAsset (assetsName address : List UInt8) (ctx : AssetsCtx) : Bool × AssetsCtx :=
  let newOwner : CAssetCacheNewOwner := ⟨assetsName, address⟩
  let ctx := ctx.modifySelf fun c =>
    { c with setNewOwnerAssetsToRemove := c.setNewOwnerAssetsToRemove.erase assetsName
             setNewOwnerAssetsToAdd := c.setNewOwnerAssetsToAdd.insert newOwner }
  (true, if cfg.fAssetIndex then setBalance (assetsName, address) OWNER_ASSET_AMOUNT ctx else ctx)

/-- `RemoveOwnerAsset`. -/
def RemoveOwnerAsset (assetsName address : List UInt8) (ctx : AssetsCtx) : Bool × AssetsCtx :=
  let newOwner : CAssetCacheNewOwner := ⟨assetsName, address⟩
  let ctx := ctx.modifySelf fun c =>
    { c with setNewOwnerAssetsToAdd := c.setNewOwnerAssetsToAdd.erase assetsName
             setNewOwnerAssetsToRemove := c.setNewOwnerAssetsToRemove.insert newOwner }
  (true, if cfg.fAssetIndex then setBalance (assetsName, address) 0 ctx else ctx)

/-- `UndoTransfer`: with the asset index on, takes the amount off the address's balance,
failing when the balance is unknown or smaller. -/
def UndoTransfer (transfer : CAssetTransfer) (address : List UInt8) (ctx : AssetsCtx) :
    Bool × AssetsCtx :=
  if cfg.fAssetIndex then
    let pair := (transfer.strName, address)
    let (found, ctx) := GetBestAssetAddressAmount cfg.fAssetIndex pair ctx
    if !found then (false, ctx)
    else if (ctx.self.mapAssetsAddressAmount.lookup pair).isNone then (false, ctx)
    else if ctx.self.balance pair < transfer.nAmount then (false, ctx)
    else (true, setBalance pair (SubInt64 (ctx.self.balance pair) transfer.nAmount) ctx)
  else (true, ctx)

/-- `RemoveTransfer`. -/
def RemoveTransfer (transfer : CAssetTransfer) (address : List UInt8) (out : COutPoint)
    (ctx : AssetsCtx) : Bool × AssetsCtx :=
  let (ok, ctx) := UndoTransfer cfg transfer address ctx
  if !ok then (false, ctx)
  else
    let newTransfer : CAssetCacheNewTransfer := ⟨transfer, address, out⟩
    (true, ctx.modifySelf fun c =>
      { c with setNewTransferAssetsToAdd := c.setNewTransferAssetsToAdd.erase out
               setNewTransferAssetsToRemove := c.setNewTransferAssetsToRemove.insert newTransfer })

/-! ### Reissues -/

/-- What a reissue does to the metadata: the amount grows, the reissuable flag is replaced,
the units change unless `-1`, and a non-empty IPFS hash replaces the old one. -/
def ApplyReissue (asset : CNewAsset) (reissue : CReissueAsset) : CNewAsset :=
  let asset := { asset with nAmount := AddInt64 asset.nAmount reissue.nAmount
                            nReissuable := reissue.nReissuable }
  let asset := if reissue.nUnits ≠ -1 then { asset with units := reissue.nUnits } else asset
  if reissue.strIPFSHash ≠ [] then { asset with nHasIPFS := 1, strIPFSHash := reissue.strIPFSHash }
  else asset

/-- `AddReissueAsset`: the reissued metadata goes into the reissue map, the reissue into the
set of reissues to add with the height and hash `GetAssetMetaDataIfExists` reported (the
uninitialised height and the zero hash when it reported none), and with the asset index on the
amount into the balance of the address. -/
def AddReissueAsset (reissue : CReissueAsset) (address : List UInt8) (out : COutPoint)
    (ctx : AssetsCtx) : Bool × AssetsCtx :=
  let pair := (reissue.strName, address)
  match GetAssetMetaDataIfExists reissue.strName ctx with
  | (none, ctx) => (false, ctx)
  | (some (asset, hh), ctx) =>
    let (assetHeight, assetBlockHash) := hh.getD (cfg.nIndeterminateHeight, 0)
    let base := (ctx.self.mapReissuedAssetData.lookup reissue.strName).getD asset
    let reissueAsset : CAssetCacheReissueAsset := ⟨reissue, address, out, assetBlockHash, assetHeight⟩
    let ctx := ctx.modifySelf fun c =>
      { c with mapReissuedAssetData := c.mapReissuedAssetData.insert reissue.strName (ApplyReissue base reissue)
               setNewReissueToRemove := c.setNewReissueToRemove.erase out
               setNewReissueToAdd := c.setNewReissueToAdd.insert reissueAsset }
    if cfg.fAssetIndex then
      let ctx := LoadBalanceOrZero cfg.fAssetIndex pair ctx
      (true, setBalance pair (AddInt64 (ctx.self.balance pair) reissue.nAmount) ctx)
    else (true, ctx)

/-- The undo loop of `RemoveReissueAsset`: the first undo record of the asset's name restores
the IPFS hash and the units it changed. -/
def UndoReissueMetadata (assetData : CNewAsset) (name : List UInt8) :
    List (List UInt8 × CBlockAssetUndo) → CNewAsset
  | [] => assetData
  | (undoName, undo) :: rest =>
    if undoName = name then
      let a := if undo.fChangedIPFS then { assetData with strIPFSHash := undo.strIPFS } else assetData
      let a := if undo.fChangedUnits then { a with units := undo.nUnits } else a
      if a.strIPFSHash = [] then { a with nHasIPFS := 0 } else a
    else UndoReissueMetadata assetData name rest

/-- `RemoveReissueAsset`: subtract the amount, set the asset reissuable, restore the IPFS hash
and units from the first undo record of the name, and record the removal. -/
def RemoveReissueAsset (reissue : CReissueAsset) (address : List UInt8) (out : COutPoint)
    (vUndoIPFS : List (List UInt8 × CBlockAssetUndo)) (ctx : AssetsCtx) : Bool × AssetsCtx :=
  let pair := (reissue.strName, address)
  match GetAssetMetaDataIfExists reissue.strName ctx with
  | (none, ctx) => (false, ctx)
  | (some (assetData, hh), ctx) =>
    let (height, blockHash) := hh.getD (cfg.nIndeterminateHeight, 0)
    let assetData := { assetData with nAmount := SubInt64 assetData.nAmount reissue.nAmount
                                      nReissuable := 1 }
    let assetData := UndoReissueMetadata assetData reissue.strName vUndoIPFS
    let reissueAsset : CAssetCacheReissueAsset := ⟨reissue, address, out, blockHash, height⟩
    let ctx := ctx.modifySelf fun c =>
      { c with mapReissuedAssetData := c.mapReissuedAssetData.insert assetData.strName assetData
               setNewReissueToAdd := c.setNewReissueToAdd.erase out
               setNewReissueToRemove := c.setNewReissueToRemove.insert reissueAsset }
    if cfg.fAssetIndex then
      let (found, ctx) := GetBestAssetAddressAmount cfg.fAssetIndex pair ctx
      if !found then (false, ctx)
      else
        let ctx := setBalance pair (SubInt64 (ctx.self.balance pair) reissue.nAmount) ctx
        (decide (0 ≤ ctx.self.balance pair), ctx)
    else (true, ctx)

/-! ### Spending and unspending coins -/

/-- The asset name, address and amount of an asset output as `TrySpendCoin` and
`UndoAssetCoin` read them; `none` where the decoder of the output's kind fails. -/
def AssetOfScript (s : CScript) : Option (List UInt8 × List UInt8 × CAmount) :=
  match IsAssetScript s with
  | none => none
  | some (nType, fIsOwner, _) =>
    if nType = TX_NEW_ASSET ∧ !fIsOwner then
      (AssetFromScript cfg.H cfg.P s).map fun (a, address) => (a.strName, address, a.nAmount)
    else if nType = TX_TRANSFER_ASSET then
      (TransferAssetFromScript cfg.H cfg.P s).map fun (t, address) => (t.strName, address, t.nAmount)
    else if nType = TX_NEW_ASSET ∧ fIsOwner then
      (OwnerAssetFromScript cfg.H cfg.P s).map fun (name, address) => (name, address, OWNER_ASSET_AMOUNT)
    else if nType = TX_REISSUE_ASSET then
      (ReissueAssetFromScript cfg.H cfg.P s).map fun (r, address) => (r.strName, address, r.nAmount)
    else none

/-- `TrySpendCoin`: a coin without an asset script passes; an asset coin passes when its name
and address decode and its amount is positive, and then, with the asset index on, its amount
leaves the balance of its address (which does not go below `0`). -/
def TrySpendCoin (txOut : CTxOut) (ctx : AssetsCtx) : Bool × AssetsCtx :=
  if !IsAssetScriptB txOut.scriptPubKey then (true, ctx)
  else
    match AssetOfScript cfg txOut.scriptPubKey with
    | none => (false, ctx)
    | some (assetName, address, nAmount) =>
      if address ≠ [] ∧ assetName ≠ [] ∧ nAmount > 0 then
        if cfg.fAssetIndex then
          let pair := (assetName, address)
          let (found, ctx) := GetBestAssetAddressAmount cfg.fAssetIndex pair ctx
          if found then
            let ctx := setBalance pair (SubInt64 (ctx.self.balance pair) nAmount) ctx
            let ctx := if ctx.self.balance pair < 0 then setBalance pair 0 ctx else ctx
            (true, ctx.modifySelf fun c =>
              { c with vSpentAssets := c.vSpentAssets ++ [⟨assetName, address, nAmount⟩] })
          else (true, ctx)
        else (true, ctx)
      else (false, ctx)

/-- `AddBackSpentAsset`: the amount returns to the balance, and the undo is recorded. -/
def AddBackSpentAsset (assetName address : List UInt8) (nAmount : CAmount) (ctx : AssetsCtx) :
    AssetsCtx :=
  let ctx :=
    if cfg.fAssetIndex then
      let pair := (assetName, address)
      let ctx := LoadBalanceOrZero cfg.fAssetIndex pair ctx
      setBalance pair (AddInt64 (ctx.self.balance pair) nAmount) ctx
    else ctx
  ctx.modifySelf fun c => { c with vUndoAssetAmount := c.vUndoAssetAmount ++ [⟨assetName, address, nAmount⟩] }

/-- `UndoAssetCoin`: an asset coin coming back into the UTXO set; fails when its script does
not decode or its name, address or amount is empty. -/
def UndoAssetCoin (coin : Coin) (ctx : AssetsCtx) : Bool × AssetsCtx :=
  let decoded : Option (List UInt8 × List UInt8 × CAmount) :=
    if IsAssetScriptB coin.out.scriptPubKey then AssetOfScript cfg coin.out.scriptPubKey
    else some ([], [], 0)
  match decoded with
  | none => (false, ctx)
  | some (assetName, strAddress, nAmount) =>
    if assetName = [] ∨ strAddress = [] ∨ nAmount = 0 then (false, ctx)
    else (true, AddBackSpentAsset cfg assetName strAddress nAmount ctx)

end Methods

/-! ### Flushing into `passets` -/

section Flush

variable {α κ : Type} [DecidableEq κ] {key : α → κ} {lt : κ → κ → Bool}

/-- One loop of `Flush` over a set of the cache: each element leaves the opposite set of
`passets` and joins the same set (unless an element of its key is there). -/
def FlushSet (items : List α) (same opposite : KeyedSet key lt) : KeyedSet key lt × KeyedSet key lt :=
  items.foldl (fun acc item => (acc.1.insert item, acc.2.erase (key item))) (same, opposite)

end Flush

/-- `passets->map[k] = v` for every entry of a map. -/
def FlushMap {κ : Type} [DecidableEq κ] {ν : Type} (items : AList fun _ : κ => ν)
    (target : AList fun _ : κ => ν) : AList fun _ : κ => ν :=
  items.entries.foldl (fun acc e => acc.insert e.1 e.2) target

/-- `CAssetsCache::Flush`: merge a cache into `passets`. -/
def Flush (c : CAssetsCache) (passets : CAssetsCache) : CAssetsCache :=
  let (assetsAdd, assetsRemove) :=
    FlushSet c.setNewAssetsToAdd.toList passets.setNewAssetsToAdd passets.setNewAssetsToRemove
  let (assetsRemove, assetsAdd) := FlushSet c.setNewAssetsToRemove.toList assetsRemove assetsAdd
  let (ownersAdd, ownersRemove) :=
    FlushSet c.setNewOwnerAssetsToAdd.toList passets.setNewOwnerAssetsToAdd
      passets.setNewOwnerAssetsToRemove
  let (ownersRemove, ownersAdd) := FlushSet c.setNewOwnerAssetsToRemove.toList ownersRemove ownersAdd
  let (reissueAdd, reissueRemove) :=
    FlushSet c.setNewReissueToAdd.toList passets.setNewReissueToAdd passets.setNewReissueToRemove
  let (reissueRemove, reissueAdd) := FlushSet c.setNewReissueToRemove.toList reissueRemove reissueAdd
  let (transferAdd, transferRemove) :=
    FlushSet c.setNewTransferAssetsToAdd.toList passets.setNewTransferAssetsToAdd
      passets.setNewTransferAssetsToRemove
  let (transferRemove, transferAdd) :=
    FlushSet c.setNewTransferAssetsToRemove.toList transferRemove transferAdd
  { mapAssetsAddressAmount := FlushMap c.mapAssetsAddressAmount passets.mapAssetsAddressAmount
    mapReissuedAssetData := FlushMap c.mapReissuedAssetData passets.mapReissuedAssetData
    vUndoAssetAmount := passets.vUndoAssetAmount ++ c.vUndoAssetAmount
    vSpentAssets := passets.vSpentAssets ++ c.vSpentAssets
    setNewAssetsToRemove := assetsRemove
    setNewAssetsToAdd := assetsAdd
    setNewReissueToRemove := reissueRemove
    setNewReissueToAdd := reissueAdd
    setNewOwnerAssetsToAdd := ownersAdd
    setNewOwnerAssetsToRemove := ownersRemove
    setNewTransferAssetsToAdd := transferAdd
    setNewTransferAssetsToRemove := transferRemove }

/-! ### Facts -/

section Facts

variable (cfg : NodeConfig)

end Facts

/-! ### The two lookups after an undone issue -/

/-! ### Runs of cache operations -/

/-- An operation on an asset cache and `passets`: the four methods that record and undo issues
and reissues, and `Flush`. -/
inductive CacheOp
  | addNewAsset (asset : CNewAsset) (address : List UInt8) (nHeight : Int) (blockHash : uint256)
  | removeNewAsset (asset : CNewAsset) (address : List UInt8)
  | addReissueAsset (reissue : CReissueAsset) (address : List UInt8) (out : COutPoint)
  | removeReissueAsset (reissue : CReissueAsset) (address : List UInt8) (out : COutPoint)
      (vUndoIPFS : List (List UInt8 × CBlockAssetUndo))
  | flush

/-- The state after an operation; the methods' return values are dropped. -/
def CacheOp.Apply (cfg : NodeConfig) : CacheOp → AssetsCtx → AssetsCtx
  | .addNewAsset asset address nHeight blockHash, ctx =>
    (AddNewAsset cfg asset address nHeight blockHash ctx).2
  | .removeNewAsset asset address, ctx => (RemoveNewAsset cfg asset address ctx).2
  | .addReissueAsset reissue address out, ctx => (AddReissueAsset cfg reissue address out ctx).2
  | .removeReissueAsset reissue address out vUndoIPFS, ctx =>
    (RemoveReissueAsset cfg reissue address out vUndoIPFS ctx).2
  | .flush, ctx => { ctx with g := { ctx.g with passets := Flush ctx.self ctx.g.passets } }

/-- A run of cache operations. -/
def RunCacheOps (cfg : NodeConfig) (ops : List CacheOp) (ctx : AssetsCtx) : AssetsCtx :=
  ops.foldl (fun ctx op => op.Apply cfg ctx) ctx

/-- A root asset of the concrete runs: 10 units of `ABC`, whole units only, reissuable. -/
def SampleRoot : CNewAsset := ⟨str "ABC", 10 * COIN, 0, 1, 0, []⟩

/-- A reissue of one more unit of `ABC` that changes nothing else. -/
def SampleReissue : CReissueAsset := ⟨str "ABC", COIN, -1, 1, []⟩

/-- Issue `ABC`, reissue it, undo the reissue and then the issue, as disconnecting the two
would, and flush into `passets`: `CheckIfAssetExists` then says `ABC` does not exist, while
`GetAssetMetaDataIfExists` still returns its metadata. -/
theorem undone_issue_keeps_metadata :
    (CheckIfAssetExists (str "ABC") true
        (RunCacheOps SampleConfig
          [.addNewAsset SampleRoot SampleAddressA 101 7, .addReissueAsset SampleReissue SampleAddressA ⟨8, 3⟩,
           .removeReissueAsset SampleReissue SampleAddressA ⟨8, 3⟩ [],
           .removeNewAsset SampleRoot SampleAddressA, .flush]
          ⟨CAssetsCache.empty, AssetGlobals.empty⟩)).1 = false ∧
      ((GetAssetMetaDataIfExists (str "ABC")
        (RunCacheOps SampleConfig
          [.addNewAsset SampleRoot SampleAddressA 101 7, .addReissueAsset SampleReissue SampleAddressA ⟨8, 3⟩,
           .removeReissueAsset SampleReissue SampleAddressA ⟨8, 3⟩ [],
           .removeNewAsset SampleRoot SampleAddressA, .flush]
          ⟨CAssetsCache.empty, AssetGlobals.empty⟩)).1.map Prod.fst) = some SampleRoot := by
  decide +kernel

end Ravencoin
