import Ravencoin.Validation.Connect

/-!
# Disconnecting a block (`validation.cpp`)

`DisconnectBlock` undoes a block's transactions in reverse order. For each transaction it
spends the outputs the block created (checking that they match), undoes the transaction's
issue, reissue, unique issue and transfers in the asset cache, and then restores the coins the
transaction spent from the block's undo data (`ApplyTxInUndo`), giving their assets back to the
address balances (`UndoAssetCoin`).

## Main definitions

* `Ravencoin.DisconnectResult`.
* `Ravencoin.ApplyTxInUndo`, `Ravencoin.DisconnectBlock`.

## Implementation notes

The spends of the block's outputs run against `tempCache`, a copy of the asset cache that is
dropped at the end; the lookups' additions to `passetsCache` are kept. The model takes the asset
cache `DisconnectTip` passes, never the null pointer (the C++ dereferences it to build
`tempCache`). A missing record of asset undo data reads as none, as `ReadBlockUndoAssetData`
returns `true` for it.
-/

set_option autoImplicit false

namespace Ravencoin

open txnouttype

/-- `DisconnectResult`. -/
inductive DisconnectResult
  | DISCONNECT_OK
  | DISCONNECT_UNCLEAN
  | DISCONNECT_FAILED
deriving DecidableEq, Repr

open DisconnectResult

section Disconnect

variable (cfg : NodeConfig) (env : NodeGlobals)

/-- `ApplyTxInUndo(undo, view, out, assetCache)`: the spent coin comes back, with the height and
coinbase flag of another output of its transaction when the undo record lacks them, and its
asset goes back to the balances. -/
def ApplyTxInUndo (undo : Coin) (view : CCoinsViewCache) (out : COutPoint) (ctx : AssetsCtx) :
    Except Halt (DisconnectResult × CCoinsViewCache × AssetsCtx) :=
  let fIsAsset := undo.IsAsset
  let tempCoin := undo
  -- overwriting an unspent output makes the undo unclean
  let fClean := !view.HaveCoin out
  let undo? : Option Coin :=
    if undo.nHeight = 0 then
      let alternate := view.AccessByTxid out.hash
      if alternate.IsSpent then none
      else some { undo with nHeight := alternate.nHeight, fCoinBase := alternate.fCoinBase }
    else some undo
  match undo? with
  | none => .ok (DISCONNECT_FAILED, view, ctx)
  | some undo =>
    match view.AddCoin out undo (!fClean) with
    | .error h => .error h
    | .ok view =>
      let (fClean, ctx) :=
        if env.fAssetsDeployed && fIsAsset then
          let (ok, ctx) := UndoAssetCoin cfg tempCoin ctx
          (fClean && ok, ctx)
        else (fClean, ctx)
      .ok (if fClean then DISCONNECT_OK else DISCONNECT_UNCLEAN, view, ctx)

/-- The inputs of a transaction restored from its undo data, last input first. -/
def RestoreInputs : List (CTxIn × Coin) → CCoinsViewCache → AssetsCtx → Bool →
    Except Halt (DisconnectResult × CCoinsViewCache × AssetsCtx)
  | [], view, ctx, fClean => .ok (if fClean then DISCONNECT_OK else DISCONNECT_UNCLEAN, view, ctx)
  | (txin, undo) :: rest, view, ctx, fClean =>
    match ApplyTxInUndo cfg env undo view txin.prevout ctx with
    | .error h => .error h
    | .ok (DISCONNECT_FAILED, view, ctx) => .ok (DISCONNECT_FAILED, view, ctx)
    | .ok (res, view, ctx) => RestoreInputs rest view ctx (fClean && res != DISCONNECT_UNCLEAN)

/-- The spend of a transaction's spendable outputs, against `tempCache`: whether every output
was there as the block created it, the view, the cache copy, and the indexes of the transfer
outputs. -/
def SpendOutputs (tx : CTransaction) (nHeight : Nat) :
    Nat → List CTxOut → CCoinsViewCache → AssetsCtx → Bool → List Nat →
      Bool × CCoinsViewCache × AssetsCtx × List Nat
  | _, [], view, temp, fClean, vAssetTxIndex => (fClean, view, temp, vAssetTxIndex)
  | o, out :: rest, view, temp, fClean, vAssetTxIndex =>
    if IsUnspendable out.scriptPubKey then
      SpendOutputs tx nHeight (o + 1) rest view temp fClean vAssetTxIndex
    else
      let (is_spent, coin, view, temp) :=
        view.SpendCoin cfg env.fAssetsDeployed ⟨tx.GetHash, o.toUInt32⟩ temp
      let fClean := fClean && is_spent && out == coin.out && nHeight == coin.nHeight &&
        tx.IsCoinBase == coin.fCoinBase
      let vAssetTxIndex :=
        if env.fAssetsDeployed && (IsScriptTransferAsset out.scriptPubKey).isSome then
          vAssetTxIndex ++ [o]
        else vAssetTxIndex
      SpendOutputs tx nHeight (o + 1) rest view temp fClean vAssetTxIndex

/-- The loop of `DisconnectBlock` over a unique issue's outputs: each unique asset that exists
is removed. -/
def RemoveUniqueAssets : List CTxOut → AssetsCtx → Option AssetsCtx
  | [], ctx => some ctx
  | out :: rest, ctx =>
    if IsScriptNewUniqueAsset cfg.H cfg.P out.scriptPubKey then
      match AssetFromScript cfg.H cfg.P out.scriptPubKey with
      | none => none
      | some (asset, strAddress) =>
        let (contains, ctx) := CheckIfAssetExists asset.strName true ctx
        if contains then
          match RemoveNewAsset cfg asset strAddress ctx with
          | (false, _) => none
          | (true, ctx) => RemoveUniqueAssets rest ctx
        else RemoveUniqueAssets rest ctx
    else RemoveUniqueAssets rest ctx

/-- The transfers of a transaction undone, by output index. -/
def RemoveTransfers (tx : CTransaction) : List Nat → AssetsCtx → Option AssetsCtx
  | [], ctx => some ctx
  | index :: rest, ctx =>
    match tx.vout[index]? with
    | none => none
    | some out =>
      match TransferAssetFromScript cfg.H cfg.P out.scriptPubKey with
      | none => none
      | some (transfer, strAddress) =>
        match RemoveTransfer cfg transfer strAddress ⟨tx.GetHash, index.toUInt32⟩ ctx with
        | (false, _) => none
        | (true, ctx) => RemoveTransfers tx rest ctx

/-- The asset undo of one transaction in `DisconnectBlock`; `none` for `DISCONNECT_FAILED`. -/
def UndoTransactionAssets (tx : CTransaction) (vUndoData : List AssetUndo) (vAssetTxIndex : List Nat)
    (ctx : AssetsCtx) : Except Halt (Option AssetsCtx) := do
  let ctx? : Option AssetsCtx ←
    if ← tx.IsNewAsset cfg.H cfg.P then
      match ← AssetFromTransaction cfg.H cfg.P tx with
      | none => pure none
      | some (asset, strAddress) =>
        let (contains, ctx) := CheckIfAssetExists asset.strName true ctx
        let removed := if contains then RemoveNewAsset cfg asset strAddress ctx else (true, ctx)
        if !removed.1 then pure none
        else
          match ← OwnerFromTransaction cfg.H cfg.P tx with
          | none => pure none
          | some (ownerName, ownerAddress) =>
            pure (some (RemoveOwnerAsset cfg ownerName ownerAddress removed.2).2)
    else if ← tx.IsReissueAsset then
      match ← ReissueAssetFromTransaction cfg.H cfg.P tx with
      | none => pure none
      | some (reissue, strAddress) =>
        let (contains, ctx) := CheckIfAssetExists reissue.strName true ctx
        if contains then
          match RemoveReissueAsset cfg reissue strAddress
              ⟨tx.GetHash, (tx.vout.length - 1).toUInt32⟩ vUndoData ctx with
          | (false, _) => pure none
          | (true, ctx) => pure (some ctx)
        else pure (some ctx)
    else if ← tx.IsNewUniqueAsset cfg.H cfg.P then
      pure (RemoveUniqueAssets cfg tx.vout ctx)
    else pure (some ctx)
  return ctx?.bind (RemoveTransfers cfg tx vAssetTxIndex)

/-- The undo of one transaction, the `i`-th of the block: its outputs spent, its assets undone,
its inputs restored from `txundo` (absent for the coinbase). -/
def DisconnectTransaction (nHeight : Nat) (vUndoData : List AssetUndo) (tx : CTransaction)
    (txundo : Option (List Coin)) (view : CCoinsViewCache) (ctx : AssetsCtx) (temp : CAssetsCache)
    (fClean : Bool) : Except Halt (DisconnectResult × CCoinsViewCache × AssetsCtx × CAssetsCache) := do
  let (fClean, view, tempCtx, vAssetTxIndex) :=
    SpendOutputs cfg env tx nHeight 0 tx.vout view ⟨temp, ctx.g⟩ fClean []
  let ctx := { ctx with g := tempCtx.g }
  let ctx? ←
    if env.fAssetsDeployed then UndoTransactionAssets cfg tx vUndoData vAssetTxIndex ctx
    else pure (some ctx)
  match ctx? with
  | none => return (DISCONNECT_FAILED, view, ctx, tempCtx.self)
  | some ctx =>
    match txundo with
    | none => return (if fClean then DISCONNECT_OK else DISCONNECT_UNCLEAN, view, ctx, tempCtx.self)
    | some vprevout =>
      if vprevout.length ≠ tx.vin.length then
        return (DISCONNECT_FAILED, view, ctx, tempCtx.self)
      let (res, view, ctx) ← RestoreInputs cfg env (tx.vin.zip vprevout).reverse view ctx fClean
      return (res, view, ctx, tempCtx.self)

/-- The loop of `DisconnectBlock` over the transactions, last first; each comes with its undo
data (`none` for the coinbase). -/
def DisconnectTransactions (nHeight : Nat) (vUndoData : List AssetUndo) :
    List (CTransaction × Option (List Coin)) → CCoinsViewCache → AssetsCtx → CAssetsCache → Bool →
      Except Halt (DisconnectResult × CCoinsViewCache × AssetsCtx)
  | [], view, ctx, _, fClean => .ok (if fClean then DISCONNECT_OK else DISCONNECT_UNCLEAN, view, ctx)
  | (tx, txundo) :: rest, view, ctx, temp, fClean => do
    let (res, view, ctx, temp) ←
      DisconnectTransaction cfg env nHeight vUndoData tx txundo view ctx temp fClean
    match res with
    | DISCONNECT_FAILED => return (DISCONNECT_FAILED, view, ctx)
    | DISCONNECT_OK => DisconnectTransactions nHeight vUndoData rest view ctx temp true
    | DISCONNECT_UNCLEAN => DisconnectTransactions nHeight vUndoData rest view ctx temp false

/-- `DisconnectBlock(block, pindex, view, assetsCache)`, with the block's undo data
`blockUndo` (`none` when there is none on disk). -/
def DisconnectBlock (block : CBlock) (nHeight : Nat) (blockUndo : Option (List (List Coin)))
    (view : CCoinsViewCache) (ctx : AssetsCtx) :
    Except Halt (DisconnectResult × CCoinsViewCache × AssetsCtx) :=
  match blockUndo with
  | none => .ok (DISCONNECT_FAILED, view, ctx)
  | some vtxundo =>
    if vtxundo.length + 1 ≠ block.vtx.length then .ok (DISCONNECT_FAILED, view, ctx)
    else
      let vUndoData := (ctx.g.passetsdb.blockUndoAssetData.lookup block.GetHash).getD []
      let txs := block.vtx.zip (none :: vtxundo.map some)
      DisconnectTransactions cfg env nHeight vUndoData txs.reverse view ctx ctx.self true

end Disconnect

end Ravencoin
