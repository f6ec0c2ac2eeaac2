import Ravencoin.Consensus.TxVerify

/-!
# Connecting a block (`validation.cpp`, `coins.cpp`)

`ConnectBlock` re-runs `CheckBlock`, then walks the block's transactions: a transaction that
is not a coinbase has its inputs checked (`CheckTxInputs`), its assets checked against the
inputs (`CheckTxAssets`), its sequence locks, signature operations and scripts checked; every
transaction then passes the asset checks of `ConnectBlock` itself and is applied by
`UpdateCoins`, which spends its inputs (`SpendCoin`, asserting that each spend succeeds) and
adds its outputs (`AddCoins`, which also records issues, reissues and transfers in the asset
cache). At the end the coinbase is checked against the fees and the subsidy, and the asset undo
data is written to `passetsdb`.

## Main definitions

* `Ravencoin.ConsensusParams` — the consensus parameters, with the checks the model takes as
  given (proof of work, merkle root, sigop counts, sequence locks, script checks).
* `Ravencoin.AddCoins`, `Ravencoin.UpdateCoins`.
* `Ravencoin.CheckBlock`, `Ravencoin.ConnectBlockAssetChecks`, `Ravencoin.ConnectBlock`.

## Implementation notes

`ConnectBlock` returns the view, the asset cache with the globals, and the undo data, or why
it stopped. The model drops, on a rejection, what the lookups of the failed call added to
`passetsCache`; those additions copy database records and change no later lookup
(`LRUCache.Agrees`). The address, spent and transaction indexes are not modelled; they are
written only when their flags are set and are read by no check.
-/

set_option autoImplicit false

namespace Ravencoin

open txnouttype

/-- The consensus parameters `ConnectBlock` reads, and the parts of block validation the model
takes as given: the header's serialized size, `CheckBlockHeader` (proof of work), the merkle
checks of `CheckBlock`, the signature-operation counts, `SequenceLocks` (given the heights of
the spent coins) and the script checks of `CheckInputs`. A check returns its rejection, or
`none`. -/
structure ConsensusParams where
  hashGenesisBlock : uint256
  nSubsidyHalvingInterval : Nat
  HeaderSerializeSize : CBlock → Nat
  CheckBlockHeader : CBlock → Option (List UInt8)
  CheckMerkleRoot : CBlock → Option (List UInt8)
  GetLegacySigOpCount : CTransaction → Nat
  GetTransactionSigOpCost : CTransaction → CCoinsViewCache → Nat
  SequenceLocks : CTransaction → List Nat → Bool
  CheckInputs : CTransaction → CCoinsViewCache → Option (List UInt8)

/-- `MAX_BLOCK_SIGOPS_COST`. -/
def MAX_BLOCK_SIGOPS_COST : Nat := 80000

/-- `GetBlockSubsidy`: 5000 RVN, halved every `nSubsidyHalvingInterval` blocks. -/
def GetBlockSubsidy (nHeight : Nat) (params : ConsensusParams) : CAmount :=
  let halvings := nHeight / params.nSubsidyHalvingInterval
  if halvings ≥ 64 then 0 else (((5000 * COIN).toNat >>> halvings : Nat) : Int)

/-- `CAssetTransfer::SetNull`. -/
def CAssetTransfer.Null : CAssetTransfer := ⟨[], 0⟩

/-- `CReissueAsset::SetNull`. -/
def CReissueAsset.Null : CReissueAsset := ⟨[], 0, 0, 1, []⟩

/-- The undo data of one transaction's asset change: the name and what a reissue replaced. -/
abbrev AssetUndo := List UInt8 × CBlockAssetUndo

/-! ### `AddCoins` and `UpdateCoins` -/

section AddCoins

variable (cfg : NodeConfig)

/-- The loop of `AddCoins` over a unique issue's outputs. A failed decoding leaves the
default-constructed asset, and a failed `AddNewAsset` is only logged. -/
def AddUniqueAssets (nHeight : Int) (blockHash : uint256) : List CTxOut → AssetsCtx → AssetsCtx
  | [], ctx => ctx
  | out :: rest, ctx =>
    if IsScriptNewUniqueAsset cfg.H cfg.P out.scriptPubKey then
      let (asset, strAddress) := (AssetFromScript cfg.H cfg.P out.scriptPubKey).getD (CNewAsset.Null, [])
      AddUniqueAssets nHeight blockHash rest (AddNewAsset cfg asset strAddress nHeight blockHash ctx).2
    else AddUniqueAssets nHeight blockHash rest ctx

/-- The asset part of `AddCoins` before its output loop: an issue records the asset and its
owner token, a reissue records the reissue and returns the undo data of the IPFS hash and the
units it changes, a unique issue records each unique asset. Failures are only logged. -/
def AddCoinsAssets (tx : CTransaction) (nHeight : Int) (blockHash : uint256) (ctx : AssetsCtx) :
    Except Halt (AssetsCtx × Option AssetUndo) := do
  if ← tx.IsNewAsset cfg.H cfg.P then
    let (asset, strAddress) := (← AssetFromTransaction cfg.H cfg.P tx).getD (CNewAsset.Null, [])
    let (ownerName, ownerAddress) := (← OwnerFromTransaction cfg.H cfg.P tx).getD ([], [])
    let ctx := (AddNewAsset cfg asset strAddress nHeight blockHash ctx).2
    return ((AddOwnerAsset cfg ownerName ownerAddress ctx).2, none)
  else if ← tx.IsReissueAsset then
    let (reissue, strAddress) :=
      (← ReissueAssetFromTransaction cfg.H cfg.P tx).getD (CReissueAsset.Null, [])
    let reissueIndex := tx.vout.length - 1
    -- the asset before the reissue, for the undo data
    let (found, ctx) := GetAssetMetaDataIfExists reissue.strName ctx
    let asset := (found.map Prod.fst).getD CNewAsset.Null
    let ctx := (AddReissueAsset cfg reissue strAddress ⟨tx.GetHash, reissueIndex.toUInt32⟩ ctx).2
    let fIPFSChanged := reissue.strIPFSHash ≠ []
    let fUnitsChanged := reissue.nUnits ≠ -1
    if fIPFSChanged ∨ fUnitsChanged then
      return (ctx, some (reissue.strName, ⟨fIPFSChanged, fUnitsChanged, asset.strIPFSHash, asset.units⟩))
    else return (ctx, none)
  else if ← tx.IsNewUniqueAsset cfg.H cfg.P then
    return (AddUniqueAssets cfg nHeight blockHash tx.vout ctx, none)
  else return (ctx, none)

/-- The output loop of `AddCoins`: each output becomes a coin, and a spendable transfer is
recorded in the asset cache when `fAssets` is set. -/
def AddOutputs (fAssets : Bool) (tx : CTransaction) (nHeight : Nat) (check : Bool) :
    Nat → List CTxOut → CCoinsViewCache → AssetsCtx → Except Halt (CCoinsViewCache × AssetsCtx)
  | _, [], view, ctx => .ok (view, ctx)
  | i, out :: rest, view, ctx => do
    let o : COutPoint := ⟨tx.GetHash, i.toUInt32⟩
    let overwrite := if check then view.HaveCoin o else tx.IsCoinBase
    let view ← view.AddCoin o ⟨out, tx.IsCoinBase, nHeight⟩ overwrite
    let ctx :=
      if fAssets && IsTransferAsset out.scriptPubKey && !IsUnspendable out.scriptPubKey then
        let (transfer, address) :=
          (TransferAssetFromScript cfg.H cfg.P out.scriptPubKey).getD (CAssetTransfer.Null, [])
        (AddTransferAsset cfg transfer address o ctx).2
      else ctx
    AddOutputs fAssets tx nHeight check (i + 1) rest view ctx

/-- `AddCoins(cache, tx, nHeight, blockHash, check, assetsCache, undoAssetData)`. -/
def AddCoins (fAssetsDeployed fAssetsCache : Bool) (view : CCoinsViewCache) (tx : CTransaction)
    (nHeight : Nat) (blockHash : uint256) (check : Bool) (ctx : AssetsCtx) :
    Except Halt (CCoinsViewCache × AssetsCtx × Option AssetUndo) := do
  let (ctx, undo) ←
    if fAssetsDeployed && fAssetsCache then AddCoinsAssets cfg tx nHeight blockHash ctx
    else pure (ctx, none)
  let (view, ctx) ← AddOutputs cfg (fAssetsDeployed && fAssetsCache) tx nHeight check 0 tx.vout view ctx
  return (view, ctx, undo)

/-- The input loop of `UpdateCoins`: every input is spent, and `assert(is_spent)` stops the
node when a spend fails. The spent coins are the transaction's undo data. -/
def SpendInputs (fAssets : Bool) :
    List CTxIn → CCoinsViewCache → AssetsCtx → List Coin →
      Except Halt (CCoinsViewCache × AssetsCtx × List Coin)
  | [], view, ctx, txundo => .ok (view, ctx, txundo)
  | txin :: rest, view, ctx, txundo =>
    let (is_spent, coin, view, ctx) := view.SpendCoin cfg fAssets txin.prevout ctx
    if !is_spent then .error (.abort (str "assert(is_spent)"))
    else SpendInputs fAssets rest view ctx (txundo ++ [coin])

/-- `UpdateCoins(tx, inputs, txundo, nHeight, blockHash, assetCache, undoAssetData)`. -/
def UpdateCoins (fAssetsDeployed fAssetsCache : Bool) (tx : CTransaction) (view : CCoinsViewCache)
    (nHeight : Nat) (blockHash : uint256) (ctx : AssetsCtx) :
    Except Halt (CCoinsViewCache × AssetsCtx × List Coin × Option AssetUndo) := do
  let (view, ctx, txundo) ←
    if !tx.IsCoinBase then SpendInputs cfg (fAssetsDeployed && fAssetsCache) tx.vin view ctx []
    else pure (view, ctx, [])
  let (view, ctx, undo) ← AddCoins cfg fAssetsDeployed fAssetsCache view tx nHeight blockHash false ctx
  return (view, ctx, txundo, undo)

end AddCoins

/-! ### `CheckBlock` -/

section CheckBlock

variable (cfg : NodeConfig) (params : ConsensusParams) (env : NodeGlobals)

/-- The serialized size of a block without witness data. -/
def CBlock.GetSerializeSize (block : CBlock) : Nat :=
  params.HeaderSerializeSize block + GetSizeOfCompactSize block.vtx.length +
    (block.vtx.map CTransaction.GetSerializeSize).sum

/-- The transaction loop of `CheckBlock`, on the cache `GetCurrentAssetCache()` returns. -/
def CheckBlockTransactions (fCheckAssetDuplicate fForceDuplicateCheck : Bool) :
    List CTransaction → AssetsCtx → Except Halt Unit × AssetsCtx
  | [], ctx => (.ok (), ctx)
  | tx :: rest, ctx =>
    match CheckTransaction cfg env tx true true false fCheckAssetDuplicate fForceDuplicateCheck ctx with
    | (.error h, ctx) => (.error h, ctx)
    | (.ok (), ctx) => CheckBlockTransactions fCheckAssetDuplicate fForceDuplicateCheck rest ctx

/-- `CheckBlock(block, state, consensusParams, fCheckPOW, fCheckMerkleRoot,
fCheckAssetDuplicate, fForceDuplicateCheck)`; the updated memo `fChecked` is not returned. -/
def CheckBlock (block : CBlock) (fCheckPOW fCheckMerkleRoot fCheckAssetDuplicate fForceDuplicateCheck : Bool)
    (g : AssetGlobals) : Except Halt Unit × AssetGlobals :=
  if block.fChecked then (.ok (), g)
  else
  match (if fCheckPOW then params.CheckBlockHeader block else none) with
  | some e => (.error (.reject e), g)
  | none =>
  match (if fCheckMerkleRoot then params.CheckMerkleRoot block else none) with
  | some e => (.error (.reject e), g)
  | none =>
  if block.vtx = [] ∨ block.vtx.length * WITNESS_SCALE_FACTOR > GetMaxBlockWeight ∨
      block.GetSerializeSize params * WITNESS_SCALE_FACTOR > GetMaxBlockWeight then
    (.error (.reject (str "bad-blk-length")), g)
  else if !(block.vtx.head?.map CTransaction.IsCoinBase).getD false then
    (.error (.reject (str "bad-cb-missing")), g)
  else if (block.vtx.drop 1).any CTransaction.IsCoinBase then
    (.error (.reject (str "bad-cb-multiple")), g)
  else
  match onPassets (CheckBlockTransactions cfg env fCheckAssetDuplicate fForceDuplicateCheck block.vtx) g with
  | (.error h, g) => (.error h, g)
  | (.ok (), g) =>
    if (block.vtx.map params.GetLegacySigOpCount).sum * WITNESS_SCALE_FACTOR > MAX_BLOCK_SIGOPS_COST then
      (.error (.reject (str "bad-blk-sigops")), g)
    else (.ok (), g)

end CheckBlock

/-! ### The asset checks of `ConnectBlock` -/

section ConnectBlock

variable (cfg : NodeConfig) (params : ConsensusParams) (env : NodeGlobals)

/-- The asset checks `ConnectBlock` makes on a transaction when it is given an asset cache,
against that cache: an issue, a reissue (whose primary asset must exist) and a unique issue
are verified and validated. -/
def ConnectBlockAssetChecks (tx : CTransaction) (ctx : AssetsCtx) : Except Halt Unit × AssetsCtx :=
  match tx.IsNewAsset cfg.H cfg.P with
  | .error h => (.error h, ctx)
  | .ok true =>
    if !env.fAssetsDeployed then
      (.error (.reject (str "bad-txns-new-asset-when-assets-is-not-active")), ctx)
    else if (tx.VerifyNewAsset cfg.H cfg.P).isSome then
      (.error (.reject (str "bad-txns-issue-asset-failed-verify")), ctx)
    else
    match AssetFromTransaction cfg.H cfg.P tx with
    | .error h => (.error h, ctx)
    | .ok none => (.error (.reject (str "bad-txns-issue-asset-serialization")), ctx)
    | .ok (some (asset, strAddress)) =>
    match IsNewOwnerTxValid cfg.H cfg.P tx asset.strName strAddress with
    | .error h => (.error h, ctx)
    | .ok (some strError) => (.error (.reject strError), ctx)
    | .ok none =>
    match asset.IsValid [] false true true ctx with
    | (some _, ctx) => (.error (.reject (str "bad-txns-issue-asset")), ctx)
    | (none, ctx) => (.ok (), ctx)
  | .ok false =>
  match tx.IsReissueAsset with
  | .error h => (.error h, ctx)
  | .ok true =>
    if !env.fAssetsDeployed then
      (.error (.reject (str "bad-txns-reissue-asset-when-assets-is-not-active")), ctx)
    else
    match tx.VerifyReissueAsset cfg.H cfg.P with
    | some strError => (.error (.reject strError), ctx)
    | none =>
    match ReissueAssetFromTransaction cfg.H cfg.P tx with
    | .error h => (.error h, ctx)
    | .ok none => (.error (.reject (str "bad-txns-reissue-asset-serialization")), ctx)
    | .ok (some (reissue, _)) =>
    match reissue.IsValid true ctx with
    | (some strError, ctx) => (.error (.reject strError), ctx)
    | (none, ctx) => (.ok (), ctx)
  | .ok false =>
  match tx.IsNewUniqueAsset cfg.H cfg.P with
  | .error h => (.error h, ctx)
  | .ok true =>
    if !env.fAssetsDeployed then
      (.error (.reject (str "bad-txns-issue-unique-asset-when-assets-is-not-active")), ctx)
    else if (tx.VerifyNewUniqueAsset cfg.H cfg.P).isSome then
      (.error (.reject (str "bad-txns-issue-unique-asset-failed-verify")), ctx)
    else
      CheckUniqueOutputs cfg [] false true true
        (str "bad-txns-connect-block-issue-unique-asset-serialization") [] tx.vout ctx
  | .ok false => (.ok (), ctx)

/-! ### `ConnectBlock` -/

/-- What `ConnectBlock` carries from one transaction to the next: the view, the asset cache
with the globals, the undo data of the transactions after the coinbase, the asset undo data,
the fees and the sigop cost so far. -/
structure ConnectState where
  view : CCoinsViewCache
  ctx : AssetsCtx
  vtxundo : List (List Coin)
  vUndoAssetData : List AssetUndo
  nFees : CAmount
  nSigOpsCost : Nat

/-- The checks `ConnectBlock` makes on a transaction that is not a coinbase before its
sigops: inputs, fees, assets before activation, `CheckTxAssets`, sequence locks. -/
def ConnectInputChecks (nHeight : Nat) (tx : CTransaction) (s : ConnectState) :
    Except Halt ConnectState := do
  let txfee ← CheckTxInputs tx s.view nHeight
  let nFees := s.nFees + txfee
  if !MoneyRange nFees then throw (.reject (str "bad-txns-accumulated-fee-outofrange"))
  if !env.fAssetsDeployed && tx.vout.any (fun out => IsAssetScriptB out.scriptPubKey) then
    throw (.reject (str "bad-txns-assets-not-active"))
  -- `CheckTxAssets` runs on `passets`; only its lookups' cache additions are kept
  let g ←
    if env.fAssetsDeployed then
      match CheckTxAssets cfg env tx s.view false s.ctx.g with
      | (.error h, _) => throw h
      | (.ok _, g) => pure g
    else pure s.ctx.g
  let prevheights := tx.vin.map fun txin => (s.view.AccessCoin txin.prevout).nHeight
  if !params.SequenceLocks tx prevheights then throw (.reject (str "bad-txns-nonfinal"))
  return { s with nFees := nFees, ctx := { s.ctx with g := g } }

/-- One iteration of the transaction loop of `ConnectBlock`. -/
def ConnectTransaction (block : CBlock) (nHeight : Nat) (fAssetsCache : Bool) (s : ConnectState)
    (i : Nat) (tx : CTransaction) : Except Halt ConnectState := do
  let s ← if !tx.IsCoinBase then ConnectInputChecks cfg params env nHeight tx s else pure s
  let nSigOpsCost := s.nSigOpsCost + params.GetTransactionSigOpCost tx s.view
  if nSigOpsCost > MAX_BLOCK_SIGOPS_COST then throw (.reject (str "bad-blk-sigops"))
  if !tx.IsCoinBase then
    if let some e := params.CheckInputs tx s.view then throw (.reject e)
  let ctx ←
    if fAssetsCache then
      match ConnectBlockAssetChecks cfg env tx s.ctx with
      | (.error h, _) => throw h
      | (.ok (), ctx) => pure ctx
    else pure s.ctx
  let (view, ctx, txundo, undo) ←
    UpdateCoins cfg env.fAssetsDeployed fAssetsCache tx s.view nHeight block.GetHash ctx
  let vUndoAssetData :=
    match undo with
    | some u => if u.1 ≠ [] then s.vUndoAssetData ++ [u] else s.vUndoAssetData
    | none => s.vUndoAssetData
  return { view := view, ctx := ctx, vtxundo := if i > 0 then s.vtxundo ++ [txundo] else s.vtxundo,
           vUndoAssetData := vUndoAssetData, nFees := s.nFees, nSigOpsCost := nSigOpsCost }

/-- The transaction loop of `ConnectBlock`, from index `i`. -/
def ConnectTransactions (block : CBlock) (nHeight : Nat) (fAssetsCache : Bool) :
    Nat → List CTransaction → ConnectState → Except Halt ConnectState
  | _, [], s => .ok s
  | i, tx :: rest, s => do
    let s ← ConnectTransaction cfg params env block nHeight fAssetsCache s i tx
    ConnectTransactions block nHeight fAssetsCache (i + 1) rest s

/-- `ConnectBlock(block, state, pindex, view, chainparams, assetsCache, fJustCheck)`: the view,
the asset cache with the globals (the asset undo data written to `passetsdb`), and the block's
undo data. -/
def ConnectBlock (block : CBlock) (nHeight : Nat) (view : CCoinsViewCache) (fAssetsCache : Bool)
    (ctx : AssetsCtx) (fJustCheck : Bool) :
    Except Halt (CCoinsViewCache × AssetsCtx × List (List Coin)) := do
  let g ←
    match CheckBlock cfg params env block (!fJustCheck) (!fJustCheck) (!fJustCheck) (!fJustCheck) ctx.g with
    | (.error h, _) => throw h
    | (.ok (), g) => pure g
  let ctx := { ctx with g := g }
  -- the genesis block's coinbase is not connected
  if block.GetHash = params.hashGenesisBlock then return (view, ctx, [])
  let s ← ConnectTransactions cfg params env block nHeight fAssetsCache 0 block.vtx
    ⟨view, ctx, [], [], 0, 0⟩
  let blockReward := s.nFees + GetBlockSubsidy nHeight params
  let coinbaseOut ← GetValueOut ((block.vtx.head?.map CTransaction.vout).getD [])
  if coinbaseOut > blockReward then throw (.reject (str "bad-cb-amount"))
  if fJustCheck then return (s.view, s.ctx, s.vtxundo)
  let ctx :=
    if s.vUndoAssetData ≠ [] then
      { s.ctx with g := { s.ctx.g with passetsdb :=
          { s.ctx.g.passetsdb with blockUndoAssetData :=
              s.ctx.g.passetsdb.blockUndoAssetData.insert block.GetHash s.vUndoAssetData } } }
    else s.ctx
  return (s.view, ctx, s.vtxundo)

end ConnectBlock

/-! ### Concrete blocks -/

/-- The parameters of concrete runs: the main network's genesis hash and halving interval, an
80-byte header, and every check the model takes as given passing, with no signature
operations. -/
def SampleParams : ConsensusParams where
  hashGenesisBlock := 0x0000006b444bc2f2ffe627be9d9e7e7a0730000870ef6eb6da46c8eae389df90#256
  nSubsidyHalvingInterval := 2100000
  HeaderSerializeSize := fun _ => 80
  CheckBlockHeader := fun _ => none
  CheckMerkleRoot := fun _ => none
  GetLegacySigOpCount := fun _ => 0
  GetTransactionSigOpCost := fun _ _ => 0
  SequenceLocks := fun _ _ => true
  CheckInputs := fun _ _ => none

/-- A coinbase paying the subsidy to `SampleKeyA`, its signature the height's push. -/
def CoinbaseTx (nHeight : Nat) (hash : uint256) : CTransaction :=
  ⟨2, [⟨⟨0, 0xFFFFFFFF⟩, [0x01, nHeight.toUInt8], 0xFFFFFFFF⟩], [⟨5000 * COIN, P2PKH SampleKeyA⟩], 0, hash⟩

/-- A block of a coinbase and transactions on a parent; the coinbase's hash is the block's. -/
def SampleBlock (nHeight : Nat) (hash hashPrevBlock : uint256) (txs : List CTransaction) : CBlock :=
  ⟨CoinbaseTx nHeight hash :: txs, hash, hashPrevBlock, 0x30000000, false⟩

/-- A reissue spending the owner token of its asset and a coin of 400 RVN: the burn, the change,
the owner token back to `SampleKeyA`, and the reissue to `SampleKeyA`. -/
def ReissueTx (hash : uint256) (owner rvn : COutPoint) (nChange : CAmount)
    (reissue : CReissueAsset) : CTransaction :=
  SpendTx hash [owner, rvn]
    [⟨100 * COIN, P2PKH ReissueBurnKey⟩, ⟨nChange, P2PKH SampleKeyA⟩,
     ⟨0, TransferScript (reissue.strName ++ OWNER_TAG) OWNER_ASSET_AMOUNT SampleKeyA⟩,
     ⟨0, reissue.ConstructTransaction (P2PKH SampleKeyA)⟩]

/-- One coin of 1000 RVN at `SampleKeyA`. -/
def RvnCoins : CoinsMap := (∅ : CoinsMap).insert ⟨1, 0⟩ ⟨⟨1000 * COIN, P2PKH SampleKeyA⟩, false, 10⟩

/-! ### A sub-asset issued without its parent's owner token -/

/-- The sub-asset `ABC/DEF`. -/
def SampleSub : CNewAsset := ⟨str "ABC/DEF", COIN, 0, 1, 0, []⟩

/-- Issue `ABC/DEF` from a coin of plain RVN: the sub-asset burn, the owner token, the asset. -/
def SubIssueTx : CTransaction :=
  SpendTx 71 [⟨1, 0⟩]
    [⟨100 * COIN, P2PKH SubBurnKey⟩, ⟨0, SampleSub.ConstructOwnerTransaction (P2PKH SampleKeyA)⟩,
     ⟨0, SampleSub.ConstructTransaction (P2PKH SampleKeyA)⟩]

/-- `CheckTransaction` with an asset cache, `CheckTxAssets` and the asset checks of
`ConnectBlock` all accept `SubIssueTx`, which issues a sub-asset of `ABC` without spending the
owner token `ABC!`, on a node where `ABC` does not even exist. -/
theorem sub_issue_without_parent_owner :
    (CheckTransaction SampleConfig SampleNode SubIssueTx true true false true true
        ⟨AssetGlobals.empty.passets, AssetGlobals.empty⟩).1 = .ok () ∧
      (CheckTxAssets SampleConfig SampleNode SubIssueTx (CCoinsViewCache.ofBase RvnCoins) false
        AssetGlobals.empty).1 = .ok [] ∧
      (ConnectBlockAssetChecks SampleConfig SampleNode SubIssueTx
        ⟨CAssetsCache.empty, AssetGlobals.empty⟩).1 = .ok () ∧
      AssetTypeOf SampleSub.strName = .SUB ∧
      SubIssueTx.vin.all (fun txin =>
        (GetAssetInfoFromCoin SampleHashes MainParams
          ((CCoinsViewCache.ofBase RvnCoins).AccessCoin txin.prevout)).all
            (fun info => info.1 != GetParentName SampleSub.strName ++ OWNER_TAG)) = true := by
  decide +kernel

/-! ### A block whose verdict depends on the mempool -/

/-- The owner token of `ABC` and 400 RVN, as the issue of `ABC` left them. -/
def OwnerView : CCoinsViewCache :=
  CCoinsViewCache.ofBase (((∅ : CoinsMap).insert ⟨11, 2⟩
    ⟨⟨0, SampleRoot.ConstructOwnerTransaction (P2PKH SampleKeyA)⟩, false, 101⟩).insert ⟨11, 1⟩
    ⟨⟨400 * COIN, P2PKH SampleKeyA⟩, false, 101⟩)

/-- A block reissuing `ABC`. -/
def ReissueBlock : CBlock := SampleBlock 102 1002 1001 [ReissueTx 41 ⟨11, 2⟩ ⟨11, 1⟩ (300 * COIN) SampleReissue]

/-- The node globals of a node whose mempool holds another reissue of `ABC`. -/
def LockedNode : NodeGlobals :=
  { SampleNode with mapReissuedAssets := (∅ : AList fun _ : List UInt8 => uint256).insert (str "ABC") 99 }

/-- `ConnectBlock` accepts `ReissueBlock` on a node whose mempool is empty and rejects it on a
node whose mempool holds another reissue of `ABC`, on the same coins and asset state. -/
theorem reissue_verdict_depends_on_mempool :
    (ConnectBlock SampleConfig SampleParams SampleNode ReissueBlock 102 OwnerView true
        ⟨CAssetsCache.empty, RootIssuedGlobals⟩ false).map (fun _ => ()) = .ok () ∧
      (ConnectBlock SampleConfig SampleParams LockedNode ReissueBlock 102 OwnerView true
        ⟨CAssetsCache.empty, RootIssuedGlobals⟩ false).map (fun _ => ()) =
        .error (.reject (str "bad-tx-reissue-chaining-not-allowed")) := by
  decide +kernel

end Ravencoin
