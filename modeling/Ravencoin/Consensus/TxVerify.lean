import Mathlib.Data.List.Perm.Subperm
import Ravencoin.Coins

/-!
# Transaction checks (`consensus/tx_verify.cpp`)

`CheckTransaction` checks a transaction on its own: the basic Bitcoin checks, the asset
outputs one by one, and, when it is given an asset cache, the whole transaction as an issue, a
reissue, a unique issue or a plain transfer. `Consensus::CheckTxInputs` checks the coin values
against the view, and `Consensus::CheckTxAssets` sums the asset amounts of the spent coins and
of the transfer outputs, name by name, and compares the two maps.

## Main definitions

* `Ravencoin.NodeGlobals` — the node-local globals these checks read.
* `Ravencoin.CheckTransaction`, `Ravencoin.CheckTxInputs`, `Ravencoin.CheckTxAssets`.

## Main results

* `Ravencoin.CheckTotalsMatch_eq_none` — when the comparison of `CheckTxAssets` passes, the
  two maps have the same names and the same total for every name.
* `Ravencoin.CheckTxAssets_totals` — so an accepted transaction's per-name totals, each
  summed in `int64_t`, agree.

## Implementation notes

The running sums `nValueOut` and `nValueIn` are checked against `MAX_MONEY` after every
addition, so they never leave `int64_t` and are exact integers here. The per-name totals of
`CheckTxAssets` are not bounded: they are summed with `AddInt64`. A method of `CAssetsCache`
that `GetCurrentAssetCache()` is called on runs on `passets` (`onPassets`).
-/

set_option autoImplicit false

namespace Ravencoin

open txnouttype

/-- The node-local globals the consensus checks read: the latched answer of
`AreAssetsDeployed()`, `fReindex`, the mempool's reissue locks `mapReissuedAssets` and
`mapReissuedTx`, and the names of `mempool.mapAssetToHash`. -/
structure NodeGlobals where
  fAssetsDeployed : Bool
  fReindex : Bool
  mapReissuedAssets : AList fun _ : List UInt8 => uint256
  mapReissuedTx : AList fun _ : uint256 => List UInt8
  mapAssetToHash : List (List UInt8)

/-- The node globals of concrete runs: assets deployed, no reindex, an empty mempool. -/
def SampleNode : NodeGlobals := ⟨true, false, ∅, ∅, []⟩

/-! ### `CheckTransaction` -/

section CheckTransaction

variable (cfg : NodeConfig) (env : NodeGlobals)

/-- The checks of one output in the output loop of `CheckTransaction`: `nValueOut` is the sum
so far, the result the new sum. -/
def CheckTxOut (fAssetCache : Bool) (nValueOut : CAmount) (txout : CTxOut) :
    Except (List UInt8) CAmount :=
  if txout.nValue < 0 then .error (str "bad-txns-vout-negative")
  else if txout.nValue > MAX_MONEY then .error (str "bad-txns-vout-toolarge")
  else
  let nValueOut := nValueOut + txout.nValue
  if !MoneyRange nValueOut then .error (str "bad-txns-txouttotal-toolarge")
  else
  match IsAssetScript txout.scriptPubKey with
  | none => .ok nValueOut
  | some (nType, _, _) =>
    if txout.nValue ≠ 0 then .error (str "bad-txns-asset-tx-amount-isn" ++ [39] ++ str "t-zero")
    else if !env.fAssetsDeployed && !env.fReindex then
      .error (str "bad-txns-is-asset-and-asset-not-active")
    -- only transfers are looked into, and only when there is an asset cache
    else if env.fAssetsDeployed && fAssetCache && nType = TX_TRANSFER_ASSET then
      match TransferAssetFromScript cfg.H cfg.P txout.scriptPubKey with
      | none => .error (str "bad-txns-transfer-asset-bad-deserialize")
      | some (transfer, _) =>
        match IsAssetNameValid transfer.strName with
        | .error _ => .error (str "bad-txns-transfer-asset-name-invalid")
        | .ok assetType =>
          if IsAssetNameAnOwner transfer.strName ∧ transfer.nAmount ≠ OWNER_ASSET_AMOUNT then
            .error (str "bad-txns-transfer-owner-amount-was-not-1")
          else if assetType = .UNIQUE ∧ transfer.nAmount ≠ UNIQUE_ASSET_AMOUNT then
            .error (str "bad-txns-transfer-unique-amount-was-not-1")
          else .ok nValueOut
    else .ok nValueOut

/-- The output loop of `CheckTransaction`: the first rejection, if any. -/
def CheckTxOuts (fAssetCache : Bool) : CAmount → List CTxOut → Option (List UInt8)
  | _, [] => none
  | nValueOut, txout :: rest =>
    match CheckTxOut cfg env fAssetCache nValueOut txout with
    | .error e => some e
    | .ok nValueOut => CheckTxOuts fAssetCache nValueOut rest

/-- The checks of `CheckTransaction` before the asset classification. -/
def CheckTransactionBasic (tx : CTransaction) (fAssetCache fCheckDuplicateInputs : Bool) :
    Option (List UInt8) :=
  if tx.vin = [] then some (str "bad-txns-vin-empty")
  else if tx.vout = [] then some (str "bad-txns-vout-empty")
  else if tx.GetSerializeSize * WITNESS_SCALE_FACTOR > GetMaxBlockWeight then
    some (str "bad-txns-oversize")
  else
  match CheckTxOuts cfg env fAssetCache 0 tx.vout with
  | some e => some e
  | none =>
  if fCheckDuplicateInputs ∧ ¬(tx.vin.map (·.prevout)).Nodup then
    some (str "bad-txns-inputs-duplicate")
  else if tx.IsCoinBase then
    match tx.vin with
    | txin :: _ =>
      if txin.scriptSig.length < 2 ∨ txin.scriptSig.length > 100 then some (str "bad-cb-length")
      else none
    | [] => none
  else if tx.vin.any (·.prevout.IsNull) then some (str "bad-txns-prevout-null")
  else none

/-- The issue branch of `CheckTransaction`. -/
def CheckNewAssetTx (tx : CTransaction) (fMemPoolCheck fCheckAssetDuplicate fForceDuplicateCheck : Bool)
    (ctx : AssetsCtx) : Except Halt Unit × AssetsCtx :=
  match tx.VerifyNewAsset cfg.H cfg.P with
  | some strError => (.error (.reject strError), ctx)
  | none =>
  match AssetFromTransaction cfg.H cfg.P tx with
  | .error h => (.error h, ctx)
  | .ok none => (.error (.reject (str "bad-txns-issue-asset-from-transaction")), ctx)
  | .ok (some (asset, strAddress)) =>
  match IsNewOwnerTxValid cfg.H cfg.P tx asset.strName strAddress with
  | .error h => (.error h, ctx)
  | .ok (some strError) => (.error (.reject strError), ctx)
  | .ok none =>
  match asset.IsValid env.mapAssetToHash fMemPoolCheck fCheckAssetDuplicate fForceDuplicateCheck ctx with
  | (some strError, ctx) => (.error (.reject (str "bad-txns-issue-" ++ strError)), ctx)
  | (none, ctx) => (.ok (), ctx)

/-- The reissue branch of `CheckTransaction`: the primary asset is not required to exist. -/
def CheckReissueTx (tx : CTransaction) (ctx : AssetsCtx) : Except Halt Unit × AssetsCtx :=
  match tx.VerifyReissueAsset cfg.H cfg.P with
  | some strError => (.error (.reject strError), ctx)
  | none =>
  match ReissueAssetFromTransaction cfg.H cfg.P tx with
  | .error h => (.error h, ctx)
  | .ok none => (.error (.reject (str "bad-txns-reissue-asset")), ctx)
  | .ok (some (reissue, _)) =>
  match reissue.IsValid false ctx with
  | (some strError, ctx) => (.error (.reject (str "bad-txns-reissue-" ++ strError)), ctx)
  | (none, ctx) => (.ok (), ctx)

/-- The loop over the outputs of a unique issue, in `CheckTransaction` and in `ConnectBlock`:
every unique asset output decodes and its asset is valid. The two callers differ in the flags
they pass to `CNewAsset::IsValid`, the rejection of a failed decoding, and the prefix of the
rejection of an invalid asset. -/
def CheckUniqueOutputs (mempoolNames : List (List UInt8))
    (fCheckMempool fCheckDuplicateInputs fForceDuplicateCheck : Bool)
    (strSerializationError strErrorPrefix : List UInt8) :
    List CTxOut → AssetsCtx → Except Halt Unit × AssetsCtx
  | [], ctx => (.ok (), ctx)
  | out :: rest, ctx =>
    if IsScriptNewUniqueAsset cfg.H cfg.P out.scriptPubKey then
      match AssetFromScript cfg.H cfg.P out.scriptPubKey with
      | none => (.error (.reject strSerializationError), ctx)
      | some (asset, _) =>
        match asset.IsValid mempoolNames fCheckMempool fCheckDuplicateInputs fForceDuplicateCheck ctx with
        | (some strError, ctx) => (.error (.reject (strErrorPrefix ++ strError)), ctx)
        | (none, ctx) =>
          CheckUniqueOutputs mempoolNames fCheckMempool fCheckDuplicateInputs fForceDuplicateCheck
            strSerializationError strErrorPrefix rest ctx
    else
      CheckUniqueOutputs mempoolNames fCheckMempool fCheckDuplicateInputs fForceDuplicateCheck
        strSerializationError strErrorPrefix rest ctx

/-- The unique-issue branch of `CheckTransaction`. -/
def CheckUniqueTx (tx : CTransaction) (fMemPoolCheck fCheckAssetDuplicate fForceDuplicateCheck : Bool)
    (ctx : AssetsCtx) : Except Halt Unit × AssetsCtx :=
  match tx.VerifyNewUniqueAsset cfg.H cfg.P with
  | some strError => (.error (.reject strError), ctx)
  | none =>
    CheckUniqueOutputs cfg env.mapAssetToHash fMemPoolCheck fCheckAssetDuplicate fForceDuplicateCheck
      (str "bad-txns-check-transaction-issue-unique-asset-serialization") (str "bad-txns-") tx.vout ctx

/-- The last branch of `CheckTransaction`: every asset output is a transfer, and no other
output holds `OP_RVN_ASSET`. -/
def CheckTransferOnlyTx (tx : CTransaction) : Option (List UInt8) :=
  tx.vout.findSome? fun out =>
    match IsAssetScript out.scriptPubKey with
    | some (nType, _, _) =>
      if nType ≠ TX_TRANSFER_ASSET then some (str "bad-txns-bad-asset-transaction") else none
    | none =>
      if FindOp OP_RVN_ASSET out.scriptPubKey > 0 then some (str "bad-txns-bad-asset-script")
      else none

/-- The asset classification of `CheckTransaction`, run on the cache `assetCache` points to. -/
def CheckTransactionAssets (tx : CTransaction)
    (fMemPoolCheck fCheckAssetDuplicate fForceDuplicateCheck : Bool) (ctx : AssetsCtx) :
    Except Halt Unit × AssetsCtx :=
  match tx.IsNewAsset cfg.H cfg.P with
  | .error h => (.error h, ctx)
  | .ok true => CheckNewAssetTx cfg env tx fMemPoolCheck fCheckAssetDuplicate fForceDuplicateCheck ctx
  | .ok false =>
  match tx.IsReissueAsset with
  | .error h => (.error h, ctx)
  | .ok true => CheckReissueTx cfg tx ctx
  | .ok false =>
  match tx.IsNewUniqueAsset cfg.H cfg.P with
  | .error h => (.error h, ctx)
  | .ok true => CheckUniqueTx cfg env tx fMemPoolCheck fCheckAssetDuplicate fForceDuplicateCheck ctx
  | .ok false =>
    match CheckTransferOnlyTx tx with
    | some e => (.error (.reject e), ctx)
    | none => (.ok (), ctx)

/-- `CheckTransaction(tx, state, assetCache, fCheckDuplicateInputs, fMemPoolCheck,
fCheckAssetDuplicate, fForceDuplicateCheck)`; `fAssetCache` says whether `assetCache` is
non-null, and `ctx` is the cache it points to. -/
def CheckTransaction (tx : CTransaction) (fAssetCache : Bool)
    (fCheckDuplicateInputs fMemPoolCheck fCheckAssetDuplicate fForceDuplicateCheck : Bool)
    (ctx : AssetsCtx) : Except Halt Unit × AssetsCtx :=
  match CheckTransactionBasic cfg env tx fAssetCache fCheckDuplicateInputs with
  | some e => (.error (.reject e), ctx)
  | none =>
    if env.fAssetsDeployed && fAssetCache then
      CheckTransactionAssets cfg env tx fMemPoolCheck fCheckAssetDuplicate fForceDuplicateCheck ctx
    else (.ok (), ctx)

/-- With assets deployed and an asset cache, `CheckTransaction` aborts on a transaction that
passes the basic checks and has a single output carrying a new asset: `IsNewAsset` reads the
output before it. -/
theorem CheckTransaction_single_issue_abort {tx : CTransaction} {out : CTxOut}
    (fCheckDuplicateInputs fMemPoolCheck fCheckAssetDuplicate fForceDuplicateCheck : Bool)
    (ctx : AssetsCtx) (hdeployed : env.fAssetsDeployed = true)
    (hbasic : CheckTransactionBasic cfg env tx true fCheckDuplicateInputs = none)
    (hvout : tx.vout = [out]) (hissue : CheckIssueDataTx out = true) :
    CheckTransaction cfg env tx true fCheckDuplicateInputs fMemPoolCheck fCheckAssetDuplicate
      fForceDuplicateCheck ctx = (.error (.abort (str "vout index out of range")), ctx) := by
  have habort := CTransaction.IsNewAsset_abort cfg.H cfg.P tx out hvout hissue
  simp [CheckTransaction, hbasic, hdeployed, CheckTransactionAssets, habort]

end CheckTransaction

/-- A transaction of the concrete runs, spending the given outpoints with empty signatures. -/
def SpendTx (hash : uint256) (ins : List COutPoint) (outs : List CTxOut) : CTransaction :=
  ⟨2, ins.map (fun o => ⟨o, [], 0xFFFFFFFF⟩), outs, 0, hash⟩

/-- A transaction whose only output issues `ABC`. -/
def SingleIssueTx : CTransaction :=
  SpendTx 3 [⟨1, 0⟩] [⟨0, SampleRoot.ConstructTransaction (P2PKH SampleKeyA)⟩]

/-- `CheckTransaction`, with assets deployed and the default flags, reads past the outputs of
`SingleIssueTx`. -/
theorem single_issue_output_aborts :
    CheckTransaction SampleConfig SampleNode SingleIssueTx true true false true true
        ⟨AssetGlobals.empty.passets, AssetGlobals.empty⟩ =
      (.error (.abort (str "vout index out of range")), ⟨AssetGlobals.empty.passets, AssetGlobals.empty⟩) :=
  CheckTransaction_single_issue_abort SampleConfig SampleNode true false true true _ rfl
    (by decide +kernel) rfl (by decide +kernel)

/-! ### `Consensus::CheckTxInputs` -/

/-- `CTransaction::GetValueOut`: throws when an output or a partial sum leaves the money
range. -/
def GetValueOut (vout : List CTxOut) : Except Halt CAmount :=
  vout.foldlM (fun nValueOut txout =>
    let nValueOut := nValueOut + txout.nValue
    if !MoneyRange txout.nValue || !MoneyRange nValueOut then
      .error (.abort (str "GetValueOut: value out of range"))
    else .ok nValueOut) 0

/-- The input loop of `CheckTxInputs`: the sum of the input values. -/
def SumInputValues (inputs : CCoinsViewCache) (nSpendHeight : Int) :
    CAmount → List CTxIn → Except Halt CAmount
  | nValueIn, [] => .ok nValueIn
  | nValueIn, txin :: rest =>
    let coin := inputs.AccessCoin txin.prevout
    if coin.IsSpent then .error (.abort (str "assert(!coin.IsSpent())"))
    else if coin.fCoinBase ∧ nSpendHeight - coin.nHeight < COINBASE_MATURITY then
      .error (.reject (str "bad-txns-premature-spend-of-coinbase"))
    else
      let nValueIn := nValueIn + coin.out.nValue
      if !MoneyRange coin.out.nValue || !MoneyRange nValueIn then
        .error (.reject (str "bad-txns-inputvalues-outofrange"))
      else SumInputValues inputs nSpendHeight nValueIn rest

/-- `Consensus::CheckTxInputs`: the fee. -/
def CheckTxInputs (tx : CTransaction) (inputs : CCoinsViewCache) (nSpendHeight : Int) :
    Except Halt CAmount := do
  if !inputs.HaveInputs tx then throw (.reject (str "bad-txns-inputs-missingorspent"))
  let nValueIn ← SumInputValues inputs nSpendHeight 0 tx.vin
  let value_out ← GetValueOut tx.vout
  if nValueIn < value_out then throw (.reject (str "bad-txns-in-belowout"))
  let txfee_aux := nValueIn - value_out
  if !MoneyRange txfee_aux then throw (.reject (str "bad-txns-fee-out-of-range"))
  return txfee_aux

/-! ### `Consensus::CheckTxAssets` -/

/-- A `std::map<std::string, CAmount>` of per-name totals. -/
abbrev AssetTotals := AList fun _ : List UInt8 => CAmount

/-- `totals[name] += amount`, or insert the amount, in `int64_t`. -/
def AddToTotal (m : AssetTotals) (name : List UInt8) (amount : CAmount) : AssetTotals :=
  match m.lookup name with
  | some v => m.insert name (AddInt64 v amount)
  | none => m.insert name amount

section CheckTxAssets

variable (cfg : NodeConfig)

/-- The input loop of `CheckTxAssets`: the totals of the asset coins spent. -/
def TotalInputs (inputs : CCoinsViewCache) : List CTxIn → AssetTotals → Except Halt AssetTotals
  | [], m => .ok m
  | txin :: rest, m =>
    let coin := inputs.AccessCoin txin.prevout
    if coin.IsSpent then .error (.abort (str "assert(!coin.IsSpent())"))
    else if coin.IsAsset then
      match GetAssetInfoFromCoin cfg.H cfg.P coin with
      | none => .error (.reject (str "bad-txns-failed-to-get-asset-from-script"))
      | some (strName, nAmount) => TotalInputs inputs rest (AddToTotal m strName nAmount)
    else TotalInputs inputs rest m

/-- The output loop of `CheckTxAssets`, run on `GetCurrentAssetCache()`: the totals of the
transfer outputs, and the reissues to lock. -/
def TotalOutputs (mapReissuedAssets : AList fun _ : List UInt8 => uint256) (txHash : uint256)
    (fRunningUnitTests : Bool) :
    List CTxOut → AssetTotals → List (List UInt8 × uint256) → AssetsCtx →
      Except Halt (AssetTotals × List (List UInt8 × uint256)) × AssetsCtx
  | [], m, v, ctx => (.ok (m, v), ctx)
  | txout :: rest, m, v, ctx =>
    if IsTransferAsset txout.scriptPubKey then
      match TransferAssetFromScript cfg.H cfg.P txout.scriptPubKey with
      | none => (.error (.reject (str "bad-tx-asset-transfer-bad-deserialize")), ctx)
      | some (transfer, _) =>
        let m := AddToTotal m transfer.strName transfer.nAmount
        if fRunningUnitTests then TotalOutputs mapReissuedAssets txHash fRunningUnitTests rest m v ctx
        else if IsAssetNameAnOwner transfer.strName then
          if transfer.nAmount ≠ OWNER_ASSET_AMOUNT then
            (.error (.reject (str "bad-txns-transfer-owner-amount-was-not-1")), ctx)
          else TotalOutputs mapReissuedAssets txHash fRunningUnitTests rest m v ctx
        else
          match GetAssetMetaDataIfExists transfer.strName ctx with
          | (none, ctx) => (.error (.reject (str "bad-txns-transfer-asset-not-exist")), ctx)
          | (some (asset, _), ctx) =>
            if asset.strName ≠ transfer.strName then
              (.error (.reject (str "bad-txns-asset-database-corrupted")), ctx)
            else if !CheckAmountWithUnits transfer.nAmount asset.units then
              (.error (.reject (str "bad-txns-transfer-asset-amount-not-match-units")), ctx)
            else TotalOutputs mapReissuedAssets txHash fRunningUnitTests rest m v ctx
    else if IsReissueAsset txout.scriptPubKey then
      match ReissueAssetFromScript cfg.H cfg.P txout.scriptPubKey with
      | none => (.error (.reject (str "bad-tx-asset-reissue-bad-deserialize")), ctx)
      | some (reissue, _) =>
        let (err, ctx) := if fRunningUnitTests then (none, ctx) else reissue.IsValid true ctx
        match err with
        | some strError => (.error (.reject (str "bad-txns" ++ strError)), ctx)
        | none =>
          -- the mempool's lock on the name
          match mapReissuedAssets.lookup reissue.strName with
          | some h =>
            if h ≠ txHash then (.error (.reject (str "bad-tx-reissue-chaining-not-allowed")), ctx)
            else TotalOutputs mapReissuedAssets txHash fRunningUnitTests rest m v ctx
          | none =>
            TotalOutputs mapReissuedAssets txHash fRunningUnitTests rest m
              (v ++ [(reissue.strName, txHash)]) ctx
    else TotalOutputs mapReissuedAssets txHash fRunningUnitTests rest m v ctx

end CheckTxAssets

/-- The final loop of `CheckTxAssets` over the output totals, in the map's order, then the
comparison of the sizes. -/
def CheckTotalsMatch (totalInputs totalOutputs : AssetTotals) : List (List UInt8) → Option (List UInt8)
  | [] =>
    if totalOutputs.keys.length ≠ totalInputs.keys.length then
      some (str "bad-tx-asset-inputs-size-does-not-match-outputs-size")
    else none
  | name :: rest =>
    match totalInputs.lookup name with
    | none => some (str "bad-tx-inputs-outputs-mismatch " ++
        str "Bad Transaction - Trying to create outpoint for asset that you don" ++ [39] ++
        str "t have: " ++ name)
    | some nIn =>
      if some nIn ≠ totalOutputs.lookup name then
        some (str "bad-tx-inputs-outputs-mismatch " ++ str "Bad Transaction - Assets would be burnt " ++ name)
      else CheckTotalsMatch totalInputs totalOutputs rest

/-- The names of a map of totals in the map's order. -/
def SortedNames (m : AssetTotals) : List (List UInt8) :=
  m.keys.insertionSort fun a b => !StringLt b a

/-- `Consensus::CheckTxAssets(tx, state, inputs, vPairReissueAssets, fRunningUnitTests)`:
the reissues to lock, or why the transaction is rejected. -/
def CheckTxAssets (cfg : NodeConfig) (env : NodeGlobals) (tx : CTransaction)
    (inputs : CCoinsViewCache) (fRunningUnitTests : Bool) (g : AssetGlobals) :
    Except Halt (List (List UInt8 × uint256)) × AssetGlobals :=
  if !inputs.HaveInputs tx then (.error (.reject (str "bad-txns-inputs-missing-or-spent")), g)
  else
  match TotalInputs cfg inputs tx.vin ∅ with
  | .error h => (.error h, g)
  | .ok totalInputs =>
  match onPassets (TotalOutputs cfg env.mapReissuedAssets tx.GetHash fRunningUnitTests tx.vout ∅ []) g with
  | (.error h, g) => (.error h, g)
  | (.ok (totalOutputs, v), g) =>
  match CheckTotalsMatch totalInputs totalOutputs (SortedNames totalOutputs) with
  | some e => (.error (.reject e), g)
  | none => (.ok v, g)

/-! ### What the comparison guarantees -/

/-- The final loop passes only when every name it walks has the same total on both sides. -/
theorem CheckTotalsMatch_lookup {ins outs : AssetTotals} {names : List (List UInt8)}
    (h : CheckTotalsMatch ins outs names = none) :
    (∀ name ∈ names, ins.lookup name = outs.lookup name) ∧ outs.keys.length = ins.keys.length := by
  induction names with
  | nil =>
    simp only [CheckTotalsMatch] at h
    split_ifs at h with hlen
    exact ⟨by simp, not_not.1 hlen⟩
  | cons name rest ih =>
    simp only [CheckTotalsMatch] at h
    split at h
    · cases h
    · next nIn hin =>
      split_ifs at h with hne
      obtain ⟨hall, hlen⟩ := ih h
      refine ⟨?_, hlen⟩
      intro n hn
      rcases List.mem_cons.1 hn with rfl | hn
      · rw [hin]
        exact not_not.1 hne
      · exact hall n hn

/-- When the comparison of `CheckTxAssets` passes, the maps of totals agree: the same names,
and for every name the same total.

**Proof sketch.** The loop over the names of `outs` makes each of them a name of `ins` with the
same total; the size comparison then leaves `ins` no other name, since its names are distinct
and at least as many as those of `outs`. -/
theorem CheckTotalsMatch_eq_none {ins outs : AssetTotals}
    (h : CheckTotalsMatch ins outs (SortedNames outs) = none) (name : List UInt8) :
    ins.lookup name = outs.lookup name := by
  obtain ⟨hall, hlen⟩ := CheckTotalsMatch_lookup h
  have hperm : (SortedNames outs).Perm outs.keys := List.perm_insertionSort _ _
  -- every name of `outs` is a name of `ins`
  have hsub : outs.keys ⊆ ins.keys := by
    intro n hn
    have hout : (outs.lookup n).isSome := by
      rw [AList.lookup_isSome]
      exact hn
    rw [← hall n (hperm.mem_iff.2 hn)] at hout
    exact (AList.lookup_isSome).1 hout
  have hkeys : outs.keys.Perm ins.keys :=
    (List.subperm_of_subset outs.nodupKeys hsub).perm_of_length_le hlen.ge
  by_cases hn : name ∈ outs.keys
  · exact hall name (hperm.mem_iff.2 hn)
  · have hn' : name ∉ ins.keys := fun h => hn (hkeys.mem_iff.2 h)
    rw [AList.lookup_eq_none.2 hn, AList.lookup_eq_none.2 hn']

/-- What an accepted `CheckTxAssets` has computed: the totals of the asset coins spent and
of the transfer outputs, equal name by name. -/
theorem CheckTxAssets_totals {cfg : NodeConfig} {env : NodeGlobals} {tx : CTransaction}
    {inputs : CCoinsViewCache} {fRunningUnitTests : Bool} {g : AssetGlobals}
    {v : List (List UInt8 × uint256)}
    (h : (CheckTxAssets cfg env tx inputs fRunningUnitTests g).1 = .ok v) :
    ∃ ins outs, TotalInputs cfg inputs tx.vin ∅ = .ok ins ∧
      (TotalOutputs cfg env.mapReissuedAssets tx.GetHash fRunningUnitTests tx.vout ∅ []
        ⟨g.passets, g⟩).1 = .ok (outs, v) ∧
      ∀ name, ins.lookup name = outs.lookup name := by
  unfold CheckTxAssets at h
  split_ifs at h with hhave
  split at h
  · cases h
  · next ins hins =>
    split at h
    · cases h
    · next outs v' g' hout =>
      split at h
      · cases h
      · next hmatch =>
        cases h
        refine ⟨ins, outs, hins, ?_, CheckTotalsMatch_eq_none hmatch⟩
        simp only [onPassets, Prod.mk.injEq] at hout
        exact hout.1

/-! ### A negative transfer -/

/-- The script of a transfer of `nAmount` of `name` to a key hash. -/
def TransferScript (name : List UInt8) (nAmount : CAmount) (key : List UInt8) : CScript :=
  CAssetTransfer.ConstructTransaction ⟨name, nAmount⟩ (P2PKH key)

/-- Asset globals whose database holds `ABC`. -/
def RootIssuedGlobals : AssetGlobals :=
  { AssetGlobals.empty with passetsdb := { CAssetsDB.empty with
      assetData := (∅ : AList fun _ : List UInt8 => AssetRecord).insert SampleRoot.strName
        ⟨SampleRoot, 101, 7⟩ } }

/-- A view holding one coin: one unit of `ABC` at `SampleKeyA`. -/
def TransferCoinView : CCoinsViewCache :=
  CCoinsViewCache.ofBase ((∅ : CoinsMap).insert ⟨5, 0⟩
    ⟨⟨0, TransferScript (str "ABC") COIN SampleKeyA⟩, false, 102⟩)

/-- Pass the unit of `ABC` of `TransferCoinView` on to `SampleKeyB`. -/
def OneTransferTx : CTransaction :=
  SpendTx 7 [⟨5, 0⟩] [⟨0, TransferScript (str "ABC") COIN SampleKeyB⟩]

theorem CheckTxAssets_totals_transfer :
    (CheckTxAssets SampleConfig SampleNode OneTransferTx TransferCoinView false
        RootIssuedGlobals).1 = .ok [] ∧
      ∃ ins outs, TotalInputs SampleConfig TransferCoinView OneTransferTx.vin ∅ = .ok ins ∧
        (TotalOutputs SampleConfig SampleNode.mapReissuedAssets OneTransferTx.GetHash false
          OneTransferTx.vout ∅ [] ⟨RootIssuedGlobals.passets, RootIssuedGlobals⟩).1 =
          .ok (outs, []) ∧
        ∀ name, ins.lookup name = outs.lookup name :=
  have hok : (CheckTxAssets SampleConfig SampleNode OneTransferTx TransferCoinView false
      RootIssuedGlobals).1 = .ok [] := by
    decide +kernel
  ⟨hok, CheckTxAssets_totals hok⟩

/-- Spend the unit of `ABC` into two units to `SampleKeyB` and minus one unit to
`SampleKeyA`. -/
def NegativeTransferTx : CTransaction :=
  SpendTx 6 [⟨5, 0⟩]
    [⟨0, TransferScript (str "ABC") (2 * COIN) SampleKeyB⟩, ⟨0, TransferScript (str "ABC") (-COIN) SampleKeyA⟩]

/-- `CheckTransaction` with an asset cache and `CheckTxAssets` both accept `NegativeTransferTx`,
one of whose transfer outputs carries a negative amount. -/
theorem negative_transfer_accepted :
    (CheckTransaction SampleConfig SampleNode NegativeTransferTx true true false true true
        ⟨RootIssuedGlobals.passets, RootIssuedGlobals⟩).1 = .ok () ∧
      (CheckTxAssets SampleConfig SampleNode NegativeTransferTx TransferCoinView false
        RootIssuedGlobals).1 = .ok [] ∧
      NegativeTransferTx.vout.filterMap (fun out =>
        (TransferAssetFromScript SampleHashes MainParams out.scriptPubKey).map (·.1.nAmount)) =
        [2 * COIN, -COIN] := by
  decide +kernel

end Ravencoin
