import Ravencoin.Assets.Cache

/-!
# Asset transactions (`CTransaction` asset methods and the `IsValid` checks)

A transaction issues an asset when its last output carries the new asset and the one before
it the owner token; it issues unique assets when its last output carries a unique name; it
reissues when its last output carries a reissue. `VerifyNewAsset`, `VerifyNewUniqueAsset` and
`VerifyReissueAsset` check the burn output, the owner output and the count of asset outputs of
each shape; `CNewAsset::IsValid` and `CReissueAsset::IsValid` check the asset object against the
asset state.

## Main definitions

* `Ravencoin.Halt` — how a check ends without returning: a rejection or an abort.
* `Ravencoin.VoutFromEnd` — `vout[vout.size() - k]` with `size_t` arithmetic.
* `Ravencoin.CTransaction.IsNewAsset`, `IsNewUniqueAsset`, `IsReissueAsset` and the
  `Verify…` checks.
* `Ravencoin.CNewAsset.IsValid`, `Ravencoin.CReissueAsset.IsValid`,
  `Ravencoin.CAssetTransfer.IsValid`.

## Main results

* `Ravencoin.CTransaction.IsNewAsset_abort` — the classifier aborts on a one-output transaction
  whose output carries a new asset.

## Implementation notes

`vout[vout.size() - 2]` on a one-element vector computes the index `2^64 - 1`; the C++
`operator[]` does not check it, and the read is undefined. The model aborts there.
-/

set_option autoImplicit false

namespace Ravencoin

open txnouttype

/-- How a validation function ends when it does not return normally: a rejection with its
reason, or an abort (a failed `assert`, or an out-of-bounds read, after which the C++ has no
defined behaviour). -/
inductive Halt
  | reject (reason : List UInt8)
  | abort (what : List UInt8)
deriving DecidableEq, Repr

/-- `vout[vout.size() - k]`: the index is computed modulo `2^64`. -/
def VoutFromEnd (vout : List CTxOut) (k : Nat) : Except Halt CTxOut :=
  match vout[(vout.length + 2 ^ 64 - k) % 2 ^ 64]? with
  | some out => .ok out
  | none => .error (.abort (str "vout index out of range"))

section Classifiers

variable (H : Hashes) (P : CChainParams)

/-- `CTransaction::IsNewAsset`: the last output carries a new asset, the one before it an owner
token, and the last is not a unique asset. The output before the last is read before any
check of the number of outputs. -/
def CTransaction.IsNewAsset (tx : CTransaction) : Except Halt Bool := do
  let last ← VoutFromEnd tx.vout 1
  if !CheckIssueDataTx last then return false
  let ownerOut ← VoutFromEnd tx.vout 2
  if !CheckOwnerDataTx ownerOut then return false
  if IsScriptNewUniqueAsset H P last.scriptPubKey then return false
  return true

/-- `CTransaction::IsNewUniqueAsset`. -/
def CTransaction.IsNewUniqueAsset (tx : CTransaction) : Except Halt Bool := do
  let last ← VoutFromEnd tx.vout 1
  if !CheckIssueDataTx last then return false
  return IsScriptNewUniqueAsset H P last.scriptPubKey

/-- `CTransaction::IsReissueAsset`. -/
def CTransaction.IsReissueAsset (tx : CTransaction) : Except Halt Bool := do
  let last ← VoutFromEnd tx.vout 1
  return CheckReissueDataTx last

/-- `AssetFromTransaction`: the new asset of an issue transaction's last output. -/
def AssetFromTransaction (tx : CTransaction) : Except Halt (Option (CNewAsset × List UInt8)) := do
  if !(← tx.IsNewAsset H P) then return none
  let last ← VoutFromEnd tx.vout 1
  return AssetFromScript H P last.scriptPubKey

/-- `OwnerFromTransaction`: the owner token of the output before the last. -/
def OwnerFromTransaction (tx : CTransaction) : Except Halt (Option (List UInt8 × List UInt8)) := do
  if !(← tx.IsNewAsset H P) then return none
  let ownerOut ← VoutFromEnd tx.vout 2
  return OwnerAssetFromScript H P ownerOut.scriptPubKey

/-- `ReissueAssetFromTransaction`. -/
def ReissueAssetFromTransaction (tx : CTransaction) :
    Except Halt (Option (CReissueAsset × List UInt8)) := do
  if !(← tx.IsReissueAsset) then return none
  let last ← VoutFromEnd tx.vout 1
  return ReissueAssetFromScript H P last.scriptPubKey

/-- `UniqueAssetFromTransaction`. -/
def UniqueAssetFromTransaction (tx : CTransaction) :
    Except Halt (Option (CNewAsset × List UInt8)) := do
  if !(← tx.IsNewUniqueAsset H P) then return none
  let last ← VoutFromEnd tx.vout 1
  return AssetFromScript H P last.scriptPubKey

/-- `IsNewOwnerTxValid`: the owner output pays the issue's address and carries the issue's
name with `!`. `none` when valid, else the error. -/
def IsNewOwnerTxValid (tx : CTransaction) (assetName address : List UInt8) :
    Except Halt (Option (List UInt8)) := do
  match ← OwnerFromTransaction H P tx with
  | none => return some (str "bad-txns-bad-owner")
  | some (ownerName, ownerAddress) =>
    if ownerAddress ≠ address then return some (str "bad-txns-owner-address-mismatch")
    if ownerName.length < OWNER_LENGTH + MIN_ASSET_LENGTH then
      return some (str "bad-txns-owner-asset-length")
    if ownerName ≠ assetName ++ OWNER_TAG then return some (str "bad-txns-owner-name-mismatch")
    return none

/-! ### The `Verify` checks -/

/-- `vout[vout.size() - k]` where the number of outputs has been checked. -/
def VoutBack (vout : List CTxOut) (k : Nat) : CTxOut := vout.getD (vout.length - k) CTxOut.Null

/-- `CTransaction::VerifyNewAsset`: `none` when it returns `true`, else its `strError`. -/
def CTransaction.VerifyNewAsset (tx : CTransaction) : Option (List UInt8) :=
  if tx.vout.length < 3 then some (str "bad-txns-issue-vout-size-to-small")
  else if !CheckIssueDataTx (VoutBack tx.vout 1) then some (str "bad-txns-issue-data-not-found")
  else if !CheckOwnerDataTx (VoutBack tx.vout 2) then some (str "bad-txns-issue-owner-data-not-found")
  else
  match AssetFromScript H P (VoutBack tx.vout 1).scriptPubKey with
  | none => some (str "bad-txns-issue-serialzation-failed")
  | some (asset, _) =>
  -- the validity of the name is not checked: only the type is kept
  let assetType := AssetTypeOf asset.strName
  match OwnerAssetFromScript H P (VoutBack tx.vout 2).scriptPubKey with
  | none => some (str "bad-txns-issue-owner-serialzation-failed")
  | some (strOwnerName, _) =>
  if strOwnerName ≠ asset.strName ++ OWNER_TAG then
    some (str "bad-txns-issue-owner-name-doesn" ++ [39] ++ str "t-match")
  else if !tx.vout.any (fun out => CheckIssueBurnTx H P out assetType 1) then
    some (str "bad-txns-issue-burn-not-found")
  else
    let (nIssues, nReissues, _, nOwners) := GetTxOutAssetTypes tx.vout
    if nOwners ≠ 1 ∨ nIssues ≠ 1 ∨ nReissues > 0 then
      some (str "bad-txns-failed-issue-asset-formatting-check")
    else none

/-- The scan of `VerifyNewUniqueAsset` over the unique outputs: the common root, the names
seen, and the count; `none` with the error on a decoding failure, a second root or a repeated
name. -/
def ScanUniqueOutputs (outs : List CTxOut) (assetRoot : List UInt8) (names : List (List UInt8))
    (count : Nat) : Except (List UInt8) (List UInt8 × List (List UInt8) × Nat) :=
  match outs with
  | [] => .ok (assetRoot, names, count)
  | out :: rest =>
    if IsScriptNewUniqueAsset H P out.scriptPubKey then
      match AssetFromScript H P out.scriptPubKey with
      | none => .error (str "bad-txns-issue-unique-asset-from-script")
      | some (asset, _) =>
        let root := GetParentName asset.strName
        let assetRoot := if assetRoot = [] then root else assetRoot
        if assetRoot ≠ root then .error (str "bad-txns-issue-unique-asset-compare-failed")
        else if asset.strName ∈ names then
          .error (str "bad-txns-issue-unique-duplicate-name-in-same-tx")
        else ScanUniqueOutputs rest assetRoot (asset.strName :: names) (count + 1)
    else ScanUniqueOutputs rest assetRoot names count

/-- Some output transfers the given name. -/
def HasTransferOf (vout : List CTxOut) (name : List UInt8) : Bool :=
  vout.any fun out =>
    match TransferAssetFromScript H P out.scriptPubKey with
    | some (transfer, _) => transfer.strName == name
    | none => false

/-- `CTransaction::VerifyNewUniqueAsset`. -/
def CTransaction.VerifyNewUniqueAsset (tx : CTransaction) : Option (List UInt8) :=
  if tx.vout.length < 3 then some (str "bad-txns-unique-vout-size-to-small")
  else
  match ScanUniqueOutputs H P tx.vout [] [] 0 with
  | .error e => some e
  | .ok (assetRoot, _, assetOutpointCount) =>
  if assetOutpointCount = 0 then some (str "bad-txns-issue-unique-asset-bad-outpoint-count")
  else if !tx.vout.any (fun out => CheckIssueBurnTx H P out .UNIQUE assetOutpointCount) then
    some (str "bad-txns-issue-unique-asset-burn-outpoints-not-found")
  else if !HasTransferOf H P tx.vout (assetRoot ++ OWNER_TAG) then
    some (str "bad-txns-issue-unique-asset-bad-owner-asset")
  else
    let (nIssues, nReissues, _, nOwners) := GetTxOutAssetTypes tx.vout
    if nOwners > 0 ∨ nReissues > 0 ∨ nIssues ≠ assetOutpointCount then
      some (str "bad-txns-failed-unique-asset-formatting-check")
    else none

/-- `CTransaction::VerifyReissueAsset`. -/
def CTransaction.VerifyReissueAsset (tx : CTransaction) : Option (List UInt8) :=
  if tx.vout.length < 3 then some (str "bad-txns-vout-size-to-small")
  else if !CheckReissueDataTx (VoutBack tx.vout 1) then some (str "bad-txns-reissue-data-not-found")
  else
  match ReissueAssetFromScript H P (VoutBack tx.vout 1).scriptPubKey with
  | none => some (str "bad-txns-reissue-serialization-failed")
  | some (reissue, _) =>
  if !HasTransferOf H P tx.vout (reissue.strName ++ OWNER_TAG) then
    some (str "bad-txns-reissue-owner-outpoint-not-found")
  else if !tx.vout.any (CheckReissueBurnTx H P) then
    some (str "bad-txns-reissue-burn-outpoint-not-found")
  else
    let (nIssues, nReissues, _, nOwners) := GetTxOutAssetTypes tx.vout
    if nOwners > 0 ∨ nReissues ≠ 1 ∨ nIssues > 0 then
      some (str "bad-txns-failed-reissue-asset-formatting-check")
    else none

end Classifiers

/-! ### `IsValid` -/

/-- `CAssetTransfer::IsValid`: a valid name and a positive amount. The RPC layer calls it; no
consensus check does. -/
def CAssetTransfer.IsValid (t : CAssetTransfer) : Option (List UInt8) :=
  let e1 := if !IsAssetNameValidB t.strName then
    some (str "Invalid parameter: asset_name must only consist of valid characters and have a size between 3 and 30 characters. See help for more details.")
    else none
  if t.nAmount ≤ 0 then some (str "Invalid parameter: asset amount can" ++ [39] ++ str "t be equal to or less than zero.")
  else e1

/-- The checks of `CNewAsset::IsValid` after the existence checks; `none` when valid. -/
def CNewAsset.CheckFields (a : CNewAsset) : Option (List UInt8) :=
  match IsAssetNameValid a.strName with
  | .error _ => some (str "Invalid parameter: asset_name must only consist of valid characters and have a size between 3 and 30 characters. See help for more details.")
  | .ok assetType =>
  if assetType = .UNIQUE ∧ a.units ≠ UNIQUE_ASSET_UNITS then
    some (str "Invalid parameter: units must be " ++ str (toString (UNIQUE_ASSET_UNITS / COIN)))
  else if assetType = .UNIQUE ∧ a.nAmount ≠ UNIQUE_ASSET_AMOUNT then
    some (str "Invalid parameter: amount must be " ++ str (toString UNIQUE_ASSET_AMOUNT))
  else if assetType = .UNIQUE ∧ a.nReissuable ≠ 0 then
    some (str "Invalid parameter: reissuable must be 0")
  else if IsAssetNameAnOwner a.strName then
    some (str "Invalid parameters: asset_name can" ++ [39] ++ str "t have a " ++ [39, 33, 39] ++ str " at the end of it. See help for more details.")
  else if a.nAmount ≤ 0 then
    some (str "Invalid parameter: asset amount can" ++ [39] ++ str "t be equal to or less than zero.")
  else if a.nAmount > MAX_MONEY then
    some (str "Invalid parameter: asset amount greater than max money: " ++ str (toString (MAX_MONEY / COIN)))
  else if a.units < 0 ∨ a.units > 8 then some (str "Invalid parameter: units must be between 0-8.")
  else if !CheckAmountWithUnits a.nAmount a.units then
    some (str "Invalid parameter: amount must be divisible by the smaller unit assigned to the asset")
  else if a.nReissuable ≠ 0 ∧ a.nReissuable ≠ 1 then
    some (str "Invalid parameter: reissuable must be 0 or 1")
  else if a.nHasIPFS ≠ 0 ∧ a.nHasIPFS ≠ 1 then some (str "Invalid parameter: has_ipfs must be 0 or 1.")
  else if a.nHasIPFS ≠ 0 ∧ a.strIPFSHash.length ≠ 34 then
    some (str "Invalid parameter: ipfs_hash must be 34 bytes.")
  else if a.nHasIPFS ≠ 0 then CheckEncodedIPFS (EncodeIPFS a.strIPFSHash)
  else none

/-- `CNewAsset::IsValid(strError, assetCache, fCheckMempool, fCheckDuplicateInputs,
fForceDuplicateCheck)`; `mempoolNames` are the names of `mempool.mapAssetToHash`. -/
def CNewAsset.IsValid (a : CNewAsset) (mempoolNames : List (List UInt8)) (fCheckMempool : Bool)
    (fCheckDuplicateInputs fForceDuplicateCheck : Bool) (ctx : AssetsCtx) :
    Option (List UInt8) × AssetsCtx :=
  let (dup, ctx) :=
    if fCheckDuplicateInputs then CheckIfAssetExists a.strName fForceDuplicateCheck ctx
    else (false, ctx)
  if dup then
    (some (str "Invalid parameter: asset_name " ++ [39] ++ a.strName ++ [39] ++ str " has already been used"), ctx)
  else if fCheckMempool ∧ a.strName ∈ mempoolNames then
    (some (str "Asset with this name is already in the mempool"), ctx)
  else (a.CheckFields, ctx)

/-- The checks of `CReissueAsset::IsValid` against the asset being reissued. The supply bound
is computed in `int64_t`. -/
def CReissueAsset.CheckAgainst (r : CReissueAsset) (asset : CNewAsset) : Option (List UInt8) :=
  if asset.nReissuable = 0 then some (str "Unable to reissue asset: reissuable is set to false")
  else if AddInt64 asset.nAmount r.nAmount > MAX_MONEY then
    some (str "Unable to reissue asset: asset_name " ++ [39] ++ r.strName ++ [39] ++
      str " the amount trying to reissue is to large")
  else if !CheckAmountWithUnits r.nAmount asset.units then
    some (str "Unable to reissue asset: amount must be divisible by the smaller unit assigned to the asset")
  else if r.nUnits < asset.units ∧ r.nUnits ≠ -1 then
    some (str "Unable to reissue asset: unit must be larger than current unit selection")
  else none

/-- The checks of `CReissueAsset::IsValid` on the reissue alone. -/
def CReissueAsset.CheckFields (r : CReissueAsset) : Option (List UInt8) :=
  if r.strIPFSHash ≠ [] ∧ r.strIPFSHash.length ≠ 34 then
    some (str "Invalid parameter: ipfs_hash must be 34 bytes.")
  else if r.strIPFSHash ≠ [] ∧ (CheckEncodedIPFS (EncodeIPFS r.strIPFSHash)).isSome then
    CheckEncodedIPFS (EncodeIPFS r.strIPFSHash)
  else if r.nAmount < 0 then some (str "Unable to reissue asset: amount must be 0 or larger")
  else if r.nUnits > MAX_UNIT ∨ r.nUnits < -1 then
    some (str "Unable to reissue asset: unit must be between 8 and -1")
  else none

/-- `CReissueAsset::IsValid(strError, assetCache, fForceCheckPrimaryAssetExists)`. -/
def CReissueAsset.IsValid (r : CReissueAsset) (fForceCheckPrimaryAssetExists : Bool)
    (ctx : AssetsCtx) : Option (List UInt8) × AssetsCtx :=
  if fForceCheckPrimaryAssetExists then
    match GetAssetMetaDataIfExists r.strName ctx with
    | (none, ctx) =>
      (some (str "Unable to reissue asset: asset_name " ++ [39] ++ r.strName ++ [39] ++
        str " doesn" ++ [39] ++ str "t exist in the database"), ctx)
    | (some (asset, _), ctx) =>
      match r.CheckAgainst asset with
      | some e => (some e, ctx)
      | none => (r.CheckFields, ctx)
  else (r.CheckFields, ctx)

/-! ### Facts -/

/-- The classifier aborts on a one-output transaction whose output carries a new asset: it
reads `vout[size - 2]`. -/
theorem CTransaction.IsNewAsset_abort (H : Hashes) (P : CChainParams) (tx : CTransaction)
    (out : CTxOut) (hvout : tx.vout = [out]) (hissue : CheckIssueDataTx out = true) :
    tx.IsNewAsset H P = .error (.abort (str "vout index out of range")) := by
  have h1 : VoutFromEnd tx.vout 1 = .ok out := by
    simp [VoutFromEnd, hvout]
  have h2 : VoutFromEnd tx.vout 2 = .error (.abort (str "vout index out of range")) := by
    simp [VoutFromEnd, hvout]
  simp [CTransaction.IsNewAsset, h1, h2, hissue, bind, Except.bind]

end Ravencoin
