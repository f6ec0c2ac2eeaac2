import Ravencoin.Assets.Names
import Ravencoin.Script.Standard

/-!
# Reading assets from output scripts

The functions of `assets/assets.cpp` and `script/script.cpp` that recognise an asset output,
decode the asset object it carries together with the address it pays, and the per-output
checks built on them: the data outputs of issues and reissues, the burn outputs, the units
check, and `CScript::IsUnspendable`.

## Main definitions

* `Ravencoin.IsScriptNewAsset` and siblings — the kind of asset an output carries.
* `Ravencoin.AssetFromScript`, `Ravencoin.TransferAssetFromScript`,
  `Ravencoin.OwnerAssetFromScript`, `Ravencoin.ReissueAssetFromScript` — the decoders.
* `Ravencoin.GetAssetData`, `Ravencoin.GetAssetInfoFromScript` — name and amount of any asset
  output.
* `Ravencoin.CheckIssueBurnTx`, `Ravencoin.CheckReissueBurnTx` — the burn outputs.
* `Ravencoin.CheckAmountWithUnits`, `Ravencoin.IsUnspendable`.

## Main results

* `Ravencoin.base58_codec_round_trip` — base58 and base58check round trip, and what their
  decoders accept.

## Implementation notes

`TransferAssetFromScript` reads its payload from the fixed byte `31`, while every other decoder
(and `AmountFromTransferScript` in `script.cpp`) reads from the index `IsAssetScript` returns.
The decoders return `none` where the C++ returns `false`; the C++ leaves partially read fields
in its output arguments, which the callers that ignore the result then use. On the paths the
model follows (block connection after `CheckTransaction` and the checks of `ConnectBlock`) every
decoder has succeeded before its result is used, and where a caller ignores a failure the model
uses the default object. The destination of `CAssetOutputEntry` is kept as the encoded address
it is decoded from.
-/

set_option autoImplicit false

namespace Ravencoin

open txnouttype ByteStream

/-! ### Kinds of asset outputs -/

/-- The family `IsScriptNewAsset(script, nStartingIndex)`, `IsScriptOwnerAsset`,
`IsScriptReissueAsset`, `IsScriptTransferAsset`: an asset script of the given type (and owner
flag, when the member checks it), with the index where its payload starts. -/
def IsScriptOfType (nType : txnouttype) (fIsOwner : Option Bool) (s : CScript) : Option Nat :=
  match IsAssetScript s with
  | some (t, owner, n) => if t = nType ∧ fIsOwner.all (· == owner) then some n else none
  | none => none

/-- `IsScriptNewAsset`. -/
def IsScriptNewAsset (s : CScript) : Option Nat := IsScriptOfType TX_NEW_ASSET (some false) s

/-- `IsScriptOwnerAsset`. -/
def IsScriptOwnerAsset (s : CScript) : Option Nat := IsScriptOfType TX_NEW_ASSET (some true) s

/-- `IsScriptReissueAsset`. -/
def IsScriptReissueAsset (s : CScript) : Option Nat := IsScriptOfType TX_REISSUE_ASSET none s

/-- `IsScriptTransferAsset`. -/
def IsScriptTransferAsset (s : CScript) : Option Nat := IsScriptOfType TX_TRANSFER_ASSET none s

/-! ### Decoders -/

/-- `CDataStream(vch) >> obj` on the bytes from `start` on: the object, if the reader does not
run out of bytes. Trailing bytes are not an error. -/
def DecodeFrom {α : Type} (r : Reader α) (s : CScript) (start : Nat) : Option α :=
  (r (s.drop start)).map Prod.fst

section Decoders

variable (H : Hashes) (P : CChainParams)

/-- `TransferAssetFromScript`: the transfer, read from byte `31`, and the address. -/
def TransferAssetFromScript (s : CScript) : Option (CAssetTransfer × List UInt8) := do
  let _ ← IsScriptTransferAsset s
  let transfer ← DecodeFrom CAssetTransfer.Unserialize s 31
  return (transfer, ScriptAddress H P s)

/-- `AssetFromScript`: the new asset and the address. -/
def AssetFromScript (s : CScript) : Option (CNewAsset × List UInt8) := do
  let nStartingIndex ← IsScriptNewAsset s
  let asset ← DecodeFrom CNewAsset.Unserialize s nStartingIndex
  return (asset, ScriptAddress H P s)

/-- `OwnerAssetFromScript`: the owner token's name and the address. -/
def OwnerAssetFromScript (s : CScript) : Option (List UInt8 × List UInt8) := do
  let nStartingIndex ← IsScriptOwnerAsset s
  let assetName ← DecodeFrom ReadString s nStartingIndex
  return (assetName, ScriptAddress H P s)

/-- `ReissueAssetFromScript`: the reissue and the address. -/
def ReissueAssetFromScript (s : CScript) : Option (CReissueAsset × List UInt8) := do
  let nStartingIndex ← IsScriptReissueAsset s
  let reissue ← DecodeFrom CReissueAsset.Unserialize s nStartingIndex
  return (reissue, ScriptAddress H P s)

/-- `IsScriptNewUniqueAsset`: a new-asset output whose name is a unique name. -/
def IsScriptNewUniqueAsset (s : CScript) : Bool :=
  IsAssetScriptB s &&
    match AssetFromScript H P s with
    | some (asset, _) => IsAssetNameValid asset.strName == .ok .UNIQUE
    | none => false

/-- `CAssetOutputEntry`, with the destination kept as its encoded address. -/
structure CAssetOutputEntry where
  type : txnouttype
  assetName : List UInt8
  address : List UInt8
  nAmount : CAmount
deriving DecidableEq, Repr

/-- `GetAssetData`: the type, name, address and amount of an asset output; an owner output
carries `OWNER_ASSET_AMOUNT`. -/
def GetAssetData (s : CScript) : Option CAssetOutputEntry :=
  match IsAssetScript s with
  | none => none
  | some (type, fIsOwner, _) =>
    if type = TX_NEW_ASSET ∧ !fIsOwner then
      (AssetFromScript H P s).map fun (asset, address) => ⟨TX_NEW_ASSET, asset.strName, address, asset.nAmount⟩
    else if type = TX_TRANSFER_ASSET then
      (TransferAssetFromScript H P s).map fun (transfer, address) =>
        ⟨TX_TRANSFER_ASSET, transfer.strName, address, transfer.nAmount⟩
    else if type = TX_NEW_ASSET ∧ fIsOwner then
      (OwnerAssetFromScript H P s).map fun (assetName, address) =>
        ⟨TX_NEW_ASSET, assetName, address, OWNER_ASSET_AMOUNT⟩
    else if type = TX_REISSUE_ASSET then
      (ReissueAssetFromScript H P s).map fun (reissue, address) =>
        ⟨TX_REISSUE_ASSET, reissue.strName, address, reissue.nAmount⟩
    else none

/-- `GetAssetInfoFromScript`: the name and amount of an asset output. -/
def GetAssetInfoFromScript (s : CScript) : Option (List UInt8 × CAmount) :=
  (GetAssetData H P s).map fun data => (data.assetName, data.nAmount)

/-- `GetAssetInfoFromCoin`. -/
def GetAssetInfoFromCoin (coin : Coin) : Option (List UInt8 × CAmount) :=
  GetAssetInfoFromScript H P coin.out.scriptPubKey

/-! ### Checks on single outputs -/

/-- `CheckIssueDataTx`: the output carries a new asset. -/
def CheckIssueDataTx (txOut : CTxOut) : Bool := (IsScriptNewAsset txOut.scriptPubKey).isSome

/-- `CheckReissueDataTx`: the output carries a reissue. -/
def CheckReissueDataTx (txOut : CTxOut) : Bool := (IsScriptReissueAsset txOut.scriptPubKey).isSome

/-- `CheckOwnerDataTx`: the output carries a new owner token. -/
def CheckOwnerDataTx (txOut : CTxOut) : Bool := (IsScriptOwnerAsset txOut.scriptPubKey).isSome

/-- `CheckTransferOwnerTx`: the output carries a transfer. -/
def CheckTransferOwnerTx (txOut : CTxOut) : Bool :=
  (IsScriptTransferAsset txOut.scriptPubKey).isSome

/-- The burn output test shared by `CheckIssueBurnTx` and `CheckReissueBurnTx`: the amount,
then an extractable valid destination whose address is the burn address. -/
def IsBurnOutput (txOut : CTxOut) (burnAmount : CAmount) (burnAddress : List UInt8) : Bool :=
  txOut.nValue == burnAmount &&
    match ExtractDestination H txOut.scriptPubKey with
    | none => false
    | some destination =>
      IsValidDestination destination && EncodeDestination H P destination == burnAddress

/-- `CheckIssueBurnTx(txOut, type, numberIssued)`: the burn of `numberIssued` issues of a
root, sub or unique asset; the two-argument overload passes `1`. -/
def CheckIssueBurnTx (txOut : CTxOut) (type : AssetType) (numberIssued : Int) : Bool :=
  match type with
  | .SUB => IsBurnOutput H P txOut (P.nIssueSubAssetBurnAmount * numberIssued)
      P.strIssueSubAssetBurnAddress
  | .ROOT => IsBurnOutput H P txOut (P.nIssueAssetBurnAmount * numberIssued)
      P.strIssueAssetBurnAddress
  | .UNIQUE => IsBurnOutput H P txOut (P.nIssueUniqueAssetBurnAmount * numberIssued)
      P.strIssueUniqueAssetBurnAddress
  | _ => false

/-- `CheckReissueBurnTx`. -/
def CheckReissueBurnTx (txOut : CTxOut) : Bool :=
  IsBurnOutput H P txOut P.nReissueAssetBurnAmount P.strReissueAssetBurnAddress

end Decoders

/-- `GetTxOutAssetTypes`: the numbers of issue, reissue, transfer and owner outputs. -/
def GetTxOutAssetTypes : List CTxOut → Nat × Nat × Nat × Nat
  | [] => (0, 0, 0, 0)
  | out :: rest =>
    let (issues, reissues, transfers, owners) := GetTxOutAssetTypes rest
    match IsAssetScript out.scriptPubKey with
    | some (TX_NEW_ASSET, false, _) => (issues + 1, reissues, transfers, owners)
    | some (TX_NEW_ASSET, true, _) => (issues, reissues, transfers, owners + 1)
    | some (TX_TRANSFER_ASSET, _, _) => (issues, reissues, transfers + 1, owners)
    | some (TX_REISSUE_ASSET, _, _) => (issues, reissues + 1, transfers, owners)
    | _ => (issues, reissues, transfers, owners)

/-- `CheckAmountWithUnits`: `nAmount % 10^(8 - nUnits) == 0` with C++ truncating `%`. The
C++ computes the power in `double`; for the units `0..8` every caller passes it is exact. -/
def CheckAmountWithUnits (nAmount : CAmount) (nUnits : Int) : Bool :=
  nAmount.tmod (10 ^ (MAX_UNIT - nUnits).toNat) == 0

/-- `EncodeIPFS`: the base58 text of the hash bytes. -/
def EncodeIPFS (decoded : List UInt8) : List UInt8 := EncodeBase58 decoded

/-- `DecodeIPFS`: the bytes that `DecodeBase58` leaves in its output, which stays empty when it
returns `false`. -/
def DecodeIPFS (encoded : List UInt8) : List UInt8 := (DecodeBase58 encoded).getD []

/-- `CheckEncodedIPFS`: the text starts with `Qm`; `none` when it does, else the error. -/
def CheckEncodedIPFS (hash : List UInt8) : Option (List UInt8) :=
  if hash.take 2 != str "Qm" then some (str "Invalid parameter: ipfs_hash must start with \x27Qm\x27.")
  else none

/-! ### Amounts read by `script.cpp` -/

/-- `AmountFromNewAssetScript`. -/
def AmountFromNewAssetScript (s : CScript) : Option CAmount := do
  let nStartingIndex ← IsScriptNewAsset s
  let asset ← DecodeFrom CNewAsset.Unserialize s nStartingIndex
  return asset.nAmount

/-- `AmountFromTransferScript`: unlike `TransferAssetFromScript`, it reads from the index
`IsAssetScript` returns. -/
def AmountFromTransferScript (s : CScript) : Option CAmount := do
  let nStartingIndex ← IsScriptTransferAsset s
  let transfer ← DecodeFrom CAssetTransfer.Unserialize s nStartingIndex
  return transfer.nAmount

/-- `AmountFromReissueScript`. -/
def AmountFromReissueScript (s : CScript) : Option CAmount := do
  let nStartingIndex ← IsScriptReissueAsset s
  let reissue ← DecodeFrom CReissueAsset.Unserialize s nStartingIndex
  return reissue.nAmount

/-- `GetAssetAmountFromScript`. -/
def GetAssetAmountFromScript (s : CScript) : Option CAmount :=
  match IsAssetScript s with
  | none => none
  | some (type, fIsOwner, _) =>
    if type = TX_NEW_ASSET ∧ !fIsOwner then AmountFromNewAssetScript s
    else if type = TX_TRANSFER_ASSET then AmountFromTransferScript s
    else if type = TX_NEW_ASSET ∧ fIsOwner then some OWNER_ASSET_AMOUNT
    else if type = TX_REISSUE_ASSET then AmountFromReissueScript s
    else none

/-- `MAX_SCRIPT_SIZE`. -/
def MAX_SCRIPT_SIZE : Nat := 10000

/-- `CScript::IsUnspendable`: starts with `OP_RETURN`, is too long, or carries zero assets. -/
def IsUnspendable (s : CScript) : Bool :=
  (s.length > 0 && s.head? == some OP_RETURN) || decide (s.length > MAX_SCRIPT_SIZE) ||
    GetAssetAmountFromScript s == some 0

/-! ### Facts -/

section Facts

variable (H : Hashes) (P : CChainParams)

end Facts

/-! ### The base58 codecs -/

/-- Base58, base58check and the IPFS hash text round trip; every pass of both conversion loops
ends with a zero carry in the buffer that the code allocates; and what either decoder accepts is
spaces, a run of the alphabet and spaces up to the end of the C string it reads, the run being
the encoding of the result. -/
theorem base58_codec_round_trip (H : Hashes) (hH : ∀ v, 4 ≤ (H.Hash v).length) :
    (∀ v, DecodeBase58 (EncodeBase58 v) = some v ∧
      DecodeBase58Check H (EncodeBase58Check H v) = some v ∧ DecodeIPFS (EncodeIPFS v) = v) ∧
    (∀ (bytes pre post : List UInt8) (x : UInt8), bytes = pre ++ x :: post →
      DigitBuffer.carryOut 58 256 ((pre.map UInt8.toNat).foldl (DigitBuffer.step 58 256)
        (List.replicate (bytes.length * 138 / 100 + 1) 0, 0)) x.toNat = 0) ∧
    (∀ (strlen : Nat) (pre post : List Nat) (x : Nat), (∀ d ∈ pre ++ x :: post, d < 58) →
      (pre ++ x :: post).length ≤ strlen →
      DigitBuffer.carryOut 256 58 (pre.foldl (DigitBuffer.step 256 58)
        (List.replicate (strlen * 733 / 1000 + 1) 0, 0)) x = 0) ∧
    (∀ s v, DecodeBase58 s = some v → ∃ ws run ws' rest, s = ws ++ run ++ ws' ++ rest ∧
      (∀ c ∈ ws ++ ws', DecodeBase58.IsSpace c = true) ∧ (∀ c ∈ run, c ∈ pszBase58) ∧
      rest.headD 0 = 0 ∧ EncodeBase58 v = run) ∧
    (∀ s v, DecodeBase58Check H s = some v → ∃ ws run ws' rest, s = ws ++ run ++ ws' ++ rest ∧
      (∀ c ∈ ws ++ ws', DecodeBase58.IsSpace c = true) ∧ (∀ c ∈ run, c ∈ pszBase58) ∧
      rest.headD 0 = 0 ∧ EncodeBase58Check H v = run) :=
  ⟨fun v => ⟨DecodeBase58_EncodeBase58 v, DecodeBase58Check_EncodeBase58Check H v (hH v),
      by rw [DecodeIPFS, EncodeIPFS, DecodeBase58_EncodeBase58]; rfl⟩,
    fun bytes _ _ _ h => EncodeBase58_carry_eq_zero bytes h,
    fun strlen _ _ _ hds hlen => DecodeBase58_carry_eq_zero strlen hds hlen,
    fun _ _ h => DecodeBase58_eq_some h,
    fun _ _ h => DecodeBase58Check_eq_some H h⟩

/-- The sample hashes are 32 bytes long, and with them the codecs round trip. -/
theorem base58_codec_round_trip_sample :
    (∀ v, 4 ≤ (SampleHashes.Hash v).length) ∧
      DecodeBase58Check SampleHashes (EncodeBase58Check SampleHashes [0, 1, 2]) = some [0, 1, 2] :=
  have hlen : ∀ v, 4 ≤ (SampleHashes.Hash v).length := by
    intro v
    simp only [SampleHashes]
    split_ifs <;> simp
  ⟨hlen, ((base58_codec_round_trip SampleHashes hlen).1 [0, 1, 2]).2.1⟩

end Ravencoin
