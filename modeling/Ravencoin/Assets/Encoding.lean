import Ravencoin.Assets.Transactions

/-!
# Asset scripts written and read back

`CNewAsset::ConstructTransaction` and its siblings append `OP_RVN_ASSET`, a push of `"rvn"`,
the type tag and the serialized object, and `OP_DROP` to a destination script;
`AssetFromScript` and its siblings find the payload with `CScript::IsAssetScript` and read the
object back. This file relates the two directions on the scripts the decoders accept.

## Main results

* `Ravencoin.ipfs_prefix_not_round_tripped` — a new asset whose IPFS hash passes
  `CNewAsset::IsValid` is read back with another hash: the reader re-creates the multihash
  prefix `0x12 0x20` instead of reading it.
* `Ravencoin.transfer_script_without_drop_decodes` — the decoders accept a transfer script
  that no `ConstructTransaction` writes.
* `Ravencoin.pushdata1_transfer_decoders_disagree` — on a transfer script in the
  `OP_PUSHDATA1` layout, `TransferAssetFromScript` fails while `AmountFromTransferScript`
  reads the amount.

## Implementation notes

The payload sits at byte `31` after a one-byte push and at byte `32` after an `OP_PUSHDATA1`
push; `IsAssetScript` tells the two apart by byte `27`, and `TransferAssetFromScript` always
reads from byte `31`.
-/

set_option autoImplicit false

namespace Ravencoin

/-! ### The IPFS hash of a new asset -/

/-- A new asset whose 34-byte IPFS hash has `0x21` as its second byte. Its base58 text starts
with `Qm`, which is all `CNewAsset::IsValid` asks of the hash. -/
def OddPrefixIPFSAsset : CNewAsset :=
  ⟨str "ABC", COIN, 0, 0, 1, [0x12, 0x21] ++ List.replicate 32 0⟩

theorem ipfs_prefix_not_round_tripped :
    (∀ ctx, (OddPrefixIPFSAsset.IsValid [] false false false ctx).1 = none) ∧
      (AssetFromScript SampleHashes MainParams
        (OddPrefixIPFSAsset.ConstructTransaction (P2PKH SampleKeyA))).map Prod.fst =
        some { OddPrefixIPFSAsset with strIPFSHash := [0x12, 0x20] ++ List.replicate 32 0 } := by
  have hfields : OddPrefixIPFSAsset.CheckFields = none := by decide +kernel
  refine ⟨fun ctx => ?_, by decide +kernel⟩
  simpa [CNewAsset.IsValid] using hfields

/-! ### Scripts the decoders accept -/

/-- The transfer of one `ABC`. -/
def OneABC : CAssetTransfer := ⟨str "ABC", COIN⟩

/-- A transfer script without the final `OP_DROP`. -/
def TransferScriptWithoutDrop : CScript :=
  P2PKH SampleKeyA ++ [OP_RVN_ASSET] ++ PushData ([RVN_R, RVN_V, RVN_N, RVN_T] ++ OneABC.Serialize)

/-- `TransferAssetFromScript` reads the transfer and the address of `SampleKeyA` from
`TransferScriptWithoutDrop`, but no destination script followed by
`CAssetTransfer::ConstructTransaction` is that script: each of those ends in `OP_DROP`. -/
theorem transfer_script_without_drop_decodes :
    TransferAssetFromScript SampleHashes MainParams TransferScriptWithoutDrop =
        some (OneABC, EncodeDestination SampleHashes MainParams (.CKeyID SampleKeyA)) ∧
      ∀ script, OneABC.ConstructTransaction script ≠ TransferScriptWithoutDrop := by
  refine ⟨by decide +kernel, fun script h => ?_⟩
  have hlast := congrArg List.getLast? h
  have hdrop : (OneABC.ConstructTransaction script).getLast? = some OP_DROP := by
    rw [CAssetTransfer.ConstructTransaction, AppendAssetPayload, List.getLast?_concat]
  have hend : TransferScriptWithoutDrop.getLast? = some 0 := by decide
  rw [hdrop, hend] at hlast
  cases hlast

/-- A transfer script in the `OP_PUSHDATA1` layout: the push opcode, the length `16`, the
`"rvn"` marker at bytes `28..30` and the tag at byte `31`. -/
def PushData1TransferScript : CScript :=
  P2PKH SampleKeyA ++ [OP_RVN_ASSET, OP_PUSHDATA1, 16] ++ [RVN_R, RVN_V, RVN_N, RVN_T] ++
    OneABC.Serialize ++ [OP_DROP]

/-- On `PushData1TransferScript`, `IsAssetScript` reports a transfer whose data starts at
byte `32`; `TransferAssetFromScript` reads from byte `31`, takes the tag `t` for a string
length and fails, while `AmountFromTransferScript` reads one `ABC`, and the output is not
unspendable. -/
theorem pushdata1_transfer_decoders_disagree :
    IsAssetScript PushData1TransferScript = some (.TX_TRANSFER_ASSET, false, 32) ∧
      TransferAssetFromScript SampleHashes MainParams PushData1TransferScript = none ∧
      AmountFromTransferScript PushData1TransferScript = some COIN ∧
      IsUnspendable PushData1TransferScript = false := by
  decide +kernel

end Ravencoin
