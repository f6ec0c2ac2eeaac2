import Ravencoin.Validation.Disconnect
import Ravencoin.Assets.Dump

/-!
# The active chain (`ConnectTip`, `DisconnectTip`, `FlushStateToDisk`)

The node moves its tip one block at a time. `ConnectTip` connects a block on a fresh view over
`pcoinsTip` and a fresh asset cache over `passets`; when `ConnectBlock` accepts, both are
flushed into their parents and the mempool's reissue locks of the block's transactions are
released. `DisconnectTip` does the same with `DisconnectBlock` on the tip block, which must
return `DISCONNECT_OK`. `FlushStateToDisk` writes `passets` to the asset database. Any
interleaving of these steps from a state without assets is a run of the node.

## Main definitions

* `Ravencoin.ChainState` — the coins of `pcoinsTip`, the asset globals, the node globals, the
  undo data on disk and the active chain above the starting tip.
* `Ravencoin.ConnectTip`, `Ravencoin.DisconnectTip`, `Ravencoin.FlushAssets`.
* `Ravencoin.ChainOp`, `Ravencoin.RunChain`, `Ravencoin.Reachable`.

## Main results

* `Ravencoin.Reachable.run` — a run of steps from a reachable state ends in a reachable state.
* `Ravencoin.exists_reachable_of_RunThen` — a run from a state without assets whose last state
  has a property exhibits a reachable state with it.

## Implementation notes

The coins of `pcoinsTip` are its effective view: `CCoinsViewCache::Flush` into it and its own
flushes to `pcoinsdbview` change no coin it shows. The undo data is written on every connection
(the node writes it the first time a block is connected, with the same content).
-/

set_option autoImplicit false

namespace Ravencoin

open DisconnectResult

/-- The state of a node across blocks: the coins of `pcoinsTip`, the asset globals, the node
globals, the undo data on disk by block hash, and the active chain: the tip's hash and height
and the blocks connected above the starting tip, the tip first. -/
structure ChainState where
  coins : CoinsMap
  g : AssetGlobals
  node : NodeGlobals
  undo : AList fun _ : uint256 => List (List Coin)
  tip : uint256
  nHeight : Nat
  blocks : List CBlock

/-- The loop of `ConnectTip` over the block's transactions: the reissue locks they held in the
mempool are released. -/
def NodeGlobals.RemoveReissueLocks (node : NodeGlobals) (vtx : List CTransaction) : NodeGlobals :=
  vtx.foldl (fun node tx =>
    match node.mapReissuedTx.lookup tx.GetHash with
    | some name => { node with mapReissuedAssets := node.mapReissuedAssets.erase name
                               mapReissuedTx := node.mapReissuedTx.erase tx.GetHash }
    | none => node) node

section Steps

variable (cfg : NodeConfig) (params : ConsensusParams)

/-- `ConnectTip` for a block whose parent is the tip. -/
def ConnectTip (block : CBlock) (s : ChainState) : Except Halt ChainState := do
  if block.hashPrevBlock ≠ s.tip then throw (.abort (str "assert(pindexNew->pprev == chainActive.Tip())"))
  let nHeight := s.nHeight + 1
  let (view, ctx, blockundo) ←
    ConnectBlock cfg params s.node block nHeight (CCoinsViewCache.ofBase s.coins) true
      ⟨CAssetsCache.empty, s.g⟩ false
  return { coins := view.FlushToBase
           g := { ctx.g with passets := Flush ctx.self ctx.g.passets }
           node := s.node.RemoveReissueLocks block.vtx
           undo := s.undo.insert block.GetHash blockundo
           tip := block.GetHash
           nHeight := nHeight
           blocks := block :: s.blocks }

/-- `DisconnectTip`: the tip block is disconnected, which must be clean. -/
def DisconnectTip (s : ChainState) : Except Halt ChainState := do
  match s.blocks with
  | [] => throw (.reject (str "DisconnectTip(): no block above the starting tip"))
  | block :: rest =>
    let (res, view, ctx) ←
      DisconnectBlock cfg s.node block s.nHeight (s.undo.lookup block.GetHash)
        (CCoinsViewCache.ofBase s.coins) ⟨CAssetsCache.empty, s.g⟩
    if res ≠ DISCONNECT_OK then throw (.reject (str "DisconnectTip(): DisconnectBlock failed"))
    return { s with coins := view.FlushToBase
                    g := { ctx.g with passets := Flush ctx.self ctx.g.passets }
                    tip := block.hashPrevBlock
                    nHeight := s.nHeight - 1
                    blocks := rest }

/-- The asset part of `FlushStateToDisk`: once assets are deployed, `passets` is written to
the database. -/
def FlushAssets (s : ChainState) : ChainState :=
  if s.node.fAssetsDeployed then { s with g := DumpCacheToDatabase cfg.fAssetIndex s.g } else s

/-- A step of the node. -/
inductive ChainOp
  | connect (block : CBlock)
  | disconnect
  | flush

/-- The state after a step, or why it did not happen. -/
def ChainOp.Apply : ChainOp → ChainState → Except Halt ChainState
  | .connect block, s => ConnectTip cfg params block s
  | .disconnect, s => DisconnectTip cfg s
  | .flush, s => .ok (FlushAssets cfg s)

/-- A run of steps. -/
def RunChain : List ChainOp → ChainState → Except Halt ChainState
  | [], s => .ok s
  | op :: ops, s => do RunChain ops (← op.Apply cfg params s)

/-- A state without assets: no asset anywhere in the globals, no undo data and no block above
the starting tip, and no coin with an asset script. The node globals are arbitrary. -/
def ChainState.Initial (s : ChainState) : Prop :=
  s.g = AssetGlobals.empty ∧ s.undo = ∅ ∧ s.blocks = [] ∧
    s.coins.entries.all (fun e => !IsAssetScriptB e.2.out.scriptPubKey) = true

/-- The states a node reaches from a state without assets. -/
inductive Reachable : ChainState → Prop
  | init (s : ChainState) : s.Initial → Reachable s
  | step (s s' : ChainState) (op : ChainOp) : Reachable s → op.Apply cfg params s = .ok s' →
      Reachable s'

/-- A run from a reachable state ends in a reachable state. -/
theorem Reachable.run {s s' : ChainState} (ops : List ChainOp) (hs : Reachable cfg params s)
    (hrun : RunChain cfg params ops s = .ok s') : Reachable cfg params s' := by
  induction ops generalizing s with
  | nil =>
    cases hrun
    exact hs
  | cons op ops ih =>
    simp only [RunChain, bind, Except.bind] at hrun
    split at hrun
    · cases hrun
    · next s₁ hstep =>
      exact ih (Reachable.step s s₁ op hs hstep) hrun

/-- Whether a run succeeds and its last state has a property. -/
def RunThen (ops : List ChainOp) (s : ChainState) (k : ChainState → Bool) : Bool :=
  match RunChain cfg params ops s with
  | .ok s' => k s'
  | .error _ => false

/-- A run from a state without assets whose last state has a property exhibits a reachable
state with it. -/
theorem exists_reachable_of_RunThen {s : ChainState} {ops : List ChainOp} {k : ChainState → Bool}
    (hs : s.Initial) (h : RunThen cfg params ops s k = true) :
    ∃ s', Reachable cfg params s' ∧ k s' = true := by
  unfold RunThen at h
  split at h
  · next s' hrun =>
    exact ⟨s', Reachable.run cfg params ops (Reachable.init s hs) hrun, h⟩
  · cases h

/-- A run from a state without assets whose last state satisfies a decidable property
exhibits a reachable state that satisfies it. -/
theorem exists_reachable_of_run {s : ChainState} (ops : List ChainOp) {P : ChainState → Prop}
    [DecidablePred P] (hs : s.Initial) (h : RunThen cfg params ops s (fun s => decide (P s)) = true) :
    ∃ s', Reachable cfg params s' ∧ P s' := by
  obtain ⟨s', hs', hk⟩ := exists_reachable_of_RunThen cfg params hs h
  exact ⟨s', hs', of_decide_eq_true hk⟩

end Steps

/-! ### What a state shows -/

/-- The metadata `GetAssetMetaDataIfExists` finds for a name on `passets`. -/
def AssetMetadata (s : ChainState) (name : List UInt8) : Option CNewAsset :=
  (GetAssetMetaDataIfExists name ⟨s.g.passets, s.g⟩).1.map Prod.fst

/-- The balance of an (asset, address) pair that `GetBestAssetAddressAmount` makes visible on
`passets`, if any. -/
def VisibleBalance (cfg : NodeConfig) (s : ChainState) (pair : AssetAddress) : Option CAmount :=
  let (found, ctx) := GetBestAssetAddressAmount cfg.fAssetIndex pair ⟨s.g.passets, s.g⟩
  if found then some (ctx.self.balance pair) else none

/-- The amount of an asset that the unspent coins paying an address carry. -/
def UtxoAssetAmount (cfg : NodeConfig) (s : ChainState) (pair : AssetAddress) : CAmount :=
  (s.coins.entries.filterMap fun e =>
    match AssetOfScript cfg e.2.out.scriptPubKey with
    | some (name, address, nAmount) => if (name, address) = pair then some nAmount else none
    | none => none).sum

/-! ### Concrete runs -/

/-- A node at height 100 with one coin of plain RVN and no asset. -/
def SampleStart : ChainState := ⟨RvnCoins, AssetGlobals.empty, SampleNode, ∅, 1000, 100, []⟩

theorem SampleStart_Initial : SampleStart.Initial :=
  ⟨rfl, rfl, rfl, by decide +kernel⟩

/-- Issue `ABC` from the RVN coin: the burn, 400 RVN of change, the owner token, the asset. -/
def IssueTx : CTransaction :=
  SpendTx 11 [⟨1, 0⟩]
    [⟨500 * COIN, P2PKH IssueBurnKey⟩, ⟨400 * COIN, P2PKH SampleKeyA⟩,
     ⟨0, SampleRoot.ConstructOwnerTransaction (P2PKH SampleKeyA)⟩,
     ⟨0, SampleRoot.ConstructTransaction (P2PKH SampleKeyA)⟩]

/-- The block at height 101 issuing `ABC`. -/
def IssueBlock : CBlock := SampleBlock 101 1001 1000 [IssueTx]

/-! #### A coin of negative amount -/

/-- Split the 10 units of `ABC` into 11 units to `SampleKeyA` and minus one unit to
`SampleKeyB`. -/
def SplitTx : CTransaction :=
  SpendTx 21 [⟨11, 3⟩]
    [⟨0, TransferScript (str "ABC") (11 * COIN) SampleKeyA⟩,
     ⟨0, TransferScript (str "ABC") (-COIN) SampleKeyB⟩]

/-- Merge the two coins of `SplitTx` back into 10 units. -/
def MergeTx : CTransaction :=
  SpendTx 31 [⟨21, 0⟩, ⟨21, 1⟩] [⟨0, TransferScript (str "ABC") (10 * COIN) SampleKeyA⟩]

/-- The block at height 102 holding `SplitTx`. -/
def SplitBlock : CBlock := SampleBlock 102 1002 1001 [SplitTx]

/-- The block at height 103 holding `MergeTx`. -/
def MergeBlock : CBlock := SampleBlock 103 1003 1002 [MergeTx]

/-- After `IssueBlock` and `SplitBlock`, `MergeBlock` passes `CheckTxAssets` but connecting it
stops the node at `assert(is_spent)`: the spend of the coin of minus one unit fails, and that
failed spend has already removed the coin from the view. -/
theorem negative_coin_spend_aborts :
    ∃ s, Reachable SampleConfig SampleParams s ∧
      (CheckTxAssets SampleConfig s.node MergeTx (CCoinsViewCache.ofBase s.coins) false s.g).1 =
        .ok [] ∧
      (ConnectTip SampleConfig SampleParams MergeBlock s).map (fun _ => ()) =
        .error (.abort (str "assert(is_spent)")) ∧
      (CCoinsViewCache.ofBase s.coins).HaveCoin ⟨21, 1⟩ = true ∧
      ((CCoinsViewCache.ofBase s.coins).SpendCoin SampleConfig true ⟨21, 1⟩
        ⟨CAssetsCache.empty, s.g⟩).1 = false ∧
      ((CCoinsViewCache.ofBase s.coins).SpendCoin SampleConfig true ⟨21, 1⟩
        ⟨CAssetsCache.empty, s.g⟩).2.2.1.HaveCoin ⟨21, 1⟩ = false :=
  exists_reachable_of_run SampleConfig SampleParams [.connect IssueBlock, .connect SplitBlock]
    SampleStart_Initial (by decide +kernel)

/-! #### A reissue with a reissuable flag of `2` -/

/-- A block reissuing one unit of `ABC` with the reissuable flag `2`. -/
def ReissueFlagBlock : CBlock :=
  SampleBlock 102 1002 1001 [ReissueTx 51 ⟨11, 2⟩ ⟨11, 1⟩ (300 * COIN) ⟨str "ABC", COIN, -1, 2, []⟩]

/-- After issuing `ABC`, reissuing it with the flag `2` and flushing, the database holds `ABC`
with `nReissuable = 2`. -/
theorem reissued_flag_out_of_range :
    ∃ s, Reachable SampleConfig SampleParams s ∧
      (s.g.passetsdb.ReadAssetData (str "ABC")).map (·.asset.nReissuable) = some 2 :=
  exists_reachable_of_run SampleConfig SampleParams
    [.connect IssueBlock, .connect ReissueFlagBlock, .flush] SampleStart_Initial
    (by decide +kernel)

/-! #### Two reissues of one asset in a block -/

/-- An IPFS hash: the multihash prefix and 32 bytes. -/
def SampleIPFS : List UInt8 := [0x12, 0x20] ++ List.replicate 32 0x33

/-- A block with two reissues of `ABC`: the first raises the units to `2`, the second sets an
IPFS hash. -/
def ReissueTwiceBlock : CBlock :=
  SampleBlock 102 1002 1001
    [ReissueTx 41 ⟨11, 2⟩ ⟨11, 1⟩ (300 * COIN) ⟨str "ABC", COIN, 2, 1, []⟩,
     ReissueTx 42 ⟨41, 2⟩ ⟨41, 1⟩ (200 * COIN) ⟨str "ABC", COIN, -1, 1, SampleIPFS⟩]

/-- After issuing `ABC`, connecting `ReissueTwiceBlock` and disconnecting it succeeds, but `ABC`
keeps the IPFS hash of the second reissue: both undos read the undo record of the first. -/
theorem reissue_undo_keeps_ipfs :
    ∃ s, Reachable SampleConfig SampleParams s ∧
      AssetMetadata s (str "ABC") = some SampleRoot ∧
      ((ConnectTip SampleConfig SampleParams ReissueTwiceBlock s >>= DisconnectTip SampleConfig).map
        fun s' => AssetMetadata s' (str "ABC")) =
        .ok (some { SampleRoot with nHasIPFS := 1, strIPFSHash := SampleIPFS }) :=
  exists_reachable_of_run SampleConfig SampleParams [.connect IssueBlock]
    SampleStart_Initial (by decide +kernel)

/-- After `IssueBlock` (height 101) and `ReissueTwiceBlock`, the first reissue entry of
`passets` carries the height and hash of `IssueBlock`, found in `passets`' new assets. The
second carries the value of the uninitialised height and the zero hash: its lookup was answered
by the cache's `mapReissuedAssetData`, which sets neither. Flushing writes `ABC` to the database
with the second. -/
theorem reissue_record_without_issue_block :
    ∃ s, Reachable SampleConfig SampleParams s ∧
      (s.g.passets.setNewReissueToAdd.toList.map fun e => (e.blockHeight, e.blockHash)) =
        [(101, IssueBlock.GetHash), (SampleConfig.nIndeterminateHeight, 0)] ∧
      ((FlushAssets SampleConfig s).g.passetsdb.ReadAssetData (str "ABC")).map
        (fun d => (d.nHeight, d.blockHash)) = some (SampleConfig.nIndeterminateHeight, 0) :=
  exists_reachable_of_run SampleConfig SampleParams [.connect IssueBlock, .connect ReissueTwiceBlock]
    SampleStart_Initial (by decide +kernel)

/-! #### An issue whose output is unspendable -/

/-- The configuration of concrete runs with the asset index on. -/
def IndexConfig : NodeConfig := { SampleConfig with fAssetIndex := true }

/-- Issue `ABC` to an output whose script starts with `OP_RETURN`. -/
def BurnedIssueTx : CTransaction :=
  SpendTx 61 [⟨1, 0⟩]
    [⟨500 * COIN, P2PKH IssueBurnKey⟩, ⟨400 * COIN, P2PKH SampleKeyA⟩,
     ⟨0, SampleRoot.ConstructOwnerTransaction (P2PKH SampleKeyA)⟩,
     ⟨0, SampleRoot.ConstructTransaction (OP_RETURN :: (P2PKH SampleKeyA).drop 1)⟩]

/-- The block at height 101 holding `BurnedIssueTx`. -/
def BurnedIssueBlock : CBlock := SampleBlock 101 1001 1000 [BurnedIssueTx]

/-- With the asset index on, after `BurnedIssueBlock` the index shows 10 units of `ABC` at
`SampleAddressA`, while no unspent coin carries any. -/
theorem burned_issue_balance_without_coin :
    ∃ s, Reachable IndexConfig SampleParams s ∧
      VisibleBalance IndexConfig s (str "ABC", SampleAddressA) = some (10 * COIN) ∧
      UtxoAssetAmount IndexConfig s (str "ABC", SampleAddressA) = 0 :=
  exists_reachable_of_run IndexConfig SampleParams [.connect BurnedIssueBlock]
    SampleStart_Initial (by decide +kernel)

end Ravencoin
