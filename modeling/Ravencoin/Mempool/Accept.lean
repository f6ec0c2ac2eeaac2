import Ravencoin.Mempool.Pool
import Ravencoin.Validation.Chain

/-!
# A node with a mempool (`AcceptToMemoryPoolWorker`, `ConnectTip`)

`AcceptToMemoryPoolWorker` checks a loose transaction against the chain and the pool, evicts
the pool transactions it replaces, adds it with `addUnchecked`, locks the names it reissues in
`mapReissuedAssets` and records the names of the assets it creates in `mapAssetToHash` and
`mapHashToAsset`. `ConnectTip` connects a block and then calls `removeForBlock` with the assets
the block created. A node runs these steps, `removeRecursive` (which a reorganisation applies to
the transactions it cannot re-accept) and `PrioritiseTransaction`, in any order.

## Main definitions

* `Ravencoin.MempoolPolicy` — the node's mempool settings and the checks the model takes as
  given.
* `Ravencoin.AcceptToMemoryPoolWorker`, `Ravencoin.NewAssetsAddedInBlock`.
* `Ravencoin.NodeState`, `Ravencoin.NodeOp`, `Ravencoin.NodeReachable`.

## Main results

* `Ravencoin.NodeReachable.run` — a run of steps from a reachable state ends in a reachable
  state.
* `Ravencoin.exists_node_reachable_of_run` — a run from an initial state whose last state has a
  decidable property exhibits a reachable state with it.

## Implementation notes

Standardness, finality, sequence locks, the script checks (`params.CheckInputs`) and the
signature-operation count are the same parameters as for blocks, or fields of
`MempoolPolicy`; so is the rolling minimum fee rate of the pool. `LimitMempoolSize` is not
modelled: the pool is never trimmed. The view of the checks holds the coins of the inputs,
found through the pool first as `CCoinsViewMemPool` finds them; `HaveCoinInCache` on
`pcoinsTip` is read as whether `pcoinsTip` has the coin. A transaction with a missing input is
turned away with `*pfMissingInputs` set; the model gives the text the RPC layer reports for it.
`DisconnectTip` is left out of a node's steps, since it goes with `UpdateMempoolForReorg`.
-/

set_option autoImplicit false

namespace Ravencoin

open txnouttype

/-! ### Policy -/

/-- `MAX_STANDARD_TX_SIGOPS_COST`. -/
def MAX_STANDARD_TX_SIGOPS_COST : Nat := MAX_BLOCK_SIGOPS_COST / 5

/-- `MAX_BIP125_RBF_SEQUENCE`. -/
def MAX_BIP125_RBF_SEQUENCE : UInt32 := 0xfffffffd

/-- `MEMPOOL_HEIGHT`: the height of the coins a pool transaction creates. -/
def MEMPOOL_HEIGHT : Nat := 0x7FFFFFFF

/-- `CFeeRate(nFeePaid, nBytes)`, as its `nSatoshisPerK`; C++ division truncates. -/
def FeeRateOf (nFeePaid : CAmount) (nBytes : Nat) : CAmount :=
  if nBytes > 0 then Int.tdiv (nFeePaid * 1000) nBytes else 0

/-- `CFeeRate::GetFee(nBytes)` of the rate `nSatoshisPerK`: at least one satoshi either way
on a non-empty size. -/
def GetFee (nSatoshisPerK : CAmount) (nBytes : Nat) : CAmount :=
  let nFee := Int.tdiv (nSatoshisPerK * nBytes) 1000
  if nFee = 0 ∧ nBytes ≠ 0 then
    if nSatoshisPerK > 0 then 1 else if nSatoshisPerK < 0 then -1 else 0
  else nFee

/-- The settings of `AcceptToMemoryPoolWorker` and the checks it makes that the model takes as
given: `fRequireStandard` with `IsStandardTx` (its reason) and `AreInputsStandard`,
`CheckFinalTx` and `CheckSequenceLocks` at the standard flags, the rolling minimum fee rate
`pool.GetMinFee(maxmempool)`, `::minRelayTxFee`, `::incrementalRelayFee`, `nAbsurdFee`,
`-mempoolreplacement`, `bypass_limits`, and the four ancestor and descendant limits. -/
structure MempoolPolicy where
  fRequireStandard : Bool
  IsStandardTx : CTransaction → Option (List UInt8)
  AreInputsStandard : CTransaction → CCoinsViewCache → Bool
  CheckFinalTx : CTransaction → Bool
  CheckSequenceLocks : CTransaction → Bool
  mempoolMinFee : CAmount
  minRelayTxFee : CAmount
  incrementalRelayFee : CAmount
  nAbsurdFee : CAmount
  fEnableReplacement : Bool
  bypass_limits : Bool
  limits : AncestorLimits

/-- A node with a chain and a pool. -/
structure NodeState where
  chain : ChainState
  pool : CTxMemPool

section Accept

variable (cfg : NodeConfig) (params : ConsensusParams) (policy : MempoolPolicy)

/-! ### `AcceptToMemoryPoolWorker` -/

/-- The conflict loop of `AcceptToMemoryPoolWorker`: the pool transactions that spend an input
of the new one; `none` when one of them opts out of replacement. -/
def FindConflicts (pool : CTxMemPool) : List CTxIn → setEntries → Option setEntries
  | [], setConflicts => some setConflicts
  | txin :: rest, setConflicts =>
    match pool.mapNextTx.lookup txin.prevout with
    | none => FindConflicts pool rest setConflicts
    | some ptxConflicting =>
      if setConflicts.contains ptxConflicting.GetHash then FindConflicts pool rest setConflicts
      else
        let fReplacementOptOut := !(policy.fEnableReplacement &&
          ptxConflicting.vin.any fun txin => txin.nSequence ≤ MAX_BIP125_RBF_SEQUENCE)
        if fReplacementOptOut then none
        else FindConflicts pool rest (setConflicts.insert ptxConflicting.GetHash)

/-- The coin `CCoinsViewMemPool::GetCoin` reports: an output of a pool transaction, at
`MEMPOOL_HEIGHT` and not from a coinbase, else the coin of `pcoinsTip`. -/
def MempoolCoin (coins : CoinsMap) (pool : CTxMemPool) (o : COutPoint) : Option Coin :=
  match pool.mapTx.lookup o.hash with
  | some e => e.tx.vout[o.n.toNat]?.map fun out => ⟨out, false, MEMPOOL_HEIGHT⟩
  | none => coins.lookup o

/-- The view the checks run on once the inputs are fetched: the coins of the inputs. -/
def InputsView (coins : CoinsMap) (pool : CTxMemPool) (tx : CTransaction) : CCoinsViewCache :=
  CCoinsViewCache.ofBase (tx.vin.foldl (fun m (txin : CTxIn) =>
    match MempoolCoin coins pool txin.prevout with
    | some coin => m.insert txin.prevout coin
    | none => m) ∅)

/-- The loop over the conflicts in the replacement checks: the conflicts in the pool, the
parents of their inputs and their descendant count; turned away when a conflict pays a fee rate
at least the new one's. -/
def ScanConflicts (pool : CTxMemPool) (newFeeRate : CAmount) :
    List uint256 → setEntries × setEntries × Int → Except Halt (setEntries × setEntries × Int)
  | [], acc => .ok acc
  | hashConflicting :: rest, (setIterConflicting, setConflictsParents, nConflictingCount) =>
    match pool.mapTx.lookup hashConflicting with
    | none => ScanConflicts pool newFeeRate rest (setIterConflicting, setConflictsParents, nConflictingCount)
    | some mi =>
      if newFeeRate ≤ FeeRateOf mi.GetModifiedFee mi.GetTxSize then
        .error (.reject (str "insufficient fee"))
      else
        ScanConflicts pool newFeeRate rest
          (setIterConflicting.insert hashConflicting,
           mi.tx.vin.foldl (fun s (txin : CTxIn) => s.insert txin.prevout.hash) setConflictsParents,
           nConflictingCount + mi.nCountWithDescendants)

/-- The replacement checks of `AcceptToMemoryPoolWorker`: the entries the new transaction
evicts, or why it is turned away. -/
def ReplacementChecks (pool : CTxMemPool) (tx : CTransaction) (setConflicts : setEntries)
    (nModifiedFees : CAmount) (nSize : Nat) : Except Halt setEntries := do
  let (setIterConflicting, setConflictsParents, nConflictingCount) ←
    ScanConflicts pool (FeeRateOf nModifiedFees nSize) setConflicts.toList (∅, ∅, 0)
  -- `maxDescendantsToVisit`
  if nConflictingCount > 100 then throw (.reject (str "too many potential replacements"))
  let allConflicting ←
    setIterConflicting.toList.foldlM (fun s it => pool.CalculateDescendants it s) ∅
  let conflicting ← allConflicting.toList.mapM pool.Entry
  let nConflictingFees := (conflicting.map (·.GetModifiedFee)).sum
  if tx.vin.any fun txin => !setConflictsParents.contains txin.prevout.hash &&
      (pool.mapTx.lookup txin.prevout.hash).isSome then
    throw (.reject (str "replacement-adds-unconfirmed"))
  if nModifiedFees < nConflictingFees then throw (.reject (str "insufficient fee"))
  if nModifiedFees - nConflictingFees < GetFee policy.incrementalRelayFee nSize then
    throw (.reject (str "insufficient fee"))
  return allConflicting

/-- The asset loop at the end of `AcceptToMemoryPoolWorker`: the name of every new asset output
that is not an owner token is locked for the transaction, and `mapHashToAsset` keeps the last. -/
def RecordAssetNames (pool : CTxMemPool) (hash : uint256) (vout : List CTxOut) : CTxMemPool :=
  vout.foldl (fun pool out =>
    if IsAssetScriptB out.scriptPubKey then
      match GetAssetData cfg.H cfg.P out.scriptPubKey with
      | some data =>
        if data.type = TX_NEW_ASSET ∧ !IsAssetNameAnOwner data.assetName then
          { pool with mapAssetToHash := pool.mapAssetToHash.insert data.assetName hash
                      mapHashToAsset := pool.mapHashToAsset.insert hash data.assetName }
        else pool
      | none => pool
    else pool) pool

/-- The reissue locks `AcceptToMemoryPoolWorker` takes: `std::map::insert`, which keeps a lock
already held. -/
def LockReissues (node : NodeGlobals) (vReissueAssets : List (List UInt8 × uint256)) :
    NodeGlobals :=
  vReissueAssets.foldl (fun node out =>
    { node with mapReissuedAssets := CTxMemPool.InsertNew node.mapReissuedAssets out.1 out.2
                mapReissuedTx := CTxMemPool.InsertNew node.mapReissuedTx out.2 out.1 }) node

/-- `AcceptToMemoryPoolWorker`: the node after accepting the transaction, or why it is turned
away. -/
def AcceptToMemoryPoolWorker (tx : CTransaction) (s : NodeState) : Except Halt NodeState := do
  let hash := tx.GetHash
  let env := { s.chain.node with mapAssetToHash := s.pool.mapAssetToHash.keys }
  let (r, g) := onPassets (CheckTransaction cfg env tx true true true true true) s.chain.g
  r
  if tx.IsCoinBase then throw (.reject (str "coinbase"))
  if policy.fRequireStandard then
    if let some reason := policy.IsStandardTx tx then throw (.reject reason)
  if !policy.CheckFinalTx tx then throw (.reject (str "non-final"))
  if (s.pool.mapTx.lookup hash).isSome then throw (.reject (str "txn-already-in-mempool"))
  let some setConflicts := FindConflicts policy s.pool tx.vin ∅
    | throw (.reject (str "txn-mempool-conflict"))
  let view := InputsView s.chain.coins s.pool tx
  if !tx.vin.all fun txin => view.HaveCoin txin.prevout then
    if (List.range tx.vout.length).any fun out => (s.chain.coins.lookup ⟨hash, out.toUInt32⟩).isSome then
      throw (.reject (str "txn-already-known"))
    else throw (.reject (str "Missing inputs"))
  if !policy.CheckSequenceLocks tx then throw (.reject (str "non-BIP68-final"))
  let nFees ← CheckTxInputs tx view (s.chain.nHeight + 1)
  if !env.fAssetsDeployed && tx.vout.any (fun out => IsAssetScriptB out.scriptPubKey) then
    throw (.reject (str "bad-txns-contained-asset-when-not-active"))
  let (vReissueAssets, g) ←
    if env.fAssetsDeployed then
      let (r, g) := CheckTxAssets cfg env tx view false g
      (·, g) <$> r
    else pure ([], g)
  if policy.fRequireStandard && !policy.AreInputsStandard tx view then
    throw (.reject (str "bad-txns-nonstandard-inputs"))
  let nSigOpsCost := params.GetTransactionSigOpCost tx view
  let nModifiedFees := nFees + (s.pool.mapDeltas.lookup hash).getD 0
  let entry := CTxMemPoolEntry.make tx nFees nSigOpsCost
  let nSize := entry.GetTxSize
  if nSigOpsCost > MAX_STANDARD_TX_SIGOPS_COST then
    throw (.reject (str "bad-txns-too-many-sigops"))
  let mempoolRejectFee := GetFee policy.mempoolMinFee nSize
  if !policy.bypass_limits && mempoolRejectFee > 0 && nModifiedFees < mempoolRejectFee then
    throw (.reject (str "mempool min fee not met"))
  if !policy.bypass_limits && nModifiedFees < GetFee policy.minRelayTxFee nSize then
    throw (.reject (str "min relay fee not met"))
  if policy.nAbsurdFee ≠ 0 && nFees > policy.nAbsurdFee then
    throw (.reject (str "absurdly-high-fee"))
  let (fLimits, setAncestors) ← s.pool.CalculateMemPoolAncestors entry policy.limits true
  if !fLimits then throw (.reject (str "too-long-mempool-chain"))
  if setAncestors.toList.any setConflicts.contains then
    throw (.reject (str "bad-txns-spends-conflicting-tx"))
  let allConflicting ←
    if setConflicts.toList.isEmpty then pure ∅
    else ReplacementChecks policy s.pool tx setConflicts nModifiedFees nSize
  if let some e := params.CheckInputs tx view then throw (.reject e)
  let (pool, node) ← s.pool.RemoveStaged s.chain.node allConflicting false
  let pool ← pool.addUnchecked hash entry setAncestors
  let node := LockReissues node vReissueAssets
  let pool := if env.fAssetsDeployed then RecordAssetNames cfg pool hash tx.vout else pool
  return ⟨{ s.chain with g, node }, pool⟩

/-! ### Connecting blocks -/

/-- `setNewAssetsAddedInBlock` of `ConnectTip`: the names of the assets the block's asset cache
adds that `passets` does not, in the set's order. -/
def NewAssetsAddedInBlock (block : CBlock) (s : ChainState) : Except Halt (List (List UInt8)) := do
  let (_, ctx, _) ←
    ConnectBlock cfg params s.node block (s.nHeight + 1) (CCoinsViewCache.ofBase s.coins) true
      ⟨CAssetsCache.empty, s.g⟩ false
  return (ctx.self.setNewAssetsToAdd.toList.filter fun a =>
    !ctx.g.passets.setNewAssetsToAdd.contains a.key).map (·.asset.strName)

/-- A step of a node with a pool. -/
inductive NodeOp
  | accept (tx : CTransaction)
  | connect (block : CBlock)
  | remove (tx : CTransaction)
  | prioritise (hash : uint256) (nFeeDelta : CAmount)
  | flush

/-- The node after a step, or why it did not happen. `ConnectTip` computes the new assets from
the connection it makes; the model reads them from a second run of the same `ConnectBlock`. -/
def NodeOp.Apply : NodeOp → NodeState → Except Halt NodeState
  | .accept tx, s => AcceptToMemoryPoolWorker cfg params policy tx s
  | .connect block, s => do
    let chain ← ConnectTip cfg params block s.chain
    let setNewAssetsAddedInBlock ← NewAssetsAddedInBlock cfg params block s.chain
    let (pool, node) ← s.pool.removeForBlock chain.node block.vtx setNewAssetsAddedInBlock
    return ⟨{ chain with node }, pool⟩
  | .remove tx, s => do
    let (pool, node) ← s.pool.removeRecursive s.chain.node tx
    return ⟨{ s.chain with node }, pool⟩
  | .prioritise hash nFeeDelta, s => do
    return { s with pool := ← s.pool.PrioritiseTransaction hash nFeeDelta }
  | .flush, s => .ok { s with chain := FlushAssets cfg s.chain }

/-- A run of steps. -/
def RunNode : List NodeOp → NodeState → Except Halt NodeState
  | [], s => .ok s
  | op :: ops, s => do RunNode ops (← op.Apply cfg params policy s)

/-- A node without assets, with an empty pool and no reissue lock. -/
def NodeState.Initial (s : NodeState) : Prop :=
  s.chain.Initial ∧ s.pool = CTxMemPool.empty ∧ s.chain.node.mapReissuedAssets = ∅ ∧
    s.chain.node.mapReissuedTx = ∅

/-- The states a node with a pool reaches. -/
inductive NodeReachable : NodeState → Prop
  | init (s : NodeState) : s.Initial → NodeReachable s
  | step (s s' : NodeState) (op : NodeOp) : NodeReachable s → op.Apply cfg params policy s = .ok s' →
      NodeReachable s'

/-- A run from a reachable state ends in a reachable state. -/
theorem NodeReachable.run {s s' : NodeState} (ops : List NodeOp)
    (hs : NodeReachable cfg params policy s) (hrun : RunNode cfg params policy ops s = .ok s') :
    NodeReachable cfg params policy s' := by
  induction ops generalizing s with
  | nil =>
    cases hrun
    exact hs
  | cons op ops ih =>
    simp only [RunNode, bind, Except.bind] at hrun
    split at hrun
    · cases hrun
    · next s₁ hstep =>
      exact ih (NodeReachable.step s s₁ op hs hstep) hrun

/-- Whether a run succeeds and its last state has a property. -/
def NodeRunThen (ops : List NodeOp) (s : NodeState) (k : NodeState → Bool) : Bool :=
  match RunNode cfg params policy ops s with
  | .ok s' => k s'
  | .error _ => false

/-- A run from an initial state whose last state satisfies a decidable property exhibits a
reachable state that satisfies it. -/
theorem exists_node_reachable_of_run {s : NodeState} (ops : List NodeOp) {P : NodeState → Prop}
    [DecidablePred P] (hs : s.Initial)
    (h : NodeRunThen cfg params policy ops s (fun s => decide (P s)) = true) :
    ∃ s', NodeReachable cfg params policy s' ∧ P s' := by
  unfold NodeRunThen at h
  split at h
  · next s' hrun =>
    exact ⟨s', NodeReachable.run cfg params policy ops (NodeReachable.init s hs) hrun,
      of_decide_eq_true h⟩
  · cases h

end Accept

/-! ### Concrete runs -/

/-- The mempool settings of concrete runs: the defaults of `validation.h` and `policy.h`
(replacement off, a minimum relay fee of 1000 satoshis per kilobyte, 200 ancestors and
descendants of at most 202 kilobytes), no rolling minimum fee, and every check the model takes
as given passing. -/
def SamplePolicy : MempoolPolicy where
  fRequireStandard := true
  IsStandardTx := fun _ => none
  AreInputsStandard := fun _ _ => true
  CheckFinalTx := fun _ => true
  CheckSequenceLocks := fun _ => true
  mempoolMinFee := 0
  minRelayTxFee := 1000
  incrementalRelayFee := 1000
  nAbsurdFee := 0
  fEnableReplacement := false
  bypass_limits := false
  limits := ⟨200, 202 * 1000, 200, 202 * 1000⟩

/-! #### A pool issue of a name a block creates -/

/-- Two coins of 1000 RVN. -/
def TwoRvnCoins : CoinsMap :=
  ((∅ : CoinsMap).insert ⟨1, 0⟩ ⟨⟨1000 * COIN, P2PKH SampleKeyA⟩, false, 10⟩).insert ⟨2, 0⟩
    ⟨⟨1000 * COIN, P2PKH SampleKeyA⟩, false, 10⟩

/-- A node at height 100 with the two coins, no asset and an empty pool. -/
def TwoCoinStart : NodeState :=
  ⟨⟨TwoRvnCoins, AssetGlobals.empty, SampleNode, ∅, 1000, 100, []⟩, CTxMemPool.empty⟩

theorem TwoCoinStart_Initial : TwoCoinStart.Initial :=
  ⟨⟨rfl, rfl, rfl, by decide +kernel⟩, rfl, rfl, rfl⟩

/-- Issue `ABC` from a coin of 1000 RVN: the burn, 499 RVN of change, the owner token, the
asset. -/
def IssueFrom (hash : uint256) (coin : COutPoint) : CTransaction :=
  SpendTx hash [coin]
    [⟨500 * COIN, P2PKH IssueBurnKey⟩, ⟨499 * COIN, P2PKH SampleKeyA⟩,
     ⟨0, SampleRoot.ConstructOwnerTransaction (P2PKH SampleKeyA)⟩,
     ⟨0, SampleRoot.ConstructTransaction (P2PKH SampleKeyA)⟩]

/-- The pool's issue of `ABC`, from the first coin. -/
def PoolIssueTx : CTransaction := IssueFrom 91 ⟨1, 0⟩

/-- A pool transaction spending the change of `PoolIssueTx`. -/
def PoolChildTx : CTransaction := SpendTx 92 [⟨91, 1⟩] [⟨498 * COIN, P2PKH SampleKeyB⟩]

/-- A block at height 101 issuing `ABC` from the second coin. -/
def BlockIssueBlock : CBlock := SampleBlock 101 1001 1000 [IssueFrom 93 ⟨2, 0⟩]

/-- With `PoolIssueTx` and its child `PoolChildTx` in the pool, every assertion of `check`
holds. Connecting `BlockIssueBlock`, which issues `ABC` with another transaction, removes
`PoolIssueTx` through the Ravencoin path of `removeForBlock` with `updateDescendants`, and
keeps `PoolChildTx`, whose input is then neither a coin of the chain nor an output of the
pool: `check` stops at its first assertion on inputs. -/
theorem block_issue_orphans_pool_child :
    ∃ s, NodeReachable SampleConfig SampleParams SamplePolicy s ∧
      s.pool.check (CCoinsViewCache.ofBase s.chain.coins) = .ok () ∧
      ((NodeOp.connect BlockIssueBlock).Apply SampleConfig SampleParams SamplePolicy s).map
          (fun s' => (s'.pool.mapTx.keys, s'.pool.check (CCoinsViewCache.ofBase s'.chain.coins))) =
        .ok ([PoolChildTx.GetHash], .error (.abort (str "assert(pcoins->HaveCoin(txin.prevout))"))) :=
  exists_node_reachable_of_run SampleConfig SampleParams SamplePolicy
    [.accept PoolIssueTx, .accept PoolChildTx] TwoCoinStart_Initial (by decide +kernel)

/-! #### A unique issue of two names -/

/-- The key hash of the main network's unique-asset burn address
`strIssueUniqueAssetBurnAddress`. -/
def UniqueBurnKey : List UInt8 :=
  [246, 46, 99, 185, 73, 191, 202, 216, 37, 143, 188, 13, 158, 77, 143, 113, 182, 71, 150, 190]

/-- The hashes of concrete runs with the double SHA-256 of the unique-asset burn address's
payload as well. -/
def UniqueHashes : Hashes :=
  { SampleHashes with
    Hash := fun v =>
      if v = 60 :: UniqueBurnKey then
        [202, 224, 55, 251, 62, 35, 194, 74, 101, 11, 232, 178, 162, 33, 10, 212, 51, 60, 70,
         117, 63, 128, 62, 73, 172, 93, 147, 240, 157, 80, 41, 224]
      else SampleHashes.Hash v }

/-- The configuration of concrete runs with `UniqueHashes`. -/
def UniqueConfig : NodeConfig := { SampleConfig with H := UniqueHashes }

/-- The unique asset `ABC#tag`. -/
def UniqueABC (tag : String) : CNewAsset :=
  ⟨str "ABC#" ++ str tag, UNIQUE_ASSET_AMOUNT, 0, 0, 0, []⟩

/-- Issue the unique assets of the tags from the owner token and the change of `IssueTx`: the
burn, the change, the owner token back, and one output per tag. -/
def UniqueIssueTx (hash : uint256) (tags : List String) : CTransaction :=
  SpendTx hash [⟨11, 2⟩, ⟨11, 1⟩]
    ([⟨5 * COIN * tags.length, P2PKH UniqueBurnKey⟩,
      ⟨(394 - 5 * tags.length) * COIN, P2PKH SampleKeyA⟩,
      ⟨0, TransferScript (str "ABC!") OWNER_ASSET_AMOUNT SampleKeyA⟩] ++
     tags.map fun tag => ⟨0, (UniqueABC tag).ConstructTransaction (P2PKH SampleKeyA)⟩)

/-- The issue of `ABC#1` and `ABC#2`. -/
def TwoUniqueTx : CTransaction := UniqueIssueTx 81 ["1", "2"]

/-- The issue of `ABC#1` alone. -/
def OneUniqueTx : CTransaction := UniqueIssueTx 82 ["1"]

/-- The node after `IssueBlock`, with an empty pool. -/
def IssuedNodeStart : NodeState := ⟨SampleStart, CTxMemPool.empty⟩

theorem IssuedNodeStart_Initial : IssuedNodeStart.Initial :=
  ⟨SampleStart_Initial, rfl, rfl, rfl⟩

/-- After `IssueBlock` the pool accepts `OneUniqueTx`. Accepting `TwoUniqueTx` instead and
removing it leaves the pool without transactions but with `ABC#1` locked for the hash of
`TwoUniqueTx`, since `mapHashToAsset` kept only `ABC#2`; the pool then turns `OneUniqueTx`
away. -/
theorem unique_issue_name_stays_locked :
    ∃ s, NodeReachable UniqueConfig SampleParams SamplePolicy s ∧
      (AcceptToMemoryPoolWorker UniqueConfig SampleParams SamplePolicy OneUniqueTx s).map
          (fun s' => s'.pool.mapTx.keys) = .ok [OneUniqueTx.GetHash] ∧
      (RunNode UniqueConfig SampleParams SamplePolicy [.accept TwoUniqueTx, .remove TwoUniqueTx] s).map
          (fun s' => (s'.pool.mapTx.keys, s'.pool.mapAssetToHash.lookup (str "ABC#1"),
            (AcceptToMemoryPoolWorker UniqueConfig SampleParams SamplePolicy OneUniqueTx s').map
              fun _ => ())) =
        .ok ([], some TwoUniqueTx.GetHash,
          .error (.reject (str "bad-txns-Asset with this name is already in the mempool"))) :=
  exists_node_reachable_of_run UniqueConfig SampleParams SamplePolicy [.connect IssueBlock]
    IssuedNodeStart_Initial (by decide +kernel)

end Ravencoin
