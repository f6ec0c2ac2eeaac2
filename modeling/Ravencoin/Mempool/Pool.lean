import Ravencoin.Consensus.TxVerify

/-!
# The transaction memory pool (`txmempool.cpp`)

`CTxMemPool` holds the unconfirmed transactions a node has accepted, by hash, with the links
between an entry and the pool entries it spends from (`mapLinks`), the outpoints pool
transactions spend (`mapNextTx`), the fee deltas of `PrioritiseTransaction`, and for every
entry the totals of its package: count, size, modified fee and signature operations with its
in-pool ancestors, and count, size and modified fee with its in-pool descendants. Ravencoin adds
`mapAssetToHash` and `mapHashToAsset`, which lock the names of new assets against other pool
transactions, and frees the node's reissue locks `mapReissuedAssets` and `mapReissuedTx` when
an entry leaves. This file translates the pool's operations and the assertions of
`CTxMemPool::check`.

## Main definitions

* `Ravencoin.CTxMemPoolEntry`, `Ravencoin.CTxMemPool`.
* `Ravencoin.CTxMemPool.CalculateMemPoolAncestors`, `Ravencoin.CTxMemPool.CalculateDescendants`.
* `Ravencoin.CTxMemPool.addUnchecked`, `Ravencoin.CTxMemPool.removeUnchecked`,
  `Ravencoin.CTxMemPool.RemoveStaged`, `Ravencoin.CTxMemPool.removeRecursive`,
  `Ravencoin.CTxMemPool.removeConflicts`, `Ravencoin.CTxMemPool.removeForBlock`,
  `Ravencoin.CTxMemPool.PrioritiseTransaction`.
* `Ravencoin.CTxMemPool.check` — the assertions of `CTxMemPool::check`.

## Main results

* `Ravencoin.CTxMemPool.removeUnchecked_assetMaps` — removing an entry erases its hash from
  `mapHashToAsset` and frees the one name recorded there.
* `Ravencoin.CTxMemPool.HashesInPool` — every hash of `mapHashToAsset` is in `mapTx`, and every
  operation of the pool keeps it so.

## Implementation notes

A `txiter` is the hash of its transaction and a `setEntries` a `KeyedSet` in the order of
`CompareIteratorByHash`, so every loop over a set visits the entries in the C++ order. The
`uint64_t` counters are integers: the `int64_t` casts of their asserts are
`ByteStream.wrap 64`, and the comparisons against `uint64_t` limits read them modulo `2^64`
(`AsUInt64`). Dereferencing a `txiter` that is not in `mapTx` is undefined in the C++; the model
aborts there. The two traversals run on fuel `mapTx.length + 1`: every round but the last
moves a new entry of `mapTx` into the result, and a round on a hash outside `mapTx` aborts.
The `std::string` messages of `CalculateMemPoolAncestors` only reach debug text and are left out,
as are the fee estimator, `vTxHashes`, `cachedInnerUsage` and the address and spent indexes.
-/

set_option autoImplicit false

namespace Ravencoin

/-! ### Entries -/

/-- `uint256::operator<`: `memcmp` of the stored bytes. -/
def uint256.lt (a b : uint256) : Bool := decide (a.bytes < b.bytes)

/-- `CTxMemPool::setEntries`: pool entries, by the hash of their transaction, in the order of
`CompareIteratorByHash`. -/
abbrev setEntries := KeyedSet (fun h : uint256 => h) uint256.lt

/-- `DEFAULT_BYTES_PER_SIGOP`, the default of `nBytesPerSigOp`. -/
def nBytesPerSigOp : Nat := 20

/-- `GetVirtualTransactionSize(nWeight, nSigOpCost)`. -/
def GetVirtualTransactionSize (nWeight nSigOpCost : Nat) : Nat :=
  (max nWeight (nSigOpCost * nBytesPerSigOp) + WITNESS_SCALE_FACTOR - 1) / WITNESS_SCALE_FACTOR

/-- `GetTransactionWeight`: the size without witness data times `WITNESS_SCALE_FACTOR - 1`,
plus the size with it; the transactions of the model carry no witness. -/
def GetTransactionWeight (tx : CTransaction) : Nat :=
  tx.GetSerializeSize * (WITNESS_SCALE_FACTOR - 1) + tx.GetSerializeSize

/-- `CTxMemPoolEntry`: the transaction, its fee, weight, signature-operation cost and fee
delta, and the totals of its package with its descendants and with its ancestors. -/
structure CTxMemPoolEntry where
  tx : CTransaction
  nFee : CAmount
  nTxWeight : Nat
  sigOpCost : Nat
  feeDelta : CAmount
  nCountWithDescendants : Int
  nSizeWithDescendants : Int
  nModFeesWithDescendants : CAmount
  nCountWithAncestors : Int
  nSizeWithAncestors : Int
  nModFeesWithAncestors : CAmount
  nSigOpCostWithAncestors : Int
deriving DecidableEq, Repr

namespace CTxMemPoolEntry

/-- `GetTxSize`: the virtual size. -/
def GetTxSize (e : CTxMemPoolEntry) : Nat := GetVirtualTransactionSize e.nTxWeight e.sigOpCost

/-- `GetModifiedFee`: the fee with the delta of `PrioritiseTransaction`. -/
def GetModifiedFee (e : CTxMemPoolEntry) : CAmount := e.nFee + e.feeDelta

/-- The constructor `CTxMemPoolEntry(_tx, _nFee, _nTime, _entryHeight, _spendsCoinbase,
_sigOpsCost, lp)`: the package of the entry alone. -/
def make (tx : CTransaction) (nFee : CAmount) (sigOpCost : Nat) : CTxMemPoolEntry :=
  let nTxWeight := GetTransactionWeight tx
  let nTxSize : Int := GetVirtualTransactionSize nTxWeight sigOpCost
  { tx, nFee, nTxWeight, sigOpCost, feeDelta := 0
    nCountWithDescendants := 1, nSizeWithDescendants := nTxSize, nModFeesWithDescendants := nFee
    nCountWithAncestors := 1, nSizeWithAncestors := nTxSize, nModFeesWithAncestors := nFee
    nSigOpCostWithAncestors := sigOpCost }

/-- `UpdateFeeDelta`: both modified-fee totals follow the new delta. -/
def UpdateFeeDelta (e : CTxMemPoolEntry) (newFeeDelta : CAmount) : CTxMemPoolEntry :=
  { e with nModFeesWithDescendants := e.nModFeesWithDescendants + (newFeeDelta - e.feeDelta)
           nModFeesWithAncestors := e.nModFeesWithAncestors + (newFeeDelta - e.feeDelta)
           feeDelta := newFeeDelta }

/-- `UpdateDescendantState`, with its asserts. -/
def UpdateDescendantState (e : CTxMemPoolEntry) (modifySize modifyFee modifyCount : Int) :
    Except Halt CTxMemPoolEntry :=
  let nSizeWithDescendants := e.nSizeWithDescendants + modifySize
  let nCountWithDescendants := e.nCountWithDescendants + modifyCount
  if ¬0 < ByteStream.wrap 64 nSizeWithDescendants then
    .error (.abort (str "assert(int64_t(nSizeWithDescendants) > 0)"))
  else if ¬0 < ByteStream.wrap 64 nCountWithDescendants then
    .error (.abort (str "assert(int64_t(nCountWithDescendants) > 0)"))
  else
    .ok { e with nSizeWithDescendants, nCountWithDescendants
                 nModFeesWithDescendants := e.nModFeesWithDescendants + modifyFee }

/-- `UpdateAncestorState`, with its asserts; the last casts to a 32-bit `int`. -/
def UpdateAncestorState (e : CTxMemPoolEntry) (modifySize modifyFee modifyCount modifySigOps : Int) :
    Except Halt CTxMemPoolEntry :=
  let nSizeWithAncestors := e.nSizeWithAncestors + modifySize
  let nCountWithAncestors := e.nCountWithAncestors + modifyCount
  let nSigOpCostWithAncestors := e.nSigOpCostWithAncestors + modifySigOps
  if ¬0 < ByteStream.wrap 64 nSizeWithAncestors then
    .error (.abort (str "assert(int64_t(nSizeWithAncestors) > 0)"))
  else if ¬0 < ByteStream.wrap 64 nCountWithAncestors then
    .error (.abort (str "assert(int64_t(nCountWithAncestors) > 0)"))
  else if ¬0 ≤ ByteStream.wrap 32 nSigOpCostWithAncestors then
    .error (.abort (str "assert(int(nSigOpCostWithAncestors) >= 0)"))
  else
    .ok { e with nSizeWithAncestors, nCountWithAncestors, nSigOpCostWithAncestors
                 nModFeesWithAncestors := e.nModFeesWithAncestors + modifyFee }

@[simp] theorem UpdateFeeDelta_tx (e : CTxMemPoolEntry) (d : CAmount) :
    (e.UpdateFeeDelta d).tx = e.tx := rfl

end CTxMemPoolEntry

/-- `CTxMemPool::TxLinks`: the in-pool parents and children of an entry. -/
structure TxLinks where
  parents : setEntries
  children : setEntries

/-- `CTxMemPool`: the entries by hash, their links, the spent outpoints with the transaction
spending each, the fee deltas, the total virtual size, and the asset-name locks. -/
structure CTxMemPool where
  mapTx : AList fun _ : uint256 => CTxMemPoolEntry
  mapLinks : AList fun _ : uint256 => TxLinks
  mapNextTx : AList fun _ : COutPoint => CTransaction
  mapDeltas : AList fun _ : uint256 => CAmount
  totalTxSize : Int
  mapAssetToHash : AList fun _ : List UInt8 => uint256
  mapHashToAsset : AList fun _ : uint256 => List UInt8

/-- The limits of `CalculateMemPoolAncestors`. -/
structure AncestorLimits where
  limitAncestorCount : Nat
  limitAncestorSize : Nat
  limitDescendantCount : Nat
  limitDescendantSize : Nat

/-- `nNoLimit = std::numeric_limits<uint64_t>::max()` for all four limits. -/
def NoLimits : AncestorLimits := ⟨2 ^ 64 - 1, 2 ^ 64 - 1, 2 ^ 64 - 1, 2 ^ 64 - 1⟩

/-- A counter read as `uint64_t`. -/
def AsUInt64 (x : Int) : Nat := (x % 2 ^ 64).toNat

namespace CTxMemPool

/-- `CTxMemPool()`: the empty pool. -/
def empty : CTxMemPool := ⟨∅, ∅, ∅, ∅, 0, ∅, ∅⟩

/-! ### Reading entries and links -/

/-- The entry a `txiter` points to. -/
def Entry (pool : CTxMemPool) (h : uint256) : Except Halt CTxMemPoolEntry :=
  match pool.mapTx.lookup h with
  | some e => .ok e
  | none => .error (.abort (str "txiter not in mapTx"))

/-- The links `GetMemPoolParents` and `GetMemPoolChildren` return, with their asserts. -/
def GetLinks (pool : CTxMemPool) (h : uint256) : Except Halt TxLinks :=
  if (pool.mapTx.lookup h).isNone then .error (.abort (str "assert(entry != mapTx.end())"))
  else
    match pool.mapLinks.lookup h with
    | some links => .ok links
    | none => .error (.abort (str "assert(it != mapLinks.end())"))

/-- `GetMemPoolParents`. -/
def GetMemPoolParents (pool : CTxMemPool) (h : uint256) : Except Halt setEntries :=
  (·.parents) <$> pool.GetLinks h

/-- `GetMemPoolChildren`. -/
def GetMemPoolChildren (pool : CTxMemPool) (h : uint256) : Except Halt setEntries :=
  (·.children) <$> pool.GetLinks h

/-- `mapLinks[entry]`, which creates empty links when there are none. -/
def LinksAt (pool : CTxMemPool) (h : uint256) : TxLinks :=
  (pool.mapLinks.lookup h).getD ⟨∅, ∅⟩

/-- `UpdateChild(entry, child, add)`. -/
def UpdateChild (pool : CTxMemPool) (entry child : uint256) (add : Bool) : CTxMemPool :=
  let links := pool.LinksAt entry
  let children := if add then links.children.insert child else links.children.erase child
  { pool with mapLinks := pool.mapLinks.insert entry { links with children } }

/-- `UpdateParent(entry, parent, add)`. -/
def UpdateParent (pool : CTxMemPool) (entry parent : uint256) (add : Bool) : CTxMemPool :=
  let links := pool.LinksAt entry
  let parents := if add then links.parents.insert parent else links.parents.erase parent
  { pool with mapLinks := pool.mapLinks.insert entry { links with parents } }

/-- `mapTx.modify(it, f)` with a modifier that may abort. -/
def ModifyEntry (pool : CTxMemPool) (h : uint256)
    (f : CTxMemPoolEntry → Except Halt CTxMemPoolEntry) : Except Halt CTxMemPool := do
  let e ← pool.Entry h
  let e ← f e
  return { pool with mapTx := pool.mapTx.insert h e }

/-- `ClearPrioritisation(hash)`. -/
def ClearPrioritisation (pool : CTxMemPool) (hash : uint256) : CTxMemPool :=
  { pool with mapDeltas := pool.mapDeltas.erase hash }

/-! ### Ancestors and descendants -/

/-- The search of `CalculateMemPoolAncestors` for in-pool parents among the inputs; `none`
when there are more than the ancestor count limit allows. -/
def SearchParents (pool : CTxMemPool) (lim : AncestorLimits) :
    List CTxIn → setEntries → Option setEntries
  | [], parentHashes => some parentHashes
  | txin :: rest, parentHashes =>
    if (pool.mapTx.lookup txin.prevout.hash).isSome then
      let parentHashes := parentHashes.insert txin.prevout.hash
      if parentHashes.toList.length + 1 > lim.limitAncestorCount then none
      else SearchParents pool lim rest parentHashes
    else SearchParents pool lim rest parentHashes

/-- The loop over the parents of a staged ancestor: new ones join `parentHashes`, and the
ancestor count is checked after each; `none` when it is exceeded. -/
def StageParents (lim : AncestorLimits) (setAncestors : setEntries) :
    List uint256 → setEntries → Option setEntries
  | [], parentHashes => some parentHashes
  | phash :: rest, parentHashes =>
    let parentHashes :=
      if setAncestors.contains phash then parentHashes else parentHashes.insert phash
    if parentHashes.toList.length + setAncestors.toList.length + 1 > lim.limitAncestorCount then
      none
    else StageParents lim setAncestors rest parentHashes

/-- The worklist of `CalculateMemPoolAncestors`: the first staged hash becomes an ancestor, the
limits are checked on it, and its parents are staged. The result is the return value and the
ancestors found so far. -/
def AncestorsLoop (pool : CTxMemPool) (lim : AncestorLimits) (entrySize : Nat) :
    Nat → setEntries → setEntries → Nat → Except Halt (Bool × setEntries)
  | 0, _, setAncestors, _ => .ok (true, setAncestors)
  | fuel + 1, parentHashes, setAncestors, totalSizeWithAncestors =>
    match parentHashes.toList with
    | [] => .ok (true, setAncestors)
    | stageit :: _ => do
      let setAncestors := setAncestors.insert stageit
      let parentHashes := parentHashes.erase stageit
      let stage ← pool.Entry stageit
      let totalSizeWithAncestors := totalSizeWithAncestors + stage.GetTxSize
      if AsUInt64 (stage.nSizeWithDescendants + entrySize) > lim.limitDescendantSize then
        return (false, setAncestors)
      else if AsUInt64 (stage.nCountWithDescendants + 1) > lim.limitDescendantCount then
        return (false, setAncestors)
      else if totalSizeWithAncestors > lim.limitAncestorSize then
        return (false, setAncestors)
      else
        let parents ← pool.GetMemPoolParents stageit
        match StageParents lim setAncestors parents.toList parentHashes with
        | none => return (false, setAncestors)
        | some parentHashes =>
          AncestorsLoop pool lim entrySize fuel parentHashes setAncestors totalSizeWithAncestors

/-- `CalculateMemPoolAncestors(entry, setAncestors, limits..., errString, fSearchForParents)`:
whether the limits hold, and the ancestors found. -/
def CalculateMemPoolAncestors (pool : CTxMemPool) (entry : CTxMemPoolEntry)
    (lim : AncestorLimits) (fSearchForParents : Bool) : Except Halt (Bool × setEntries) := do
  let parentHashes ←
    if fSearchForParents then pure (pool.SearchParents lim entry.tx.vin ∅)
    else some <$> pool.GetMemPoolParents entry.tx.GetHash
  match parentHashes with
  | none => return (false, ∅)
  | some parentHashes =>
    pool.AncestorsLoop lim entry.GetTxSize (pool.mapTx.entries.length + 1) parentHashes ∅
      entry.GetTxSize

/-- The worklist of `CalculateDescendants`. -/
def DescendantsLoop (pool : CTxMemPool) : Nat → setEntries → setEntries → Except Halt setEntries
  | 0, _, setDescendants => .ok setDescendants
  | fuel + 1, stage, setDescendants =>
    match stage.toList with
    | [] => .ok setDescendants
    | it :: _ => do
      let setDescendants := setDescendants.insert it
      let stage := stage.erase it
      let setChildren ← pool.GetMemPoolChildren it
      let stage := setChildren.toList.foldl
        (fun stage child => if setDescendants.contains child then stage else stage.insert child) stage
      DescendantsLoop pool fuel stage setDescendants

/-- `CalculateDescendants(entryit, setDescendants)`: the descendants of an entry added to
`setDescendants`. -/
def CalculateDescendants (pool : CTxMemPool) (entryit : uint256) (setDescendants : setEntries) :
    Except Halt setEntries :=
  let stage : setEntries :=
    if setDescendants.contains entryit then ∅ else (∅ : setEntries).insert entryit
  pool.DescendantsLoop (pool.mapTx.entries.length + 1) stage setDescendants

/-! ### Package totals -/

/-- `ModifyEntry` on every entry of a list, in order. -/
def ModifyEach (pool : CTxMemPool) (hs : List uint256)
    (f : CTxMemPoolEntry → Except Halt CTxMemPoolEntry) : Except Halt CTxMemPool :=
  hs.foldlM (fun pool h => pool.ModifyEntry h f) pool

/-- `UpdateAncestorsOf(add, it, setAncestors)`: the entry joins or leaves the children of its
parents, and its size and modified fee join or leave the descendant totals of its ancestors. -/
def UpdateAncestorsOf (pool : CTxMemPool) (add : Bool) (it : uint256) (setAncestors : setEntries) :
    Except Halt CTxMemPool := do
  let parentIters ← pool.GetMemPoolParents it
  let pool := parentIters.toList.foldl (fun pool piter => pool.UpdateChild piter it add) pool
  let e ← pool.Entry it
  let updateCount : Int := if add then 1 else -1
  pool.ModifyEach setAncestors.toList
    (·.UpdateDescendantState (updateCount * e.GetTxSize) (updateCount * e.GetModifiedFee) updateCount)

/-- `UpdateEntryForAncestors(it, setAncestors)`: the ancestors' count, sizes, modified fees and
signature operations join the entry's ancestor totals. -/
def UpdateEntryForAncestors (pool : CTxMemPool) (it : uint256) (setAncestors : setEntries) :
    Except Halt CTxMemPool := do
  let ancestors ← setAncestors.toList.mapM pool.Entry
  let updateSize : Int := (ancestors.map (·.GetTxSize)).sum
  let updateFee : CAmount := (ancestors.map (·.GetModifiedFee)).sum
  let updateSigOpsCost : Int := (ancestors.map (·.sigOpCost)).sum
  pool.ModifyEntry it (·.UpdateAncestorState updateSize updateFee setAncestors.toList.length
    updateSigOpsCost)

/-- `UpdateChildrenForRemoval(it)`: the entry leaves the parents of its children. -/
def UpdateChildrenForRemoval (pool : CTxMemPool) (it : uint256) : Except Halt CTxMemPool := do
  let setMemPoolChildren ← pool.GetMemPoolChildren it
  return setMemPoolChildren.toList.foldl (fun pool child => pool.UpdateParent child it false) pool

/-- The first loop of `UpdateForRemoveFromMempool` with `updateDescendants`: the entry leaves
the ancestor totals of its descendants. -/
def UpdateDescendantsForRemoval (pool : CTxMemPool) (removeIt : uint256) :
    Except Halt CTxMemPool := do
  let setDescendants ← pool.CalculateDescendants removeIt ∅
  let e ← pool.Entry removeIt
  pool.ModifyEach (setDescendants.erase removeIt).toList
    (·.UpdateAncestorState (-(e.GetTxSize : Int)) (-e.GetModifiedFee) (-1) (-(e.sigOpCost : Int)))

/-- The second loop of `UpdateForRemoveFromMempool`: the entry leaves the descendant totals of
the ancestors `mapLinks` gives it, and the children of its parents. -/
def UpdateAncestorsForRemoval (pool : CTxMemPool) (removeIt : uint256) :
    Except Halt CTxMemPool := do
  let entry ← pool.Entry removeIt
  let (_, setAncestors) ← pool.CalculateMemPoolAncestors entry NoLimits false
  pool.UpdateAncestorsOf false removeIt setAncestors

/-- `UpdateForRemoveFromMempool(entriesToRemove, updateDescendants)`. -/
def UpdateForRemoveFromMempool (pool : CTxMemPool) (entriesToRemove : setEntries)
    (updateDescendants : Bool) : Except Halt CTxMemPool := do
  let pool ←
    if updateDescendants then entriesToRemove.toList.foldlM UpdateDescendantsForRemoval pool
    else pure pool
  let pool ← entriesToRemove.toList.foldlM UpdateAncestorsForRemoval pool
  entriesToRemove.toList.foldlM UpdateChildrenForRemoval pool

/-! ### Removal -/

/-- The reissue locks `removeUnchecked` frees: the lock of the hash, when the name it records
is still locked. -/
def FreeReissueLock (node : NodeGlobals) (hash : uint256) : NodeGlobals :=
  match node.mapReissuedTx.lookup hash with
  | some name =>
    if (node.mapReissuedAssets.lookup name).isSome then
      { node with mapReissuedAssets := node.mapReissuedAssets.erase name
                  mapReissuedTx := node.mapReissuedTx.erase hash }
    else node
  | none => node

/-- `removeUnchecked(it, reason)`: the entry, its links and its spends leave the pool; then the
reissue lock of its hash is freed, and the one asset name `mapHashToAsset` records for it. -/
def removeUnchecked (pool : CTxMemPool) (node : NodeGlobals) (hash : uint256) :
    Except Halt (CTxMemPool × NodeGlobals) := do
  let e ← pool.Entry hash
  let pool := { pool with
    mapNextTx := e.tx.vin.foldl (fun m (txin : CTxIn) => m.erase txin.prevout) pool.mapNextTx
    totalTxSize := pool.totalTxSize - e.GetTxSize
    mapLinks := pool.mapLinks.erase hash
    mapTx := pool.mapTx.erase hash }
  let node := FreeReissueLock node hash
  match pool.mapHashToAsset.lookup hash with
  | some name =>
    return ({ pool with mapAssetToHash := pool.mapAssetToHash.erase name
                        mapHashToAsset := pool.mapHashToAsset.erase hash }, node)
  | none => return (pool, node)

/-- `RemoveStaged(stage, updateDescendants, reason)`. -/
def RemoveStaged (pool : CTxMemPool) (node : NodeGlobals) (stage : setEntries)
    (updateDescendants : Bool) : Except Halt (CTxMemPool × NodeGlobals) := do
  let pool ← pool.UpdateForRemoveFromMempool stage updateDescendants
  stage.toList.foldlM (fun (pool, node) it => pool.removeUnchecked node it) (pool, node)

/-- The entries `removeRecursive` starts from when the transaction itself is not in the pool:
the spenders of its outputs. -/
def SpendersOf (pool : CTxMemPool) (hash : uint256) (nOut : Nat) : Except Halt setEntries :=
  (List.range nOut).foldlM (fun txToRemove i =>
    match pool.mapNextTx.lookup ⟨hash, i.toUInt32⟩ with
    | none => .ok txToRemove
    | some next =>
      if (pool.mapTx.lookup next.GetHash).isSome then .ok (txToRemove.insert next.GetHash)
      else .error (.abort (str "assert(nextit != mapTx.end())"))) ∅

/-- `removeRecursive(origTx, reason)`: the transaction, or the spenders of its outputs, with
all their descendants. -/
def removeRecursive (pool : CTxMemPool) (node : NodeGlobals) (origTx : CTransaction) :
    Except Halt (CTxMemPool × NodeGlobals) := do
  let hash := origTx.GetHash
  let txToRemove ←
    if (pool.mapTx.lookup hash).isSome then pure ((∅ : setEntries).insert hash)
    else pool.SpendersOf hash origTx.vout.length
  let setAllRemoves ← txToRemove.toList.foldlM (fun s it => pool.CalculateDescendants it s) ∅
  pool.RemoveStaged node setAllRemoves false

/-- `removeConflicts(tx)`: every other pool transaction spending an input of `tx` loses its
fee delta and is removed with its descendants. -/
def removeConflicts (pool : CTxMemPool) (node : NodeGlobals) (tx : CTransaction) :
    Except Halt (CTxMemPool × NodeGlobals) :=
  tx.vin.foldlM (fun (pool, node) txin =>
    match pool.mapNextTx.lookup txin.prevout with
    | some txConflict =>
      if txConflict.GetHash ≠ tx.GetHash then
        (pool.ClearPrioritisation txConflict.GetHash).removeRecursive node txConflict
      else .ok (pool, node)
    | none => .ok (pool, node)) (pool, node)

/-- The body of both loops of `removeForBlock`: the transaction leaves the pool with
`updateDescendants`, its conflicts are removed, and its fee delta is cleared. -/
def RemoveBlockTx (pool : CTxMemPool) (node : NodeGlobals) (tx : CTransaction) :
    Except Halt (CTxMemPool × NodeGlobals) := do
  let (pool, node) ←
    if (pool.mapTx.lookup tx.GetHash).isSome then
      pool.RemoveStaged node ((∅ : setEntries).insert tx.GetHash) true
    else pure (pool, node)
  let (pool, node) ← pool.removeConflicts node tx
  return (pool.ClearPrioritisation tx.GetHash, node)

/-- `removeForBlock(vtx, nBlockHeight, setNewAssets)`; `setNewAssets` are the names of the
assets the block created, in the set's order. The pool issues of those names are looked up
first and removed after the block's transactions. -/
def removeForBlock (pool : CTxMemPool) (node : NodeGlobals) (vtx : List CTransaction)
    (setNewAssets : List (List UInt8)) : Except Halt (CTxMemPool × NodeGlobals) := do
  let trans := setNewAssets.filterMap fun name =>
    (pool.mapAssetToHash.lookup name).bind fun h => (pool.mapTx.lookup h).map (·.tx)
  let (pool, node) ← vtx.foldlM (fun (pool, node) tx => pool.RemoveBlockTx node tx) (pool, node)
  trans.foldlM (fun (pool, node) tx => pool.RemoveBlockTx node tx) (pool, node)

/-! ### Adding and prioritising -/

/-- `std::map::insert`, which keeps an entry already present. -/
def InsertNew {κ : Type} {β : κ → Type} [DecidableEq κ] (m : AList β) (k : κ) (v : β k) :
    AList β :=
  if (m.lookup k).isSome then m else m.insert k v

/-- `addUnchecked(hash, entry, setAncestors, validFeeEstimate)`. -/
def addUnchecked (pool : CTxMemPool) (hash : uint256) (entry : CTxMemPoolEntry)
    (setAncestors : setEntries) : Except Halt CTxMemPool := do
  let newit := entry.tx.GetHash
  let pool := { pool with mapTx := InsertNew pool.mapTx newit entry
                          mapLinks := InsertNew pool.mapLinks newit ⟨∅, ∅⟩ }
  let pool ←
    match pool.mapDeltas.lookup hash with
    | some delta =>
      if delta ≠ 0 then pool.ModifyEntry newit fun e => .ok (e.UpdateFeeDelta delta) else pure pool
    | none => pure pool
  let tx := (← pool.Entry newit).tx
  let pool := { pool with
    mapNextTx := tx.vin.foldl (fun m (txin : CTxIn) => InsertNew m txin.prevout tx) pool.mapNextTx }
  let setParentTransactions : setEntries :=
    tx.vin.foldl (fun (s : setEntries) (txin : CTxIn) => s.insert txin.prevout.hash) ∅
  let pool := setParentTransactions.toList.foldl (fun pool phash =>
    if (pool.mapTx.lookup phash).isSome then pool.UpdateParent newit phash true else pool) pool
  let pool ← pool.UpdateAncestorsOf true newit setAncestors
  let pool ← pool.UpdateEntryForAncestors newit setAncestors
  return { pool with totalTxSize := pool.totalTxSize + entry.GetTxSize }

/-- `PrioritiseTransaction(hash, nFeeDelta)`: the delta accumulates in `mapDeltas`; an entry in
the pool takes it, and so do the totals of its ancestors and descendants. -/
def PrioritiseTransaction (pool : CTxMemPool) (hash : uint256) (nFeeDelta : CAmount) :
    Except Halt CTxMemPool := do
  let delta := (pool.mapDeltas.lookup hash).getD 0 + nFeeDelta
  let pool := { pool with mapDeltas := pool.mapDeltas.insert hash delta }
  if (pool.mapTx.lookup hash).isNone then return pool
  let pool ← pool.ModifyEntry hash fun e => .ok (e.UpdateFeeDelta delta)
  let entry ← pool.Entry hash
  let (_, setAncestors) ← pool.CalculateMemPoolAncestors entry NoLimits false
  let pool ← pool.ModifyEach setAncestors.toList (·.UpdateDescendantState 0 nFeeDelta 0)
  let setDescendants ← pool.CalculateDescendants hash ∅
  pool.ModifyEach (setDescendants.erase hash).toList (·.UpdateAncestorState 0 nFeeDelta 0 0)

/-! ### `check` -/

/-- The checks of `check` on one input of a pool transaction: a pool parent has the output,
else the chain view has the coin; and `mapNextTx` records the input as spent by this
transaction. The parents found so far accumulate. -/
def CheckInput (pool : CTxMemPool) (pcoins : CCoinsViewCache) (tx : CTransaction)
    (setParentCheck : setEntries) (txin : CTxIn) : Except Halt setEntries := do
  let setParentCheck ←
    match pool.mapTx.lookup txin.prevout.hash with
    | some e2 =>
      if txin.prevout.n.toNat < e2.tx.vout.length ∧
          !(e2.tx.vout.getD txin.prevout.n.toNat CTxOut.Null).IsNull then
        pure (setParentCheck.insert txin.prevout.hash)
      else throw (.abort (str "assert(tx2.vout.size() > txin.prevout.n && !tx2.vout[txin.prevout.n].IsNull())"))
    | none =>
      if pcoins.HaveCoin txin.prevout then pure setParentCheck
      else throw (.abort (str "assert(pcoins->HaveCoin(txin.prevout))"))
  match pool.mapNextTx.lookup txin.prevout with
  | none => throw (.abort (str "assert(it3 != mapNextTx.end())"))
  | some tx3 =>
    if tx3 = tx then pure setParentCheck else throw (.abort (str "assert(it3->second == &tx)"))

/-- The children `check` derives for an entry from `mapNextTx`, and the sum of their sizes. -/
def ChildrenFromNextTx (pool : CTxMemPool) (hash : uint256) : Except Halt (setEntries × Nat) :=
  (pool.mapNextTx.entries.filter fun e => e.1.hash = hash).foldlM (fun (setChildrenCheck, childSizes) e =>
    match pool.mapTx.lookup e.2.GetHash with
    | none => throw (.abort (str "assert(childit != mapTx.end())"))
    | some child =>
      if setChildrenCheck.contains e.2.GetHash then pure (setChildrenCheck, childSizes)
      else pure (setChildrenCheck.insert e.2.GetHash, childSizes + child.GetTxSize)) (∅, 0)

/-- The checks of `check` on one entry. -/
def CheckEntry (pool : CTxMemPool) (pcoins : CCoinsViewCache) (hash : uint256)
    (e : CTxMemPoolEntry) : Except Halt Unit := do
  let links ←
    match pool.mapLinks.lookup hash with
    | some links => pure links
    | none => throw (.abort (str "assert(linksiter != mapLinks.end())"))
  let setParentCheck ← e.tx.vin.foldlM (pool.CheckInput pcoins e.tx) ∅
  if setParentCheck.toList ≠ links.parents.toList then
    throw (.abort (str "assert(setParentCheck == GetMemPoolParents(it))"))
  let (_, setAncestors) ← pool.CalculateMemPoolAncestors e NoLimits true
  let ancestors ← setAncestors.toList.mapM pool.Entry
  let nSizeCheck := e.GetTxSize + (ancestors.map (·.GetTxSize)).sum
  let nFeesCheck := e.GetModifiedFee + (ancestors.map (·.GetModifiedFee)).sum
  let nSigOpCheck : Int := e.sigOpCost + (ancestors.map (·.sigOpCost)).sum
  if AsUInt64 e.nCountWithAncestors ≠ setAncestors.toList.length + 1 then
    throw (.abort (str "assert(it->GetCountWithAncestors() == nCountCheck)"))
  if AsUInt64 e.nSizeWithAncestors ≠ nSizeCheck % 2 ^ 64 then
    throw (.abort (str "assert(it->GetSizeWithAncestors() == nSizeCheck)"))
  if e.nSigOpCostWithAncestors ≠ nSigOpCheck then
    throw (.abort (str "assert(it->GetSigOpCostWithAncestors() == nSigOpCheck)"))
  if e.nModFeesWithAncestors ≠ nFeesCheck then
    throw (.abort (str "assert(it->GetModFeesWithAncestors() == nFeesCheck)"))
  let (setChildrenCheck, childSizes) ← pool.ChildrenFromNextTx hash
  if setChildrenCheck.toList ≠ links.children.toList then
    throw (.abort (str "assert(setChildrenCheck == GetMemPoolChildren(it))"))
  if AsUInt64 e.nSizeWithDescendants < childSizes + e.GetTxSize then
    throw (.abort (str "assert(it->GetSizeWithDescendants() >= childSizes + it->GetTxSize())"))

/-- `check(pcoins)` with sanity checks on: the checks of every entry, that every spender in
`mapNextTx` is in the pool, and the total size. -/
def check (pool : CTxMemPool) (pcoins : CCoinsViewCache) : Except Halt Unit := do
  pool.mapTx.entries.forM fun e => pool.CheckEntry pcoins e.1 e.2
  pool.mapNextTx.entries.forM fun e =>
    match pool.mapTx.lookup e.2.GetHash with
    | none => throw (.abort (str "assert(it2 != mapTx.end())"))
    | some e2 => if e2.tx = e.2 then pure () else throw (.abort (str "assert(&tx == it->second)"))
  if AsUInt64 pool.totalTxSize ≠ (pool.mapTx.entries.map fun e => e.2.GetTxSize).sum % 2 ^ 64 then
    throw (.abort (str "assert(totalTxSize == checkTotal)"))

end CTxMemPool

end Ravencoin
