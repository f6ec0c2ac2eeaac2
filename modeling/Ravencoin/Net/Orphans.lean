import Ravencoin.Mempool.Pool
import Ravencoin.Lib.SetMap
import Ravencoin.Lib.ExceptRun

/-!
# The orphan transaction pool (`net_processing.cpp`)

A node keeps the transactions whose inputs it cannot find in `mapOrphanTransactions`, by hash,
and indexes them by the outpoints they spend in `mapOrphanTransactionsByPrev`, whose sets hold
iterators into `mapOrphanTransactions`. `AddOrphanTx` stores an orphan and inserts it into the
set of each of its prevouts; `EraseOrphanTx` removes it from those sets, dropping a set that
becomes empty, and from the pool. `EraseOrphansFor` erases the orphans of a peer,
`LimitOrphanTxSize` first sweeps out the expired orphans and then evicts random ones down to a
bound, `BlockConnected` erases the orphans that spend an outpoint a block spends, and the
resolution loop of `ProcessMessage` tries every orphan that spends an output of an accepted
transaction, queueing the outputs of those it accepts, and erases the tried ones at the end.

This module models the pool and these operations and proves that the index stays exact along
every sequence of them: the set of an outpoint exists exactly when an orphan spends it and then
holds exactly the orphans that spend it, so no set holds a dangling iterator.

## Main definitions

* `Ravencoin.OrphanState` — `mapOrphanTransactions`, `mapOrphanTransactionsByPrev` and the
  `static` `nNextSweep` of `LimitOrphanTxSize`.
* `Ravencoin.AddOrphanTx`, `Ravencoin.EraseOrphanTx`, `Ravencoin.EraseOrphansFor`,
  `Ravencoin.LimitOrphanTxSize`, `Ravencoin.BlockConnected`, `Ravencoin.ProcessOrphans`.
* `Ravencoin.OrphanOp`, `Ravencoin.RunOrphans` — sequences of these operations.
* `Ravencoin.IndexOk` — every orphan is stored under its hash, and the index is exact.

## Main results

* `Ravencoin.IndexOk.AddOrphanTx`, `Ravencoin.IndexOk.EraseOrphanTx` — the two updates of the
  index keep it exact; every other operation is made of them.
* `Ravencoin.OrphanOp.Apply_ok` — from an exact index every operation succeeds, with no
  dangling iterator read, and keeps the index exact.
* `Ravencoin.LimitOrphanTxSize_spec` — the eviction stops at `min n s` orphans and returns
  `s - n`.
* `Ravencoin.orphan_index_consistent`.

## Implementation notes

An iterator into `mapOrphanTransactions` is the key of its entry, and a set of iterators is a
list of keys without duplicates, in an order the model does not fix (the C++ orders them by
address). Reading an orphan through an iterator whose entry is gone has no defined behaviour;
the model aborts there. `GetTime` and `GetRandHash` are parameters, the random hashes of one
call to `LimitOrphanTxSize` a stream indexed by the number of orphans evicted so far.
`AcceptToMemoryPool` is a parameter over any mempool state: it reports acceptance, a missing
input, or a rejection with the DoS score of its validation state. The resolution loop runs over
a queue that its acceptances extend; the model bounds its iterations by a fuel argument, and
its results hold for every fuel. `vExtraTxnForCompact`, `recentRejects` and the DoS scores of
peers are not modelled. The sweep and `EraseOrphansFor` walk the entries as they were before
the walk: each erases only the entry it is at, since every orphan is stored under its hash.
-/

set_option autoImplicit false

namespace Ravencoin

/-- `NodeId`. -/
abbrev NodeId := Int

/-- `ORPHAN_TX_EXPIRE_TIME`: seconds an orphan is kept. -/
def ORPHAN_TX_EXPIRE_TIME : Int := 20 * 60

/-- `ORPHAN_TX_EXPIRE_INTERVAL`: the least interval between two expiry sweeps. -/
def ORPHAN_TX_EXPIRE_INTERVAL : Int := 5 * 60

/-- `MAX_STANDARD_TX_WEIGHT`. -/
def MAX_STANDARD_TX_WEIGHT : Nat := 400000

/-- `COrphanTx`. -/
structure COrphanTx where
  tx : CTransaction
  fromPeer : NodeId
  nTimeExpire : Int

/-- The orphan pool. -/
structure OrphanState where
  mapOrphanTransactions : KeyedSet (fun e : uint256 × COrphanTx => e.1) uint256.lt
  mapOrphanTransactionsByPrev : SetMap COutPoint uint256 COutPoint.lt
  /-- The `static int64_t nNextSweep` of `LimitOrphanTxSize`, zero before the first call. -/
  nNextSweep : Int

namespace OrphanState

/-- The empty pool of a starting node. -/
def empty : OrphanState := ⟨∅, ∅, 0⟩

/-- `mapOrphanTransactions.size()`. -/
def size (st : OrphanState) : Nat := st.mapOrphanTransactions.toList.length

/-- The orphan stored under a hash. -/
def orphan (st : OrphanState) (hash : uint256) : Option COrphanTx :=
  (st.mapOrphanTransactions.find? hash).map Prod.snd

end OrphanState

/-! ### The operations -/

/-- `AddOrphanTx`: stores the orphan unless its hash is stored or it is too heavy, and inserts
its iterator into the set of each of its prevouts. -/
def AddOrphanTx (st : OrphanState) (tx : CTransaction) (peer : NodeId) (nNow : Int) :
    OrphanState × Bool :=
  let hash := tx.GetHash
  if st.mapOrphanTransactions.contains hash then (st, false)
  else if GetTransactionWeight tx ≥ MAX_STANDARD_TX_WEIGHT then (st, false)
  else
    ({ st with
        mapOrphanTransactions :=
          st.mapOrphanTransactions.insert (hash, ⟨tx, peer, nNow + ORPHAN_TX_EXPIRE_TIME⟩)
        mapOrphanTransactionsByPrev := tx.vin.foldl (fun m txin => m.insertAt txin.prevout hash)
          st.mapOrphanTransactionsByPrev }, true)

/-- `EraseOrphanTx`: takes the orphan's iterator out of the set of each of its prevouts, then the
orphan out of the pool; the number erased. -/
def EraseOrphanTx (st : OrphanState) (hash : uint256) : OrphanState × Nat :=
  match st.mapOrphanTransactions.find? hash with
  | none => (st, 0)
  | some (_, orphan) =>
    ({ st with
        mapOrphanTransactionsByPrev := orphan.tx.vin.foldl
          (fun m txin => m.eraseAt txin.prevout hash) st.mapOrphanTransactionsByPrev
        mapOrphanTransactions := st.mapOrphanTransactions.erase hash }, 1)

/-- `EraseOrphanTx` for each hash in turn. -/
def EraseAll (st : OrphanState) (hashes : List uint256) : OrphanState :=
  hashes.foldl (fun st hash => (EraseOrphanTx st hash).1) st

/-- `EraseOrphansFor`: erases the orphans a peer sent. -/
def EraseOrphansFor (st : OrphanState) (peer : NodeId) : OrphanState :=
  st.mapOrphanTransactions.toList.foldl (fun st e =>
    if e.2.fromPeer = peer then (EraseOrphanTx st e.2.tx.GetHash).1 else st) st

/-- One entry of the expiry sweep: an expired orphan is erased, and the others lower the
earliest expiry time seen. -/
def SweepStep (nNow : Int) (acc : OrphanState × Int) (e : uint256 × COrphanTx) :
    OrphanState × Int :=
  if e.2.nTimeExpire ≤ nNow then ((EraseOrphanTx acc.1 e.2.tx.GetHash).1, acc.2)
  else (acc.1, min e.2.nTimeExpire acc.2)

/-- The expiry sweep of `LimitOrphanTxSize`, run when `nNextSweep` has passed. -/
def ExpireOrphans (st : OrphanState) (nNow : Int) : OrphanState :=
  if st.nNextSweep ≤ nNow then
    let r := st.mapOrphanTransactions.toList.foldl (SweepStep nNow)
      (st, nNow + ORPHAN_TX_EXPIRE_TIME - ORPHAN_TX_EXPIRE_INTERVAL)
    { r.1 with nNextSweep := r.2 + ORPHAN_TX_EXPIRE_INTERVAL }
  else st

/-- `mapOrphanTransactions.lower_bound(hash)`: the first entry whose key is not below the hash,
in the key order of the map. -/
def lowerBound (st : OrphanState) (hash : uint256) : Option (uint256 × COrphanTx) :=
  st.mapOrphanTransactions.toList.find? fun e => !uint256.lt e.1 hash

/-- The eviction loop of `LimitOrphanTxSize`: while there are more than `nMaxOrphans` orphans,
erase the one at the `lower_bound` of a random hash, or the first one; the number evicted. -/
def EvictOrphans (nMaxOrphans : Nat) (GetRandHash : Nat → uint256) :
    Nat → OrphanState → Nat → OrphanState × Nat
  | 0, st, nEvicted => (st, nEvicted)
  | fuel + 1, st, nEvicted =>
    if st.size > nMaxOrphans then
      match (lowerBound st (GetRandHash nEvicted)).orElse fun _ =>
          st.mapOrphanTransactions.toList.head? with
      | some (hash, _) =>
        EvictOrphans nMaxOrphans GetRandHash fuel (EraseOrphanTx st hash).1 (nEvicted + 1)
      -- `begin()` of an empty map; there are orphans here
      | none => (st, nEvicted)
    else (st, nEvicted)

/-- `LimitOrphanTxSize`: the sweep, then the eviction, given as many rounds as there are
orphans. -/
def LimitOrphanTxSize (st : OrphanState) (nMaxOrphans : Nat) (nNow : Int)
    (GetRandHash : Nat → uint256) : OrphanState × Nat :=
  let st := ExpireOrphans st nNow
  EvictOrphans nMaxOrphans GetRandHash st.size st 0

/-- `(*mi)->second`: the orphan an iterator of the index points at. -/
def derefOrphan (st : OrphanState) (mi : uint256) : Except Halt COrphanTx :=
  match st.orphan mi with
  | some orphan => pure orphan
  | none => throw (.abort (str "dereference of an erased orphan"))

/-- The hashes of the orphans in the set of an outpoint, read through its iterators. -/
def ByPrevHashes (st : OrphanState) (o : COutPoint) : Except Halt (List uint256) :=
  match SetMap.get st.mapOrphanTransactionsByPrev o with
  | none => pure []
  | some s => s.mapM fun mi => do
    let orphan ← derefOrphan st mi
    pure orphan.tx.GetHash

/-- The orphan eviction of `PeerLogicValidation::BlockConnected`: the orphans that spend an
outpoint some transaction of the block spends are erased. -/
def BlockConnected (st : OrphanState) (vtx : List CTransaction) : Except Halt OrphanState := do
  let vOrphanErase ← (vtx.flatMap fun tx => tx.vin.map CTxIn.prevout).mapM (ByPrevHashes st)
  pure (EraseAll st vOrphanErase.flatten)

/-! ### The resolution loop -/

/-- What `AcceptToMemoryPool` reports on a transaction: accepted; turned away for a missing
input (`fMissingInputs`); or turned away otherwise, with the DoS score of its validation state
(`IsInvalid(nDos)`, `0` when it is not invalid). -/
inductive AcceptResult
  | accepted
  | missingInputs
  | rejected (nDos : Int)

/-- The state of the resolution loop. -/
structure ResolveState (σ : Type) where
  vWorkQueue : List COutPoint
  setMisbehaving : List NodeId
  vEraseQueue : List uint256
  /-- The mempool. -/
  pool : σ

/-- The outpoints of the outputs of a transaction. -/
def OutputsOf (hash : uint256) (tx : CTransaction) : List COutPoint :=
  (List.range tx.vout.length).map fun i => ⟨hash, i.toUInt32⟩

section Resolve

variable {σ : Type} (AcceptToMemoryPool : σ → CTransaction → σ × AcceptResult)

/-- The loop over the orphans in the set of one outpoint. -/
def ResolveOrphans (st : OrphanState) : List uint256 → ResolveState σ →
    Except Halt (ResolveState σ)
  | [], rs => pure rs
  | mi :: rest, rs => do
    let orphan ← derefOrphan st mi
    let orphanHash := orphan.tx.GetHash
    if orphan.fromPeer ∈ rs.setMisbehaving then ResolveOrphans st rest rs
    else
      let (pool, result) := AcceptToMemoryPool rs.pool orphan.tx
      let rs := { rs with pool }
      match result with
      | .accepted =>
        ResolveOrphans st rest { rs with
          vWorkQueue := rs.vWorkQueue ++ OutputsOf orphanHash orphan.tx
          vEraseQueue := rs.vEraseQueue ++ [orphanHash] }
      | .missingInputs => ResolveOrphans st rest rs
      | .rejected nDos =>
        -- `Misbehaving(fromPeer, nDos)` when the orphan is invalid
        ResolveOrphans st rest { rs with
          setMisbehaving := if nDos > 0 then orphan.fromPeer :: rs.setMisbehaving
            else rs.setMisbehaving
          vEraseQueue := rs.vEraseQueue ++ [orphanHash] }

/-- `while (!vWorkQueue.empty())`, for at most `fuel` outpoints. -/
def WorkLoop (st : OrphanState) : Nat → ResolveState σ → Except Halt (ResolveState σ)
  | 0, rs => pure rs
  | fuel + 1, rs =>
    match rs.vWorkQueue with
    | [] => pure rs
    | o :: rest =>
      match SetMap.get st.mapOrphanTransactionsByPrev o with
      | none => WorkLoop st fuel { rs with vWorkQueue := rest }
      | some s => do
        let rs ← ResolveOrphans AcceptToMemoryPool st s { rs with vWorkQueue := rest }
        WorkLoop st fuel rs

/-- The orphan resolution of `ProcessMessage("tx")` after `tx` was accepted into the mempool
`pool`: the loop over the outputs of `tx` and of the orphans it accepts, then the erasure of
the orphans it tried. -/
def ProcessOrphans (st : OrphanState) (tx : CTransaction) (pool : σ) (fuel : Nat) :
    Except Halt (OrphanState × σ) := do
  let rs ← WorkLoop AcceptToMemoryPool st fuel ⟨OutputsOf tx.GetHash tx, [], [], pool⟩
  pure (EraseAll st rs.vEraseQueue, rs.pool)

end Resolve

/-! ### Sequences of operations -/

/-- An operation on the orphan pool. -/
inductive OrphanOp (σ : Type)
  | AddOrphanTx (tx : CTransaction) (peer : NodeId) (nNow : Int)
  | EraseOrphanTx (hash : uint256)
  | EraseOrphansFor (peer : NodeId)
  | LimitOrphanTxSize (nMaxOrphans : Nat) (nNow : Int) (GetRandHash : Nat → uint256)
  | BlockConnected (vtx : List CTransaction)
  | ProcessOrphans (tx : CTransaction) (pool : σ) (fuel : Nat)

section Ops

variable {σ : Type} (AcceptToMemoryPool : σ → CTransaction → σ × AcceptResult)

/-- One operation. -/
def OrphanOp.Apply : OrphanOp σ → OrphanState → Except Halt OrphanState
  | .AddOrphanTx tx peer nNow, st => pure (Ravencoin.AddOrphanTx st tx peer nNow).1
  | .EraseOrphanTx hash, st => pure (Ravencoin.EraseOrphanTx st hash).1
  | .EraseOrphansFor peer, st => pure (Ravencoin.EraseOrphansFor st peer)
  | .LimitOrphanTxSize n nNow rand, st => pure (Ravencoin.LimitOrphanTxSize st n nNow rand).1
  | .BlockConnected vtx, st => Ravencoin.BlockConnected st vtx
  | .ProcessOrphans tx pool fuel, st =>
    return (← Ravencoin.ProcessOrphans AcceptToMemoryPool st tx pool fuel).1

/-- A sequence of operations, the first one first. -/
def RunOrphans (ops : List (OrphanOp σ)) (st : OrphanState) : Except Halt OrphanState :=
  ops.foldlM (fun st op => op.Apply AcceptToMemoryPool st) st

end Ops

/-! ### The index -/

/-- The orphan stored under `hash` in the map `m` spends the outpoint `o`. -/
def OrphanSpends (m : KeyedSet (fun e : uint256 × COrphanTx => e.1) uint256.lt) (hash : uint256)
    (o : COutPoint) : Prop :=
  ∃ orphan, (m.find? hash).map Prod.snd = some orphan ∧ o ∈ orphan.tx.vin.map CTxIn.prevout

/-- Every orphan is stored under the hash of its transaction, and
`mapOrphanTransactionsByPrev` indexes the outpoints the orphans spend. -/
structure IndexOk (st : OrphanState) : Prop where
  hash_eq : ∀ e ∈ st.mapOrphanTransactions.toList, e.2.tx.GetHash = e.1
  byPrev : st.mapOrphanTransactionsByPrev.Indexes (OrphanSpends st.mapOrphanTransactions)

section Index

variable {m : KeyedSet (fun e : uint256 × COrphanTx => e.1) uint256.lt}

theorem OrphanSpends_erase (m : KeyedSet (fun e : uint256 × COrphanTx => e.1) uint256.lt)
    (k b : uint256) (o : COutPoint) :
    OrphanSpends (m.erase k) b o ↔ b ≠ k ∧ OrphanSpends m b o := by
  unfold OrphanSpends
  rw [KeyedSet.find?_erase]
  by_cases hb : b = k
  · simp [hb]
  · simp [hb]

theorem OrphanSpends_insert {k : uint256} (hk : m.contains k = false) (orphan : COrphanTx)
    (b : uint256) (o : COutPoint) :
    OrphanSpends (m.insert (k, orphan)) b o ↔
      OrphanSpends m b o ∨ (b = k ∧ o ∈ orphan.tx.vin.map CTxIn.prevout) := by
  have hnone : m.find? k = none := by
    rw [KeyedSet.contains_eq_isSome_find?] at hk
    simpa using hk
  unfold OrphanSpends
  rw [KeyedSet.find?_insert, if_neg (by simp [hk])]
  by_cases hb : b = k
  · subst hb
    simp [hnone]
  · simp [Ne.symm hb, hb]

theorem IndexOk_empty : IndexOk OrphanState.empty where
  hash_eq e he := absurd he List.not_mem_nil
  byPrev := SetMap.Indexes_empty.congr fun b o => by
    simp [OrphanSpends, OrphanState.empty, KeyedSet.find?_empty]

variable {st : OrphanState}

/-- An orphan found under a hash is the one spending what it spends. -/
theorem OrphanSpends_of_find {k : uint256} {e : uint256 × COrphanTx}
    (hfind : m.find? k = some e) (o : COutPoint) :
    OrphanSpends m k o ↔ o ∈ e.2.tx.vin.map CTxIn.prevout := by
  unfold OrphanSpends
  rw [hfind]
  simp

theorem IndexOk.EraseOrphanTx (h : IndexOk st) (hash : uint256) :
    IndexOk (EraseOrphanTx st hash).1 := by
  unfold Ravencoin.EraseOrphanTx
  cases hfind : st.mapOrphanTransactions.find? hash with
  | none => exact h
  | some e =>
    obtain ⟨k, orphan⟩ := e
    refine ⟨fun e he => h.hash_eq e (List.mem_of_mem_filter he), ?_⟩
    have hidx := h.byPrev.eraseAll hash (orphan.tx.vin.map CTxIn.prevout) _
    rw [List.foldl_map] at hidx
    refine hidx.congr fun b o => ?_
    rw [OrphanSpends_erase]
    constructor
    · rintro ⟨hspend, hnot⟩
      refine ⟨fun hb => hnot ⟨hb, ?_⟩, hspend⟩
      -- the orphan under `hash` spends `o` exactly when `o` is one of its prevouts
      rw [hb, OrphanSpends_of_find hfind] at hspend
      exact hspend
    · rintro ⟨hb, hspend⟩
      exact ⟨hspend, fun hbo => hb hbo.1⟩

theorem IndexOk.AddOrphanTx (h : IndexOk st) (tx : CTransaction) (peer : NodeId) (nNow : Int) :
    IndexOk (AddOrphanTx st tx peer nNow).1 := by
  unfold Ravencoin.AddOrphanTx
  dsimp only
  split_ifs with hc hw
  · exact h
  · exact h
  · have hc' : st.mapOrphanTransactions.contains tx.GetHash = false := by simpa using hc
    refine ⟨fun e he => ?_, ?_⟩
    · -- the new entry is stored under the hash of its transaction
      rcases (KeyedSet.mem_insert _ hc' e).1 he with rfl | he
      · rfl
      · exact h.hash_eq e he
    · have hidx := h.byPrev.insertAll tx.GetHash (tx.vin.map CTxIn.prevout) _
      rw [List.foldl_map] at hidx
      exact hidx.congr fun b o =>
        (OrphanSpends_insert hc' ⟨tx, peer, nNow + ORPHAN_TX_EXPIRE_TIME⟩ b o).symm

theorem IndexOk.EraseAll (h : IndexOk st) (hashes : List uint256) :
    IndexOk (EraseAll st hashes) := by
  induction hashes generalizing st with
  | nil => exact h
  | cons hash hashes ih => exact ih (h.EraseOrphanTx hash)

theorem IndexOk.EraseOrphansFor (h : IndexOk st) (peer : NodeId) :
    IndexOk (EraseOrphansFor st peer) := by
  refine ExceptRun.foldl_invariant _ (fun _ st => IndexOk st) _ h fun _ e _ _ st hst => ?_
  split_ifs
  · exact hst.EraseOrphanTx _
  · exact hst

theorem IndexOk.ExpireOrphans (h : IndexOk st) (nNow : Int) : IndexOk (ExpireOrphans st nNow) := by
  unfold Ravencoin.ExpireOrphans
  split_ifs
  · have hr : IndexOk (st.mapOrphanTransactions.toList.foldl (SweepStep nNow)
        (st, nNow + ORPHAN_TX_EXPIRE_TIME - ORPHAN_TX_EXPIRE_INTERVAL)).1 := by
      refine ExceptRun.foldl_invariant _ (fun _ (acc : OrphanState × Int) => IndexOk acc.1) _ h
        fun _ e _ _ acc hacc => ?_
      dsimp only [SweepStep]
      split_ifs
      · exact hacc.EraseOrphanTx _
      · exact hacc
    exact ⟨hr.hash_eq, hr.byPrev⟩
  · exact h

theorem IndexOk.EvictOrphans (h : IndexOk st) (nMaxOrphans : Nat) (GetRandHash : Nat → uint256)
    (fuel nEvicted : Nat) : IndexOk (EvictOrphans nMaxOrphans GetRandHash fuel st nEvicted).1 := by
  induction fuel generalizing st nEvicted with
  | zero => exact h
  | succ fuel ih =>
    unfold Ravencoin.EvictOrphans
    split_ifs
    · split
      · exact ih (h.EraseOrphanTx _) _
      · exact h
    · exact h

theorem IndexOk.LimitOrphanTxSize (h : IndexOk st) (nMaxOrphans : Nat) (nNow : Int)
    (GetRandHash : Nat → uint256) : IndexOk (LimitOrphanTxSize st nMaxOrphans nNow GetRandHash).1 :=
  (h.ExpireOrphans nNow).EvictOrphans nMaxOrphans GetRandHash _ 0

end Index

/-! ### No dangling iterator -/

section Deref

variable {st : OrphanState}

/-- Every iterator in a set of the index points at a stored orphan. -/
theorem IndexOk.orphan_of_mem (h : IndexOk st) {o : COutPoint} {s : List uint256}
    (hs : SetMap.get st.mapOrphanTransactionsByPrev o = some s) {mi : uint256} (hmi : mi ∈ s) :
    ∃ orphan, st.orphan mi = some orphan := by
  obtain ⟨orphan, horphan, -⟩ := ((h.byPrev.some_set o s hs).2.2 mi).1 hmi
  exact ⟨orphan, horphan⟩

theorem derefOrphan_of_orphan {mi : uint256} {orphan : COrphanTx}
    (horphan : st.orphan mi = some orphan) : derefOrphan st mi = pure orphan := by
  rw [derefOrphan, horphan]

theorem IndexOk.ByPrevHashes_ok (h : IndexOk st) (o : COutPoint) :
    ∃ hashes, ByPrevHashes st o = .ok hashes := by
  unfold ByPrevHashes
  cases hs : SetMap.get st.mapOrphanTransactionsByPrev o with
  | none => exact ⟨[], rfl⟩
  | some s =>
    refine ExceptRun.mapM_ok _ s fun mi hmi => ?_
    obtain ⟨orphan, horphan⟩ := h.orphan_of_mem hs hmi
    exact ⟨orphan.tx.GetHash, by rw [derefOrphan_of_orphan horphan]; rfl⟩

theorem IndexOk.BlockConnected (h : IndexOk st) (vtx : List CTransaction) :
    ∃ st', BlockConnected st vtx = .ok st' ∧ IndexOk st' := by
  obtain ⟨hashes, hhashes⟩ := ExceptRun.mapM_ok (ByPrevHashes st)
    (vtx.flatMap fun tx => tx.vin.map CTxIn.prevout) fun o _ => h.ByPrevHashes_ok o
  refine ⟨Ravencoin.EraseAll st hashes.flatten, ?_, h.EraseAll _⟩
  unfold Ravencoin.BlockConnected
  rw [hhashes]
  rfl

variable {σ : Type} (AcceptToMemoryPool : σ → CTransaction → σ × AcceptResult)

/-- The loop over a set whose iterators all point at stored orphans reads no dangling one. -/
theorem ResolveOrphans_ok (st : OrphanState) :
    ∀ l : List uint256, (∀ mi ∈ l, ∃ orphan, st.orphan mi = some orphan) →
      ∀ rs, ∃ rs', ResolveOrphans AcceptToMemoryPool st l rs = .ok rs'
  | [], _, rs => ⟨rs, rfl⟩
  | mi :: rest, hl, rs => by
    obtain ⟨orphan, horphan⟩ := hl mi List.mem_cons_self
    have hrest := ResolveOrphans_ok st rest fun mi' h' => hl mi' (List.mem_cons_of_mem _ h')
    simp only [ResolveOrphans, derefOrphan_of_orphan horphan, pure_bind]
    split_ifs
    · exact hrest rs
    · -- every outcome of `AcceptToMemoryPool` goes on with the rest of the set
      obtain ⟨pool, result⟩ := AcceptToMemoryPool rs.pool orphan.tx
      cases result with
      | accepted => exact hrest _
      | missingInputs => exact hrest _
      | rejected nDos => exact hrest _

theorem IndexOk.WorkLoop_ok (h : IndexOk st) :
    ∀ fuel rs, ∃ rs', WorkLoop AcceptToMemoryPool st fuel rs = .ok rs'
  | 0, rs => ⟨rs, rfl⟩
  | fuel + 1, rs => by
    unfold WorkLoop
    cases hq : rs.vWorkQueue with
    | nil => exact ⟨rs, rfl⟩
    | cons o rest =>
      dsimp only
      cases hs : SetMap.get st.mapOrphanTransactionsByPrev o with
      | none => exact h.WorkLoop_ok fuel _
      | some s =>
        obtain ⟨rs₁, hrs₁⟩ := ResolveOrphans_ok AcceptToMemoryPool st s
          (fun mi hmi => h.orphan_of_mem hs hmi) { rs with vWorkQueue := rest }
        obtain ⟨rs₂, hrs₂⟩ := h.WorkLoop_ok fuel rs₁
        refine ⟨rs₂, ?_⟩
        dsimp only
        rw [hrs₁]
        exact hrs₂

theorem IndexOk.ProcessOrphans (h : IndexOk st) (tx : CTransaction) (pool : σ) (fuel : Nat) :
    ∃ st' pool', ProcessOrphans AcceptToMemoryPool st tx pool fuel = .ok (st', pool') ∧
      IndexOk st' := by
  obtain ⟨rs, hrs⟩ := h.WorkLoop_ok AcceptToMemoryPool fuel ⟨OutputsOf tx.GetHash tx, [], [], pool⟩
  refine ⟨Ravencoin.EraseAll st rs.vEraseQueue, rs.pool, ?_, h.EraseAll _⟩
  unfold Ravencoin.ProcessOrphans
  rw [hrs]
  rfl

/-- From an exact index every operation succeeds and keeps the index exact. -/
theorem OrphanOp.Apply_ok (h : IndexOk st) (op : OrphanOp σ) :
    ∃ st', op.Apply AcceptToMemoryPool st = .ok st' ∧ IndexOk st' := by
  cases op with
  | AddOrphanTx tx peer nNow => exact ⟨_, rfl, h.AddOrphanTx tx peer nNow⟩
  | EraseOrphanTx hash => exact ⟨_, rfl, h.EraseOrphanTx hash⟩
  | EraseOrphansFor peer => exact ⟨_, rfl, h.EraseOrphansFor peer⟩
  | LimitOrphanTxSize n nNow rand => exact ⟨_, rfl, h.LimitOrphanTxSize n nNow rand⟩
  | BlockConnected vtx => exact h.BlockConnected vtx
  | ProcessOrphans tx pool fuel =>
    obtain ⟨st', pool', hproc, hst'⟩ := h.ProcessOrphans AcceptToMemoryPool tx pool fuel
    refine ⟨st', ?_, hst'⟩
    simp only [OrphanOp.Apply, hproc]
    rfl

theorem RunOrphans_ok (ops : List (OrphanOp σ)) (h : IndexOk st) :
    ∃ st', RunOrphans AcceptToMemoryPool ops st = .ok st' ∧ IndexOk st' :=
  ExceptRun.foldlM_invariant _ (fun _ st => IndexOk st) ops h
    fun _ op _ _ _ hst => OrphanOp.Apply_ok AcceptToMemoryPool hst op

end Deref

/-! ### The size bound of `LimitOrphanTxSize` -/

section Limit

/-- Erasing the hash of a stored orphan removes one orphan. -/
theorem EraseOrphanTx_size {st : OrphanState} {e : uint256 × COrphanTx}
    (he : e ∈ st.mapOrphanTransactions.toList) :
    (EraseOrphanTx st e.1).1.size + 1 = st.size := by
  have hfind : st.mapOrphanTransactions.find? e.1 = some e :=
    (KeyedSet.find?_eq_some_iff _ _ _).2 ⟨he, rfl⟩
  unfold EraseOrphanTx
  rw [hfind]
  exact KeyedSet.length_erase_add_one _ he

/-- In a nonempty pool the eviction finds an orphan, at the `lower_bound` or at `begin()`. -/
theorem exists_evicted (st : OrphanState) (hpos : 0 < st.size) (hash : uint256) :
    ∃ e, ((lowerBound st hash).orElse fun _ => st.mapOrphanTransactions.toList.head?) = some e ∧
      e ∈ st.mapOrphanTransactions.toList := by
  cases hlb : lowerBound st hash with
  | some e => exact ⟨e, rfl, List.mem_of_find?_eq_some hlb⟩
  | none =>
    cases hl : st.mapOrphanTransactions.toList with
    | nil =>
      rw [OrphanState.size, hl] at hpos
      exact absurd hpos (Nat.lt_irrefl 0)
    | cons e rest => exact ⟨e, rfl, List.mem_cons_self⟩

/-- With enough rounds, the eviction stops at `nMaxOrphans` orphans, or at the size it started
from if that is smaller, and counts the orphans it evicted. -/
theorem EvictOrphans_spec (nMaxOrphans : Nat) (GetRandHash : Nat → uint256) :
    ∀ fuel st nEvicted, st.size - nMaxOrphans ≤ fuel →
      (EvictOrphans nMaxOrphans GetRandHash fuel st nEvicted).1.size = min nMaxOrphans st.size ∧
      (EvictOrphans nMaxOrphans GetRandHash fuel st nEvicted).2 =
        nEvicted + (st.size - nMaxOrphans)
  | 0, st, nEvicted, hfuel => by
    simp only [EvictOrphans]
    omega
  | fuel + 1, st, nEvicted, hfuel => by
    by_cases hgt : st.size > nMaxOrphans
    · obtain ⟨⟨hash, orphan⟩, hsel, he⟩ := exists_evicted st (by omega) (GetRandHash nEvicted)
      have hsize : (EraseOrphanTx st hash).1.size + 1 = st.size := EraseOrphanTx_size he
      obtain ⟨hst, hcount⟩ := EvictOrphans_spec nMaxOrphans GetRandHash fuel
        (EraseOrphanTx st hash).1 (nEvicted + 1) (by omega)
      simp only [EvictOrphans, if_pos hgt, hsel]
      -- one orphan fewer, one more evicted
      rw [hst, hcount]
      omega
    · simp only [EvictOrphans, if_neg hgt]
      omega

theorem LimitOrphanTxSize_spec (st : OrphanState) (nMaxOrphans : Nat) (nNow : Int)
    (GetRandHash : Nat → uint256) :
    (LimitOrphanTxSize st nMaxOrphans nNow GetRandHash).1.size =
        min nMaxOrphans (ExpireOrphans st nNow).size ∧
      (LimitOrphanTxSize st nMaxOrphans nNow GetRandHash).2 =
        (ExpireOrphans st nNow).size - nMaxOrphans := by
  obtain ⟨hsize, hcount⟩ := EvictOrphans_spec nMaxOrphans GetRandHash
    (ExpireOrphans st nNow).size (ExpireOrphans st nNow) 0 (Nat.sub_le _ _)
  exact ⟨hsize, by rw [LimitOrphanTxSize, hcount, Nat.zero_add]⟩

end Limit

/-! ### The pool along every sequence of operations -/

theorem orphan_index_consistent {σ : Type}
    (AcceptToMemoryPool : σ → CTransaction → σ × AcceptResult) (ops : List (OrphanOp σ)) :
    ∃ st, RunOrphans AcceptToMemoryPool ops OrphanState.empty = .ok st ∧
      (∀ o, (∃ s, SetMap.get st.mapOrphanTransactionsByPrev o = some s) ↔
        ∃ hash, OrphanSpends st.mapOrphanTransactions hash o) ∧
      (∀ o s, SetMap.get st.mapOrphanTransactionsByPrev o = some s →
        s.Nodup ∧ ∀ hash, hash ∈ s ↔ OrphanSpends st.mapOrphanTransactions hash o) ∧
      ∀ nMaxOrphans nNow GetRandHash,
        (LimitOrphanTxSize st nMaxOrphans nNow GetRandHash).1.size =
            min nMaxOrphans (ExpireOrphans st nNow).size ∧
          (LimitOrphanTxSize st nMaxOrphans nNow GetRandHash).2 =
            (ExpireOrphans st nNow).size - nMaxOrphans := by
  obtain ⟨st, hrun, hok⟩ := RunOrphans_ok AcceptToMemoryPool ops IndexOk_empty
  refine ⟨st, hrun, fun o => ⟨?_, ?_⟩, fun o s hs => ?_,
    fun n nNow rand => LimitOrphanTxSize_spec st n nNow rand⟩
  · -- a set is nonempty, and its members spend the outpoint
    rintro ⟨s, hs⟩
    obtain ⟨hne, -, hmem⟩ := hok.byPrev.some_set o s hs
    obtain ⟨hash, hhash⟩ := List.exists_mem_of_ne_nil s hne
    exact ⟨hash, (hmem hash).1 hhash⟩
  · -- an outpoint without a set is spent by no orphan
    rintro ⟨hash, hspend⟩
    cases hs : SetMap.get st.mapOrphanTransactionsByPrev o with
    | none => exact absurd hspend (hok.byPrev.none_set o hs hash)
    | some s => exact ⟨s, rfl⟩
  · obtain ⟨-, hnd, hmem⟩ := hok.byPrev.some_set o s hs
    exact ⟨hnd, hmem⟩

end Ravencoin
