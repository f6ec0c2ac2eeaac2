import Ravencoin.Validation.Disconnect
import Ravencoin.Coins.StackRefinement
import Ravencoin.Lib.PartialMap
import Ravencoin.Lib.ExceptRun
import Mathlib.Algebra.Order.BigOperators.Group.List

/-!
# Disconnecting a block undoes connecting it

`ConnectBlock` applies a block to the coins view and returns the undo data of its
transactions: the coins their inputs spent. `DisconnectBlock` takes the block back with that
undo data, so that a reorganisation returns the chain state to the fork point. This module
proves that it does: from every coins view whose flags mean what they should, a block that
`ConnectBlock` accepts is taken back by `DisconnectBlock` to a view that shows exactly the coins
of the view before the block.

The argument runs on the map of unspent coins a view shows. Connecting a transaction erases the
coins of its inputs and inserts a coin for each spendable output (`ApplyTx`); disconnecting it
erases those outputs again and inserts the coins of the undo data, which `Lib/PartialMap.lean`
shows to undo both steps when the keys are distinct and the outputs were absent. Each loop of
the two functions refines one of these runs, and the transactions of a block form a chain of
such undos (`UndoChain`), taken in the reverse order by `DisconnectBlock`.

## Main definitions

* `CCoinsViewCache.Shows view M` — the view is a cache whose flags mean what they should over
  its base, and it shows the map `M`.
* `OutputCoins`, `ApplyTx`, `TxUndo` — what a transaction adds, its effect on the map, and its
  undo data.
* `Undoes`, `UndoChain` — disconnecting a transaction, or a list of them, maps the view of one
  map back to another.

## Main results

* `CCoinsViewCache.Shows.SpendCoin`, `CCoinsViewCache.Shows.AddCoin` — the cache's writes on
  the map.
* `SpendInputs_spec`, `AddOutputs_spec`, `SpendOutputs_spec`, `RestoreInputs_spec` — the loops.
* `ApplyTx_undoes` — disconnecting a transaction takes the map after `ApplyTx` back.
* `ConnectTransaction_undoes` — one transaction, connected and then disconnected.
* `ConnectTransactions_undoes`, `DisconnectTransactions_of_UndoChain` — the loops over a block.
* `DisconnectBlock_undoes_ConnectBlock` — the round trip over a whole block.

## Implementation notes

The source's own precondition for the round trip is BIP30, whose check is commented out of
`ConnectBlock`: no transaction of the block has the txid of a transaction with an unspent
output. With it go two facts of every chain state above the genesis block: every coin has a
positive height (`ApplyTxInUndo` reads a height of `0` as an undo record without one) and a
spendable script (`AddCoin` stores no other). With the assets deployed, the undo of the asset
state may report `DISCONNECT_FAILED` or throw (`Assets/CacheOps.lean` and `Validation/Chain.lean`
show where it goes wrong); the coins are then put back whenever it does not fail.
-/

set_option autoImplicit false

namespace Ravencoin

open PartialMap DisconnectResult

/-! ### A view as a map of coins -/

namespace CCoinsViewCache

/-- The view as a stack with one cache over its base. -/
def toStack (view : CCoinsViewCache) : CoinsCache.Stack := ⟨view.base, view.cacheCoins, []⟩

/-- The view stands for the map `M` of unspent coins: its flags mean what they should over its
base, which holds unspent coins only, and it shows `M`. -/
def Shows (view : CCoinsViewCache) (M : COutPoint → Option Coin) : Prop := view.toStack.Inv M

/-- A view whose flags mean what they should shows what its top cache shows. -/
theorem Shows_of_StackOk {view : CCoinsViewCache}
    (h : CoinsCache.StackOk view.base [view.cacheCoins]) :
    view.Shows (CoinsCache.View view.base [view.cacheCoins]) :=
  ⟨h, rfl⟩

/-- The view's `FetchCoin` is the one of its stack. -/
theorem FetchTop_toStack (view : CCoinsViewCache) (o : COutPoint) :
    view.toStack.FetchTop o =
      match view.FetchCoin o with
      | none => (none, view.toStack)
      | some (e, view') => (some e, view'.toStack) := by
  simp only [CoinsCache.Stack.FetchTop, toStack, CoinsCache.FetchCoin, CoinsCache.GetCoin,
    FetchCoin]
  cases view.cacheCoins.lookup o with
  | some e => rfl
  | none => cases view.base.lookup o <;> rfl

theorem AccessCoin_eq_toStack (view : CCoinsViewCache) (o : COutPoint) :
    view.AccessCoin o = (view.toStack.AccessCoin o).1 := by
  simp only [CoinsCache.Stack.AccessCoin, FetchTop_toStack, AccessCoin, FetchCoin]
  cases view.cacheCoins.lookup o with
  | some e => rfl
  | none => cases view.base.lookup o <;> rfl

/-- The view's `SpendCoin` is the one of its stack: the same view, the coin fetched, and without
the asset cache the same answer. -/
theorem SpendCoin_toStack (cfg : NodeConfig) (fAssets : Bool) (view : CCoinsViewCache)
    (o : COutPoint) (ctx : AssetsCtx) :
    (view.SpendCoin cfg fAssets o ctx).2.2.1.toStack = (view.toStack.SpendCoin o).2 ∧
      (view.SpendCoin cfg fAssets o ctx).2.1 =
        (view.toStack.FetchTop o).1.elim Coin.Empty (fun e => e.coin) ∧
      (view.SpendCoin cfg false o ctx).1 = (view.toStack.SpendCoin o).1 := by
  simp only [CCoinsViewCache.SpendCoin, CoinsCache.Stack.SpendCoin, FetchTop_toStack]
  cases view.FetchCoin o with
  | none => exact ⟨rfl, rfl, rfl⟩
  | some p =>
    obtain ⟨⟨coin, dirty, fresh⟩, view'⟩ := p
    cases fAssets <;> cases fresh <;> exact ⟨rfl, rfl, rfl⟩

section Shows

variable {view : CCoinsViewCache} {M : COutPoint → Option Coin}

theorem Shows.AccessCoin (h : view.Shows M) (o : COutPoint) :
    view.AccessCoin o = (M o).getD Coin.Empty := by
  rw [AccessCoin_eq_toStack]
  exact (CoinsCache.Stack.reads_spec h o).1

theorem Shows.unspent (h : view.Shows M) {o : COutPoint} {c : Coin} (hc : M o = some c) :
    c.IsSpent = false := by
  rw [← h.view] at hc
  exact CoinsCache.View_unspent h.ok hc

theorem Shows.HaveCoin (h : view.Shows M) (o : COutPoint) : view.HaveCoin o = (M o).isSome := by
  rw [CCoinsViewCache.HaveCoin, h.AccessCoin]
  cases hM : M o with
  | none => rfl
  | some c => simp [h.unspent hM]

/-- The coins a view shows are the map it stands for. -/
theorem Shows.utxo (h : view.Shows M) : view.utxo = M := by
  funext o
  rw [CCoinsViewCache.utxo, h.HaveCoin, h.AccessCoin]
  cases M o <;> rfl

/-- A view with no cache entries over a base of unspent coins shows its base. -/
theorem Shows_ofBase {base : CoinsMap} (hdb : ∀ o c, base.lookup o = some c → c.IsSpent = false) :
    (ofBase base).Shows base.lookup :=
  CoinsCache.Stack.Inv_ofBase hdb

/-- `SpendCoin` removes the coin from the map and moves out what the map held, and without the
asset cache it succeeds wherever the map holds a coin. -/
theorem Shows.SpendCoin (h : view.Shows M) (cfg : NodeConfig) (fAssets : Bool) (o : COutPoint)
    (ctx : AssetsCtx) :
    (view.SpendCoin cfg fAssets o ctx).2.2.1.Shows (Function.update M o none) ∧
      (view.SpendCoin cfg fAssets o ctx).2.1 = (M o).getD Coin.Empty ∧
      ((M o).isSome = true → fAssets = false → (view.SpendCoin cfg fAssets o ctx).1 = true) := by
  obtain ⟨hst, hcoin, hok⟩ := SpendCoin_toStack cfg fAssets view o ctx
  obtain ⟨hinv, -, hlookup, hget⟩ := CoinsCache.Stack.FetchTop_spec h o
  refine ⟨?_, ?_, fun hsome hfa => ?_⟩
  · show (view.SpendCoin cfg fAssets o ctx).2.2.1.toStack.Inv _
    rw [hst]
    exact CoinsCache.Stack.SpendCoin_spec h o
  · rw [hcoin, ← hget]
    cases hit : (view.toStack.FetchTop o).1 with
    | none => rfl
    | some e =>
      rw [hit] at hlookup
      cases hs : e.coin.IsSpent
      · simp [CoinsCache.UnspentCoin_of_unspent hs]
      · -- a spent entry holds the cleared coin
        simp only [Option.elim_some, Option.bind_some, CoinsCache.UnspentCoin_of_spent hs,
          Option.getD_none]
        exact (hinv.ok.1 o e hlookup).2.2 hs
  · subst hfa
    rw [hok]
    rcases hF : view.toStack.FetchTop o with ⟨_ | e, s'⟩
    · rw [hF] at hget
      rw [← hget] at hsome
      cases hsome
    · simp only [CoinsCache.Stack.SpendCoin, hF]

/-- `AddCoin` of an unspent coin, without `possible_overwrite` only where the map holds no coin,
succeeds and inserts the coin unless its script is unspendable. -/
theorem Shows.AddCoin (h : view.Shows M) {o : COutPoint} {coin : Coin}
    {possible_overwrite : Bool} (hcoin : coin.IsSpent = false)
    (hover : possible_overwrite = false → M o = none) :
    ∃ view', view.AddCoin o coin possible_overwrite = .ok view' ∧
      view'.Shows (if IsUnspendable coin.out.scriptPubKey then M
        else Function.update M o (some coin)) := by
  have hlayer : CoinsCache.LayerOk view.cacheCoins view.base.lookup := h.ok.1
  have hdb : ∀ o c, view.base.lookup o = some c → c.IsSpent = false := h.ok.2
  have htop : CoinsCache.CacheView view.cacheCoins view.base.lookup = M := h.view
  obtain ⟨view', hadd, hbase, hok, hview⟩ :=
    CoinsCache.AddCoin_layer_spec view.base hlayer hcoin (htop.symm ▸ hover)
  refine ⟨view', hadd, ⟨⟨?_, ?_⟩, ?_⟩⟩
  · show CoinsCache.LayerOk view'.cacheCoins view'.base.lookup
    rw [hbase]
    exact hok
  · show ∀ o c, view'.base.lookup o = some c → c.IsSpent = false
    rw [hbase]
    exact hdb
  · show CoinsCache.CacheView view'.cacheCoins view'.base.lookup = _
    rw [hbase, hview, htop]

/-- An `AddCoin` that succeeds was given an unspent coin, and inserts it as `Shows.AddCoin`
says. -/
theorem Shows.AddCoin_of_ok (h : view.Shows M) {o : COutPoint} {coin : Coin}
    {possible_overwrite : Bool} {view' : CCoinsViewCache}
    (hover : possible_overwrite = false → M o = none)
    (hadd : view.AddCoin o coin possible_overwrite = .ok view') :
    coin.IsSpent = false ∧ view'.Shows (if IsUnspendable coin.out.scriptPubKey then M
      else Function.update M o (some coin)) := by
  cases hcoin : coin.IsSpent
  · obtain ⟨view'', hadd', hshows⟩ := h.AddCoin hcoin hover
    rw [hadd] at hadd'
    cases hadd'
    exact ⟨rfl, hshows⟩
  · simp [CCoinsViewCache.AddCoin, hcoin] at hadd

end Shows

end CCoinsViewCache

/-! ### What a transaction does to the map of coins -/

/-- The coins the outputs from index `i` on make: each spendable output at its outpoint, with
the transaction's coinbase flag and the block's height. -/
def OutputCoins (hash : uint256) (fCoinBase : Bool) (nHeight : Nat) :
    Nat → List CTxOut → List (COutPoint × Coin)
  | _, [] => []
  | i, out :: rest =>
    if IsUnspendable out.scriptPubKey then OutputCoins hash fCoinBase nHeight (i + 1) rest
    else (⟨hash, i.toUInt32⟩, ⟨out, fCoinBase, nHeight⟩) ::
      OutputCoins hash fCoinBase nHeight (i + 1) rest

/-- Connecting a transaction, on the map of coins: the coins of its inputs are erased, unless
it is a coinbase, and the coins of its outputs inserted. -/
def ApplyTx (M : COutPoint → Option Coin) (tx : CTransaction) (nHeight : Nat) :
    COutPoint → Option Coin :=
  insertAll (if tx.IsCoinBase then M else eraseAll M (tx.vin.map (·.prevout)))
    (OutputCoins tx.GetHash tx.IsCoinBase nHeight 0 tx.vout)

/-- The undo data of a transaction: the coins its inputs spend. -/
def TxUndo (M : COutPoint → Option Coin) (tx : CTransaction) : List Coin :=
  tx.vin.map fun txin => (M txin.prevout).getD Coin.Empty

theorem toUInt32_inj_of_lt {i j : Nat} (hi : i < UInt32.size) (hj : j < UInt32.size)
    (h : i.toUInt32 = j.toUInt32) : i = j := by
  have hnat := congrArg UInt32.toNat h
  simp only [Nat.toUInt32, UInt32.toNat_ofNat'] at hnat
  unfold UInt32.size at hi hj
  omega

section OutputCoins

variable {hash : uint256} {fCoinBase : Bool} {nHeight : Nat}

/-- Every coin of `OutputCoins` is a spendable output at an index of the loop, with the given
flag and height. -/
theorem mem_OutputCoins :
    ∀ {i : Nat} {rest : List CTxOut} {p : COutPoint × Coin},
      p ∈ OutputCoins hash fCoinBase nHeight i rest →
      ∃ j out, i ≤ j ∧ j < i + rest.length ∧ p = (⟨hash, j.toUInt32⟩, ⟨out, fCoinBase, nHeight⟩) ∧
        IsUnspendable out.scriptPubKey = false
  | _, [], _, hp => by cases hp
  | i, out :: rest, p, hp => by
    unfold OutputCoins at hp
    split at hp
    · obtain ⟨j, out', hij, hj, rfl, hsp⟩ := mem_OutputCoins hp
      exact ⟨j, out', by omega, by simp only [List.length_cons]; omega, rfl, hsp⟩
    · next hsp =>
      rcases List.mem_cons.1 hp with rfl | hp
      · exact ⟨i, out, le_refl i, by simp, rfl, by simpa using hsp⟩
      · obtain ⟨j, out', hij, hj, rfl, hsp'⟩ := mem_OutputCoins hp
        exact ⟨j, out', by omega, by simp only [List.length_cons]; omega, rfl, hsp'⟩

/-- The outpoints of `OutputCoins` are distinct while the indexes stay below `2 ^ 32`. -/
theorem OutputCoins_keys_nodup :
    ∀ {i : Nat} {rest : List CTxOut}, i + rest.length ≤ UInt32.size →
      ((OutputCoins hash fCoinBase nHeight i rest).map Prod.fst).Nodup
  | _, [], _ => List.nodup_nil
  | i, out :: rest, hlen => by
    simp only [List.length_cons] at hlen
    have htail : ((OutputCoins hash fCoinBase nHeight (i + 1) rest).map Prod.fst).Nodup :=
      OutputCoins_keys_nodup (by omega)
    unfold OutputCoins
    split
    · exact htail
    · rw [List.map_cons, List.nodup_cons]
      refine ⟨fun hmem => ?_, htail⟩
      -- a later output sits at a later index, so at another outpoint
      obtain ⟨p, hp, hkey⟩ := List.mem_map.1 hmem
      obtain ⟨j, out', hij, hj, rfl, -⟩ := mem_OutputCoins hp
      have hji : j.toUInt32 = i.toUInt32 := congrArg COutPoint.n hkey
      have := toUInt32_inj_of_lt (by omega) (by omega) hji
      omega

end OutputCoins

/-! ### The loops of `UpdateCoins` and `DisconnectBlock` on the map -/

section Loops

variable (cfg : NodeConfig)

/-- The input loop of `UpdateCoins` erases the coins of the inputs from the map and records
them, when the inputs spend distinct outpoints. The induction is on the inputs, with the map the
current view shows. -/
theorem SpendInputs_spec (fAssets : Bool) :
    ∀ (vin : List CTxIn) (view : CCoinsViewCache) (ctx : AssetsCtx) (acc : List Coin)
      (M : COutPoint → Option Coin) {view' : CCoinsViewCache} {ctx' : AssetsCtx}
      {undo : List Coin},
      view.Shows M → (vin.map (·.prevout)).Nodup →
      SpendInputs cfg fAssets vin view ctx acc = .ok (view', ctx', undo) →
      view'.Shows (eraseAll M (vin.map (·.prevout))) ∧
        undo = acc ++ vin.map fun txin => (M txin.prevout).getD Coin.Empty
  | [], view, ctx, acc, M, view', ctx', undo, h, _, hrun => by
    simp only [SpendInputs, Except.ok.injEq, Prod.mk.injEq] at hrun
    obtain ⟨rfl, -, rfl⟩ := hrun
    exact ⟨h, by simp⟩
  | txin :: rest, view, ctx, acc, M, view', ctx', undo, h, hnd, hrun => by
    rw [List.map_cons, List.nodup_cons] at hnd
    obtain ⟨hshows, hcoin, -⟩ := h.SpendCoin cfg fAssets txin.prevout ctx
    rcases hsc : view.SpendCoin cfg fAssets txin.prevout ctx with ⟨is_spent, coin, view₁, ctx₁⟩
    rw [hsc] at hshows hcoin
    dsimp only at hshows hcoin
    simp only [SpendInputs, hsc] at hrun
    split at hrun
    · cases hrun
    · obtain ⟨hview, hundo⟩ := SpendInputs_spec fAssets rest view₁ ctx₁ _ _ hshows hnd.2 hrun
      refine ⟨hview, ?_⟩
      -- the later inputs read the map at other outpoints
      have hrest : (rest.map fun t => (Function.update M txin.prevout none t.prevout).getD
          Coin.Empty) = rest.map fun t => (M t.prevout).getD Coin.Empty := by
        refine List.map_congr_left fun t ht => ?_
        have hne : t.prevout ≠ txin.prevout := fun heq =>
          hnd.1 (heq ▸ List.mem_map_of_mem ht)
        rw [Function.update_of_ne hne]
      rw [hundo, hrest, hcoin]
      simp

/-- The output loop of `AddCoins`, without the check for an existing coin, inserts the coins of
the outputs into the map, where the map holds no coin at their outpoints. -/
theorem AddOutputs_spec (fAssets : Bool) (tx : CTransaction) (nHeight : Nat) :
    ∀ (rest : List CTxOut) (i : Nat) (view : CCoinsViewCache) (ctx : AssetsCtx)
      (M : COutPoint → Option Coin) {view' : CCoinsViewCache} {ctx' : AssetsCtx},
      view.Shows M → i + rest.length ≤ UInt32.size →
      (∀ j, i ≤ j → j < i + rest.length → M ⟨tx.GetHash, j.toUInt32⟩ = none) →
      AddOutputs cfg fAssets tx nHeight false i rest view ctx = .ok (view', ctx') →
      view'.Shows (insertAll M (OutputCoins tx.GetHash tx.IsCoinBase nHeight i rest))
  | [], _, view, ctx, M, view', ctx', h, _, _, hrun => by
    simp only [AddOutputs, Except.ok.injEq, Prod.mk.injEq] at hrun
    obtain ⟨rfl, -⟩ := hrun
    exact h
  | out :: rest, i, view, ctx, M, view', ctx', h, hlen, hfree, hrun => by
    simp only [List.length_cons] at hlen hfree
    simp only [AddOutputs, Bool.false_eq_true, if_false] at hrun
    obtain ⟨view₁, hadd, hrest⟩ := ExceptRun.bind_eq_ok.1 hrun
    have hnone : M ⟨tx.GetHash, i.toUInt32⟩ = none := hfree i (le_refl i) (by omega)
    obtain ⟨-, hshows⟩ := h.AddCoin_of_ok (fun _ => hnone) hadd
    -- the later outputs sit at later indexes, where the map still holds nothing
    have hfree' : ∀ M' : COutPoint → Option Coin,
        (∀ j, i < j → j < i + 1 + rest.length →
          M' ⟨tx.GetHash, j.toUInt32⟩ = M ⟨tx.GetHash, j.toUInt32⟩) →
        ∀ j, i + 1 ≤ j → j < i + 1 + rest.length → M' ⟨tx.GetHash, j.toUInt32⟩ = none := by
      intro M' hM' j hij hj
      rw [hM' j (by omega) hj]
      exact hfree j (by omega) (by omega)
    unfold OutputCoins
    split
    · next hsp =>
      rw [if_pos hsp] at hshows
      exact AddOutputs_spec fAssets tx nHeight rest (i + 1) view₁ _ M hshows (by omega)
        (hfree' M fun _ _ _ => rfl) hrest
    · next hsp =>
      rw [if_neg hsp] at hshows
      refine AddOutputs_spec fAssets tx nHeight rest (i + 1) view₁ _ _ hshows (by omega)
        (hfree' _ fun j hij hj => Function.update_of_ne (fun heq => ?_) _ _) hrest
      have := toUInt32_inj_of_lt (by omega) (by omega) (congrArg COutPoint.n heq)
      omega

variable (env : NodeGlobals)

theorem ite_OK_UNCLEAN_ne_FAILED (c : Prop) [Decidable c] :
    (if c then DISCONNECT_OK else DISCONNECT_UNCLEAN) ≠ DISCONNECT_FAILED := by
  split <;> decide

/-- The output loop of `DisconnectBlock` erases the coins of the outputs from the map, where
the map holds exactly those coins, and without the asset cache it finds each of them as the
block created it. -/
theorem SpendOutputs_spec (tx : CTransaction) (nHeight : Nat) :
    ∀ (rest : List CTxOut) (o : Nat) (view : CCoinsViewCache) (temp : AssetsCtx) (fClean : Bool)
      (vAssetTxIndex : List Nat) (M : COutPoint → Option Coin),
      view.Shows M →
      ((OutputCoins tx.GetHash tx.IsCoinBase nHeight o rest).map Prod.fst).Nodup →
      (∀ p ∈ OutputCoins tx.GetHash tx.IsCoinBase nHeight o rest, M p.1 = some p.2) →
      (SpendOutputs cfg env tx nHeight o rest view temp fClean vAssetTxIndex).2.1.Shows
          (eraseAll M ((OutputCoins tx.GetHash tx.IsCoinBase nHeight o rest).map Prod.fst)) ∧
        (env.fAssetsDeployed = false →
          (SpendOutputs cfg env tx nHeight o rest view temp fClean vAssetTxIndex).1 = fClean)
  | [], _, view, _, _, _, _, h, _, _ => ⟨h, fun _ => rfl⟩
  | out :: rest, o, view, temp, fClean, vAssetTxIndex, M, h, hnd, hM => by
    unfold OutputCoins at hnd hM ⊢
    simp only [SpendOutputs]
    split
    · next hsp =>
      rw [if_pos hsp] at hnd hM
      exact SpendOutputs_spec tx nHeight rest (o + 1) view temp fClean _ M h hnd hM
    · next hsp =>
      rw [if_neg hsp] at hnd hM
      rw [List.map_cons, List.nodup_cons] at hnd
      set k : COutPoint := ⟨tx.GetHash, o.toUInt32⟩
      have hk : M k = some ⟨out, tx.IsCoinBase, nHeight⟩ := hM _ List.mem_cons_self
      obtain ⟨hshows, hcoin, hspent⟩ := h.SpendCoin cfg env.fAssetsDeployed k temp
      rw [hk, Option.getD_some] at hcoin
      -- the later outputs are at other outpoints, where the spend changed nothing
      have hM' : ∀ p ∈ OutputCoins tx.GetHash tx.IsCoinBase nHeight (o + 1) rest,
          Function.update M k none p.1 = some p.2 := fun p hp => by
        have hne : p.1 ≠ k := fun heq => hnd.1 (List.mem_map.2 ⟨p, hp, heq⟩)
        rw [Function.update_of_ne hne]
        exact hM p (List.mem_cons_of_mem _ hp)
      obtain ⟨hview, hclean⟩ :=
        SpendOutputs_spec tx nHeight rest (o + 1) _ _ _ _ _ hshows hnd.2 hM'
      refine ⟨hview, fun hfa => ?_⟩
      rw [hclean hfa, hspent (by rw [hk]; rfl) hfa, hcoin]
      simp

/-- `ApplyTxInUndo` of a coin with a height and a spendable script, at an outpoint where the map
holds no coin, inserts it, and reports `DISCONNECT_OK` without the asset cache. -/
theorem ApplyTxInUndo_spec {view : CCoinsViewCache} {M : COutPoint → Option Coin}
    (h : view.Shows M) {undo : Coin} {out : COutPoint} (ctx : AssetsCtx) (hout : M out = none)
    (hcoin : undo.IsSpent = false) (hheight : 0 < undo.nHeight)
    (hsp : IsUnspendable undo.out.scriptPubKey = false) :
    ∃ res view' ctx', ApplyTxInUndo cfg env undo view out ctx = .ok (res, view', ctx') ∧
      view'.Shows (Function.update M out (some undo)) ∧ res ≠ DISCONNECT_FAILED ∧
      (env.fAssetsDeployed = false → res = DISCONNECT_OK) := by
  obtain ⟨view', hadd, hshows⟩ := h.AddCoin hcoin (fun _ : false = false => hout)
  rw [hsp, if_neg Bool.false_ne_true] at hshows
  have hhave : view.HaveCoin out = false := by rw [h.HaveCoin, hout]; rfl
  have hne : undo.nHeight ≠ 0 := Nat.pos_iff_ne_zero.1 hheight
  simp only [ApplyTxInUndo, hhave, Bool.not_false, hne, if_false, Bool.not_true, hadd]
  refine ⟨_, view', _, rfl, hshows, ite_OK_UNCLEAN_ne_FAILED _, fun hfa => ?_⟩
  simp [hfa]

/-- The restore loop of `DisconnectBlock` inserts the coins of the undo data, at distinct
outpoints where the map holds none, and never fails. -/
theorem RestoreInputs_spec :
    ∀ (l : List (CTxIn × Coin)) (view : CCoinsViewCache) (ctx : AssetsCtx) (fClean : Bool)
      (M : COutPoint → Option Coin),
      view.Shows M → (l.map (·.1.prevout)).Nodup →
      (∀ p ∈ l, M p.1.prevout = none ∧ p.2.IsSpent = false ∧ 0 < p.2.nHeight ∧
        IsUnspendable p.2.out.scriptPubKey = false) →
      ∃ res view' ctx', RestoreInputs cfg env l view ctx fClean = .ok (res, view', ctx') ∧
        view'.Shows (insertAll M (l.map fun p => (p.1.prevout, p.2))) ∧
        res ≠ DISCONNECT_FAILED ∧
        (env.fAssetsDeployed = false → res = if fClean then DISCONNECT_OK else DISCONNECT_UNCLEAN)
  | [], view, ctx, fClean, M, h, _, _ =>
    ⟨_, view, ctx, rfl, h, ite_OK_UNCLEAN_ne_FAILED _, fun _ => rfl⟩
  | (txin, undo) :: rest, view, ctx, fClean, M, h, hnd, hl => by
    rw [List.map_cons, List.nodup_cons] at hnd
    obtain ⟨hout, hcoin, hheight, hsp⟩ := hl _ List.mem_cons_self
    obtain ⟨res, view₁, ctx₁, happly, hshows, hres, hok⟩ :=
      ApplyTxInUndo_spec cfg env h ctx hout hcoin hheight hsp
    -- the later inputs restore other outpoints, still empty in the map
    have hl' : ∀ p ∈ rest, Function.update M txin.prevout (some undo) p.1.prevout = none ∧
        p.2.IsSpent = false ∧ 0 < p.2.nHeight ∧ IsUnspendable p.2.out.scriptPubKey = false :=
      fun p hp => by
        have hne : p.1.prevout ≠ txin.prevout := fun heq => hnd.1 (List.mem_map.2 ⟨p, hp, heq⟩)
        rw [Function.update_of_ne hne]
        exact hl p (List.mem_cons_of_mem _ hp)
    obtain ⟨res', view', ctx', hrest, hshows', hres', hok'⟩ :=
      RestoreInputs_spec rest view₁ ctx₁ (fClean && res != DISCONNECT_UNCLEAN) _ hshows hnd.2 hl'
    have hrun : RestoreInputs cfg env ((txin, undo) :: rest) view ctx fClean =
        RestoreInputs cfg env rest view₁ ctx₁ (fClean && res != DISCONNECT_UNCLEAN) := by
      cases res with
      | DISCONNECT_FAILED => exact absurd rfl hres
      | DISCONNECT_OK => simp only [RestoreInputs, happly]
      | DISCONNECT_UNCLEAN => simp only [RestoreInputs, happly]
    refine ⟨res', view', ctx', hrun.trans hrest, hshows', hres', fun hfa => ?_⟩
    rw [hok' hfa, hok hfa]
    cases fClean <;> rfl

end Loops

/-! ### One transaction, connected and then disconnected -/

/-- Every coin of the map is unspent, at a positive height and with a spendable script, as are
the coins of every chain state above the genesis block. -/
def CoinsOk (M : COutPoint → Option Coin) : Prop :=
  ∀ o c, M o = some c → c.IsSpent = false ∧ 0 < c.nHeight ∧ IsUnspendable c.out.scriptPubKey = false

theorem zip_TxUndo (M : COutPoint → Option Coin) (tx : CTransaction) :
    tx.vin.zip (TxUndo M tx) = tx.vin.map fun txin => (txin, (M txin.prevout).getD Coin.Empty) :=
  List.map_prod_left_eq_zip.symm

section Undoes

variable (cfg : NodeConfig) (env : NodeGlobals)

/-- Disconnecting `tx` with the undo data `txundo` takes every view of the map `M'` back to a
view of `M`, whatever the asset undo data and the asset caches: it puts the coins back whenever
it does not report a failure, and without the assets deployed it succeeds and reports the
cleanliness it was given. -/
def Undoes (nHeight : Nat) (M' M : COutPoint → Option Coin) (tx : CTransaction)
    (txundo : Option (List Coin)) : Prop :=
  ∀ (vUndoData : List AssetUndo) (view : CCoinsViewCache) (ctx : AssetsCtx) (temp : CAssetsCache)
    (fClean : Bool), view.Shows M' →
    (∀ r, DisconnectTransaction cfg env nHeight vUndoData tx txundo view ctx temp fClean = .ok r →
      r.1 ≠ DISCONNECT_FAILED → r.2.1.Shows M) ∧
    (env.fAssetsDeployed = false → ∃ view' ctx' temp',
      DisconnectTransaction cfg env nHeight vUndoData tx txundo view ctx temp fClean =
        .ok (if fClean then DISCONNECT_OK else DISCONNECT_UNCLEAN, view', ctx', temp') ∧
      view'.Shows M)

/-- The restore loop of a transaction's undo puts back the coins its inputs spent. -/
theorem RestoreInputs_TxUndo {M : COutPoint → Option Coin} (hok : CoinsOk M) {tx : CTransaction}
    (hnd : (tx.vin.map (·.prevout)).Nodup) (hin : ∀ txin ∈ tx.vin, (M txin.prevout).isSome)
    {view : CCoinsViewCache} (h : view.Shows (eraseAll M (tx.vin.map (·.prevout))))
    (ctx : AssetsCtx) (fClean : Bool) :
    ∃ res view' ctx', RestoreInputs cfg env (tx.vin.zip (TxUndo M tx)).reverse view ctx fClean =
        .ok (res, view', ctx') ∧ view'.Shows M ∧ res ≠ DISCONNECT_FAILED ∧
      (env.fAssetsDeployed = false → res = if fClean then DISCONNECT_OK else DISCONNECT_UNCLEAN) := by
  set l := (tx.vin.zip (TxUndo M tx)).reverse with hl
  have hl' : l = (tx.vin.map fun txin => (txin, (M txin.prevout).getD Coin.Empty)).reverse := by
    rw [hl, zip_TxUndo]
  -- the pairs of `l` are the inputs with the coins the map held
  have hmem : ∀ p ∈ l, p.1 ∈ tx.vin ∧ M p.1.prevout = some p.2 := fun p hp => by
    rw [hl', List.mem_reverse, List.mem_map] at hp
    obtain ⟨txin, htxin, rfl⟩ := hp
    obtain ⟨c, hc⟩ := Option.isSome_iff_exists.1 (hin txin htxin)
    exact ⟨htxin, by rw [hc, Option.getD_some]⟩
  have hkeys : l.map (·.1.prevout) = (tx.vin.map (·.prevout)).reverse := by
    rw [hl', List.map_reverse, List.map_map]
    rfl
  have hnd' : (l.map (·.1.prevout)).Nodup := by
    rw [hkeys]
    exact List.nodup_reverse.2 hnd
  obtain ⟨res, view', ctx', hrun, hshows, hres, hclean⟩ :=
    RestoreInputs_spec cfg env l view ctx fClean _ h hnd' fun p hp => by
      obtain ⟨htxin, hM⟩ := hmem p hp
      exact ⟨eraseAll_apply_of_mem _ (List.mem_map_of_mem htxin), hok _ _ hM⟩
  refine ⟨res, view', ctx', hrun, ?_, hres, hclean⟩
  -- erasing the inputs in either order, then inserting their coins, gives `M` back
  set L := l.map fun p => (p.1.prevout, p.2)
  have hLkeys : L.map Prod.fst = l.map (·.1.prevout) := by simp [L]
  have hM : ∀ q ∈ L, M q.1 = some q.2 := fun q hq => by
    obtain ⟨p, hp, rfl⟩ := List.mem_map.1 hq
    exact (hmem p hp).2
  have herase : eraseAll M (tx.vin.map (·.prevout)) = eraseAll M (L.map Prod.fst) :=
    eraseAll_congr M fun k => by rw [hLkeys, hkeys, List.mem_reverse]
  rw [herase, insertAll_eraseAll M (hLkeys ▸ hnd') hM] at hshows
  exact hshows

/-- Disconnecting a transaction with the undo data connecting it recorded takes the map after it
back to the map before it, where the map held no coin of its txid (BIP30), its inputs spend
distinct coins of the map, and its outputs have indexes below `2 ^ 32`. The outputs are erased
(`SpendOutputs_spec`) and the spent coins inserted again (`RestoreInputs_TxUndo`). -/
theorem ApplyTx_undoes {M : COutPoint → Option Coin} (hok : CoinsOk M) {tx : CTransaction}
    (nHeight : Nat) (hfree : ∀ n, M ⟨tx.GetHash, n⟩ = none)
    (hnd : tx.IsCoinBase = false → (tx.vin.map (·.prevout)).Nodup)
    (hin : tx.IsCoinBase = false → ∀ txin ∈ tx.vin, (M txin.prevout).isSome)
    (hlen : tx.vout.length ≤ UInt32.size) :
    Undoes cfg env nHeight (ApplyTx M tx nHeight) M tx
      (if tx.IsCoinBase then none else some (TxUndo M tx)) := by
  intro vUndoData view ctx temp fClean hview
  set M₁ := if tx.IsCoinBase then M else eraseAll M (tx.vin.map (·.prevout)) with hM₁
  set outs := OutputCoins tx.GetHash tx.IsCoinBase nHeight 0 tx.vout
  have houts : (outs.map Prod.fst).Nodup := OutputCoins_keys_nodup (by simpa using hlen)
  -- the outputs go where the map held nothing
  have hfree₁ : ∀ p ∈ outs, M₁ p.1 = none := fun p hp => by
    obtain ⟨j, out, -, -, rfl, -⟩ := mem_OutputCoins hp
    rw [hM₁]
    split
    · exact hfree _
    · by_cases hk : (⟨tx.GetHash, j.toUInt32⟩ : COutPoint) ∈ tx.vin.map (·.prevout)
      · exact eraseAll_apply_of_mem M hk
      · rw [eraseAll_apply_of_not_mem M hk]
        exact hfree _
  have hview' : view.Shows (insertAll M₁ outs) := hview
  obtain ⟨hspent, hclean⟩ := SpendOutputs_spec cfg env tx nHeight tx.vout 0 view ⟨temp, ctx.g⟩
    fClean [] _ hview' houts fun p hp => insertAll_apply_of_mem M₁ houts hp
  rw [eraseAll_insertAll M₁ hfree₁] at hspent
  rcases hso : SpendOutputs cfg env tx nHeight 0 tx.vout view ⟨temp, ctx.g⟩ fClean [] with
    ⟨fClean₁, view₁, tempCtx, vAssetTxIndex⟩
  rw [hso] at hspent hclean
  dsimp only at hspent hclean
  cases hcb : tx.IsCoinBase with
  | true =>
    -- a coinbase has no undo data: the outputs were all it did
    rw [hM₁, hcb, if_pos rfl] at hspent
    rw [if_pos rfl]
    constructor
    · intro r hr hres
      simp only [DisconnectTransaction, hso] at hr
      obtain ⟨ctx?, -, hr⟩ := ExceptRun.ite_bind_eq_ok hr
      cases ctx? with
      | none => cases hr; exact absurd rfl hres
      | some ctx₁ => cases hr; exact hspent
    · intro hfa
      refine ⟨view₁, { ctx with g := tempCtx.g }, tempCtx.self, ?_, hspent⟩
      simp only [DisconnectTransaction, hso, hfa, hclean hfa, Bool.false_eq_true, if_false,
        pure_bind]
      rfl
  | false =>
    rw [hM₁, hcb, if_neg Bool.false_ne_true] at hspent
    rw [if_neg Bool.false_ne_true]
    have hlen' : (TxUndo M tx).length = tx.vin.length := List.length_map _
    constructor
    · intro r hr hres
      simp only [DisconnectTransaction, hso] at hr
      obtain ⟨ctx?, -, hr⟩ := ExceptRun.ite_bind_eq_ok hr
      cases ctx? with
      | none => cases hr; exact absurd rfl hres
      | some ctx₁ =>
        simp only [hlen', ne_eq, not_true_eq_false, if_false] at hr
        obtain ⟨res, view', ctx', hrun, hshows, -, -⟩ :=
          RestoreInputs_TxUndo cfg env hok (hnd hcb) (hin hcb) hspent ctx₁ fClean₁
        rw [hrun] at hr
        cases hr
        exact hshows
    · intro hfa
      obtain ⟨res, view', ctx', hrun, hshows, -, hres⟩ :=
        RestoreInputs_TxUndo cfg env hok (hnd hcb) (hin hcb) hspent { ctx with g := tempCtx.g }
          fClean₁
      rw [hclean hfa] at hrun hres
      refine ⟨view', ctx', tempCtx.self, ?_, hshows⟩
      simp only [DisconnectTransaction, hso, hfa, hlen', Bool.false_eq_true, if_false, pure_bind,
        ne_eq, not_true_eq_false, hclean hfa, hrun, hres hfa]
      rfl

/-- Disconnecting the transactions of `l` with their undo data, first to last, takes the map
`M'` back to `M`, one transaction at a time. -/
def UndoChain (nHeight : Nat) :
    (COutPoint → Option Coin) → (COutPoint → Option Coin) →
      List (CTransaction × Option (List Coin)) → Prop
  | M', M, [] => M' = M
  | M', M, (tx, txundo) :: rest =>
    ∃ M₁, Undoes cfg env nHeight M' M₁ tx txundo ∧ UndoChain nHeight M₁ M rest

theorem UndoChain.append {nHeight : Nat} :
    ∀ {l₁ l₂ : List (CTransaction × Option (List Coin))} {M₂ M₁ M₀ : COutPoint → Option Coin},
      UndoChain cfg env nHeight M₂ M₁ l₁ → UndoChain cfg env nHeight M₁ M₀ l₂ →
      UndoChain cfg env nHeight M₂ M₀ (l₁ ++ l₂)
  | [], _, _, _, _, h₁, h₂ => by
    cases h₁
    exact h₂
  | (_, _) :: _, _, _, _, _, ⟨M, hund, h₁⟩, h₂ => ⟨M, hund, UndoChain.append h₁ h₂⟩

/-- The transaction loop of `DisconnectBlock` along a chain of undos takes a view of the first
map to a view of the last one whenever it reports no failure, and without the assets deployed
it succeeds and reports the cleanliness it was given. The induction is on the chain. -/
theorem DisconnectTransactions_of_UndoChain (nHeight : Nat) (vUndoData : List AssetUndo) :
    ∀ (l : List (CTransaction × Option (List Coin))) (M' M : COutPoint → Option Coin),
      UndoChain cfg env nHeight M' M l →
      ∀ (view : CCoinsViewCache) (ctx : AssetsCtx) (temp : CAssetsCache) (fClean : Bool),
        view.Shows M' →
        (∀ r, DisconnectTransactions cfg env nHeight vUndoData l view ctx temp fClean = .ok r →
          r.1 ≠ DISCONNECT_FAILED → r.2.1.Shows M) ∧
        (env.fAssetsDeployed = false → ∃ view' ctx',
          DisconnectTransactions cfg env nHeight vUndoData l view ctx temp fClean =
            .ok (if fClean then DISCONNECT_OK else DISCONNECT_UNCLEAN, view', ctx') ∧
          view'.Shows M)
  | [], M', M, hchain, view, ctx, _, fClean, h => by
    cases hchain
    refine ⟨fun r hr _ => ?_, fun _ => ⟨view, ctx, rfl, h⟩⟩
    cases hr
    exact h
  | (tx, txundo) :: rest, M', M, ⟨M₁, hund, hchain⟩, view, ctx, temp, fClean, h => by
    obtain ⟨hpart, htot⟩ := hund vUndoData view ctx temp fClean h
    refine ⟨fun r hr hres => ?_, fun hfa => ?_⟩
    · simp only [DisconnectTransactions] at hr
      obtain ⟨⟨res, view₁, ctx₁, temp₁⟩, htx, hr⟩ := ExceptRun.bind_eq_ok.1 hr
      -- a failure stops the loop; otherwise the rest of the chain continues from `M₁`
      cases res with
      | DISCONNECT_FAILED => cases hr; exact absurd rfl hres
      | DISCONNECT_OK =>
        exact (DisconnectTransactions_of_UndoChain nHeight vUndoData rest M₁ M hchain view₁ ctx₁
          temp₁ true (hpart _ htx DisconnectResult.noConfusion)).1 r hr hres
      | DISCONNECT_UNCLEAN =>
        exact (DisconnectTransactions_of_UndoChain nHeight vUndoData rest M₁ M hchain view₁ ctx₁
          temp₁ false (hpart _ htx DisconnectResult.noConfusion)).1 r hr hres
    · obtain ⟨view₁, ctx₁, temp₁, htx, h₁⟩ := htot hfa
      obtain ⟨view', ctx', hrest, h'⟩ :=
        (DisconnectTransactions_of_UndoChain nHeight vUndoData rest M₁ M hchain view₁ ctx₁ temp₁
          fClean h₁).2 hfa
      refine ⟨view', ctx', ?_, h'⟩
      simp only [DisconnectTransactions, htx]
      cases fClean <;> exact hrest

end Undoes

/-! ### Connecting a transaction on the map -/

section Connect

variable (cfg : NodeConfig) (params : ConsensusParams) (env : NodeGlobals)

/-- Outside its own txid, a transaction changes the map only by spending. -/
theorem ApplyTx_apply_of_hash_ne (M : COutPoint → Option Coin) (tx : CTransaction)
    (nHeight : Nat) {o : COutPoint} (hne : o.hash ≠ tx.GetHash) :
    ApplyTx M tx nHeight o = (if tx.IsCoinBase then M else eraseAll M (tx.vin.map (·.prevout))) o :=
  insertAll_apply_of_not_mem _ fun hmem => by
    obtain ⟨p, hp, rfl⟩ := List.mem_map.1 hmem
    obtain ⟨j, out, -, -, rfl, -⟩ := mem_OutputCoins hp
    exact hne rfl

/-- A transaction leaves the map without a coin wherever it held none, outside its own txid. -/
theorem ApplyTx_eq_none {M : COutPoint → Option Coin} {tx : CTransaction} {nHeight : Nat}
    {o : COutPoint} (hne : o.hash ≠ tx.GetHash) (hM : M o = none) : ApplyTx M tx nHeight o = none := by
  rw [ApplyTx_apply_of_hash_ne M tx nHeight hne]
  split
  · exact hM
  · by_cases hk : o ∈ tx.vin.map (·.prevout)
    · exact eraseAll_apply_of_mem M hk
    · rwa [eraseAll_apply_of_not_mem M hk]

/-- The coins a transaction adds are at the block's height with spendable scripts, so a map of
such coins stays one. -/
theorem CoinsOk.ApplyTx {M : COutPoint → Option Coin} (hok : CoinsOk M) {tx : CTransaction}
    {nHeight : Nat} (hh : 0 < nHeight) {view : CCoinsViewCache}
    (hview : view.Shows (ApplyTx M tx nHeight)) : CoinsOk (ApplyTx M tx nHeight) := by
  intro o c hc
  refine ⟨hview.unspent hc, ?_⟩
  rcases mem_or_eq_of_insertAll_apply_eq_some hc with hmem | hM₁
  · obtain ⟨j, out, -, -, heq, hsp⟩ := mem_OutputCoins hmem
    rw [Prod.mk.injEq] at heq
    rw [heq.2]
    exact ⟨hh, hsp⟩
  · -- a coin left from before the transaction
    have hM : M o = some c := by
      split at hM₁
      · exact hM₁
      · exact eq_of_eraseAll_apply_eq_some hM₁
    exact (hok o c hM).2

theorem CheckTxInputs_HaveInputs {tx : CTransaction} {view : CCoinsViewCache} {nSpendHeight : Int}
    {txfee : CAmount} (h : CheckTxInputs tx view nSpendHeight = .ok txfee) :
    view.HaveInputs tx = true := by
  cases hh : view.HaveInputs tx
  · simp only [CheckTxInputs, hh, Bool.not_false, if_true] at h
    exact absurd h ExceptRun.throw_bind_ne_ok
  · rfl

/-- The checks `ConnectBlock` makes on a transaction's inputs leave the view and the undo data
as they were, and pass only when the view has every input. -/
theorem ConnectInputChecks_ok {nHeight : Nat} {tx : CTransaction} {s s₁ : ConnectState}
    (h : ConnectInputChecks cfg params env nHeight tx s = .ok s₁) :
    s₁.view = s.view ∧ s₁.vtxundo = s.vtxundo ∧ s.view.HaveInputs tx = true := by
  simp only [ConnectInputChecks] at h
  obtain ⟨txfee, hfee, h⟩ := ExceptRun.bind_eq_ok.1 h
  -- each check either throws or passes on to the next
  by_cases hrange : (!MoneyRange (s.nFees + txfee)) = true
  · rw [if_pos hrange] at h
    exact absurd h ExceptRun.throw_bind_ne_ok
  rw [if_neg hrange] at h
  by_cases hactive :
      (!env.fAssetsDeployed && tx.vout.any fun out => IsAssetScriptB out.scriptPubKey) = true
  · rw [if_pos hactive] at h
    exact absurd h ExceptRun.throw_bind_ne_ok
  rw [if_neg hactive] at h
  -- the sequence-lock check, whatever asset globals the step before returned
  have htail : ∀ g : AssetGlobals, (do
      let g ← (pure g : Except Halt AssetGlobals)
      if !params.SequenceLocks tx
          (tx.vin.map fun (txin : CTxIn) => (s.view.AccessCoin txin.prevout).nHeight) then
        throw (Halt.reject (str "bad-txns-nonfinal"))
      return { s with nFees := s.nFees + txfee, ctx := { s.ctx with g := g } }) = .ok s₁ →
      s₁.view = s.view ∧ s₁.vtxundo = s.vtxundo := by
    intro g hg
    rw [pure_bind] at hg
    by_cases hlocks : (!params.SequenceLocks tx
        (tx.vin.map fun txin => (s.view.AccessCoin txin.prevout).nHeight)) = true
    · rw [if_pos hlocks] at hg
      exact absurd hg ExceptRun.throw_bind_ne_ok
    · rw [if_neg hlocks] at hg
      cases hg
      exact ⟨rfl, rfl⟩
  suffices hkeep : s₁.view = s.view ∧ s₁.vtxundo = s.vtxundo from
    ⟨hkeep.1, hkeep.2, CheckTxInputs_HaveInputs hfee⟩
  -- `CheckTxAssets` runs only with the assets deployed, and throws or returns the globals
  by_cases hdeployed : env.fAssetsDeployed = true
  · rw [if_pos hdeployed] at h
    cases hassets : CheckTxAssets cfg env tx s.view false s.ctx.g with
    | mk res g =>
      rw [hassets] at h
      cases res with
      | error e => exact absurd h ExceptRun.throw_bind_ne_ok
      | ok a => exact htail g h
  · rw [if_neg hdeployed] at h
    exact htail s.ctx.g h

/-- What one iteration of the transaction loop of `ConnectBlock` does to the coins: an
`UpdateCoins` on the view it was given, whose undo data it records for every transaction after
the coinbase; and it passes only when the view has every input. -/
theorem ConnectTransaction_ok {block : CBlock} {nHeight : Nat} {fAssetsCache : Bool}
    {s s' : ConnectState} {i : Nat} {tx : CTransaction}
    (h : ConnectTransaction cfg params env block nHeight fAssetsCache s i tx = .ok s') :
    (tx.IsCoinBase = false → s.view.HaveInputs tx = true) ∧
    ∃ ctx ctx' txundo undo,
      UpdateCoins cfg env.fAssetsDeployed fAssetsCache tx s.view nHeight block.GetHash ctx =
        .ok (s'.view, ctx', txundo, undo) ∧
      s'.vtxundo = if i > 0 then s.vtxundo ++ [txundo] else s.vtxundo := by
  simp only [ConnectTransaction] at h
  obtain ⟨s₁, hs₁, h⟩ := ExceptRun.ite_bind_eq_ok h
  -- the checks before the sigops leave the view and the undo data as they were
  have hkeep : s₁.view = s.view ∧ s₁.vtxundo = s.vtxundo ∧
      (tx.IsCoinBase = false → s.view.HaveInputs tx = true) := by
    cases hcb : tx.IsCoinBase
    · simp only [hcb, Bool.not_false, if_true] at hs₁
      obtain ⟨hv, hu, hin⟩ := ConnectInputChecks_ok cfg params env hs₁
      exact ⟨hv, hu, fun _ => hin⟩
    · simp only [hcb, Bool.not_true, Bool.false_eq_true, if_false] at hs₁
      cases hs₁
      exact ⟨rfl, rfl, fun h => Bool.noConfusion h⟩
  obtain ⟨hview, hundo, hin⟩ := hkeep
  refine ⟨hin, ?_⟩
  rw [← hview, ← hundo]
  -- the remaining checks throw or pass on; every path that passes ends in `UpdateCoins`
  by_cases hsigops : s₁.nSigOpsCost + params.GetTransactionSigOpCost tx s₁.view > MAX_BLOCK_SIGOPS_COST
  · rw [if_pos hsigops] at h
    exact absurd h ExceptRun.throw_bind_ne_ok
  rw [if_neg hsigops] at h
  -- a transaction other than the coinbase passes its script checks or throws
  have hassets := ExceptRun.eq_ok_of_ite h fun hscripts => by
    split at hscripts
    · exact absurd hscripts ExceptRun.throw_bind_ne_ok
    · exact hscripts
  -- every path through the asset checks that passes ends in `UpdateCoins`
  have hupdate : ∀ {ctx : AssetsCtx}
      {f : CCoinsViewCache × AssetsCtx × List Coin × Option AssetUndo → ConnectState},
      (∀ x, (f x).view = x.1 ∧
        (f x).vtxundo = if i > 0 then s₁.vtxundo ++ [x.2.2.1] else s₁.vtxundo) →
      ((pure ctx : Except Halt AssetsCtx) >>= fun ctx =>
        UpdateCoins cfg env.fAssetsDeployed fAssetsCache tx s₁.view nHeight block.GetHash ctx >>=
          fun x => pure (f x)) = .ok s' →
      ∃ ctx ctx' txundo undo,
        UpdateCoins cfg env.fAssetsDeployed fAssetsCache tx s₁.view nHeight block.GetHash ctx =
          .ok (s'.view, ctx', txundo, undo) ∧
        s'.vtxundo = if i > 0 then s₁.vtxundo ++ [txundo] else s₁.vtxundo := by
    intro ctx f hf hrun
    rw [pure_bind] at hrun
    obtain ⟨x, hx, hpure⟩ := ExceptRun.bind_eq_ok.1 hrun
    cases hpure
    exact ⟨ctx, x.2.1, x.2.2.1, x.2.2.2, by rw [(hf x).1]; exact hx, (hf x).2⟩
  split at hassets
  · next hcache =>
    split at hassets
    · next e ctx₁ hchecks => exact absurd hassets ExceptRun.throw_bind_ne_ok
    · next ctx₁ hchecks => exact hupdate (fun _ => ⟨rfl, rfl⟩) hassets
  · next hcache => exact hupdate (fun _ => ⟨rfl, rfl⟩) hassets

/-- `AddCoins` without the check for an existing coin inserts the coins of the outputs into the
map, where the map holds no coin of the transaction's txid. -/
theorem AddCoins_spec (fAssetsDeployed fAssetsCache : Bool) {view : CCoinsViewCache}
    {M : COutPoint → Option Coin} (h : view.Shows M) {tx : CTransaction} {nHeight : Nat}
    {blockHash : uint256} {ctx : AssetsCtx} {view' : CCoinsViewCache} {ctx' : AssetsCtx}
    {undo : Option AssetUndo} (hfree : ∀ n, M ⟨tx.GetHash, n⟩ = none)
    (hlen : tx.vout.length ≤ UInt32.size)
    (hrun : AddCoins cfg fAssetsDeployed fAssetsCache view tx nHeight blockHash false ctx =
      .ok (view', ctx', undo)) :
    view'.Shows (insertAll M (OutputCoins tx.GetHash tx.IsCoinBase nHeight 0 tx.vout)) := by
  simp only [AddCoins] at hrun
  obtain ⟨⟨ctx₁, undo₁⟩, -, hrun⟩ := ExceptRun.ite_bind_eq_ok hrun
  obtain ⟨⟨view₁, ctx₂⟩, hadd, hrun⟩ := ExceptRun.bind_eq_ok.1 hrun
  cases hrun
  exact AddOutputs_spec cfg _ tx nHeight tx.vout 0 view ctx₁ M h (by simpa using hlen)
    (fun j _ _ => hfree _) hadd

/-- `UpdateCoins` applies the transaction to the map and records the coins its inputs spent. -/
theorem UpdateCoins_spec (fAssetsDeployed fAssetsCache : Bool) {tx : CTransaction}
    {view : CCoinsViewCache} {M : COutPoint → Option Coin} (h : view.Shows M) {nHeight : Nat}
    {blockHash : uint256} {ctx : AssetsCtx} {view' : CCoinsViewCache} {ctx' : AssetsCtx}
    {txundo : List Coin} {undo : Option AssetUndo}
    (hnd : tx.IsCoinBase = false → (tx.vin.map (·.prevout)).Nodup)
    (hfree : ∀ n, M ⟨tx.GetHash, n⟩ = none) (hlen : tx.vout.length ≤ UInt32.size)
    (hrun : UpdateCoins cfg fAssetsDeployed fAssetsCache tx view nHeight blockHash ctx =
      .ok (view', ctx', txundo, undo)) :
    view'.Shows (ApplyTx M tx nHeight) ∧ txundo = if tx.IsCoinBase then [] else TxUndo M tx := by
  simp only [UpdateCoins] at hrun
  obtain ⟨⟨view₁, ctx₁, txundo₁⟩, hspend, hrun⟩ := ExceptRun.ite_bind_eq_ok hrun
  obtain ⟨⟨view₂, ctx₂, undo₂⟩, hadd, hrun⟩ := ExceptRun.bind_eq_ok.1 hrun
  cases hrun
  cases hcb : tx.IsCoinBase with
  | true =>
    -- a coinbase spends nothing
    simp only [hcb, Bool.not_true, Bool.false_eq_true, if_false, pure, Except.pure,
      Except.ok.injEq, Prod.mk.injEq] at hspend
    obtain ⟨rfl, -, rfl⟩ := hspend
    refine ⟨?_, rfl⟩
    have hshows := AddCoins_spec cfg fAssetsDeployed fAssetsCache h hfree hlen hadd
    simpa only [ApplyTx, hcb, if_true] using hshows
  | false =>
    simp only [hcb, Bool.not_false, if_true] at hspend
    obtain ⟨hshows₁, rfl⟩ := SpendInputs_spec cfg _ tx.vin view ctx [] M h (hnd hcb) hspend
    -- spending keeps the txid free
    have hfree₁ : ∀ n, eraseAll M (tx.vin.map (·.prevout)) ⟨tx.GetHash, n⟩ = none := fun n => by
      by_cases hk : (⟨tx.GetHash, n⟩ : COutPoint) ∈ tx.vin.map (·.prevout)
      · exact eraseAll_apply_of_mem M hk
      · rw [eraseAll_apply_of_not_mem M hk]
        exact hfree n
    have hshows := AddCoins_spec cfg fAssetsDeployed fAssetsCache hshows₁ hfree₁ hlen hadd
    refine ⟨?_, by simp [TxUndo]⟩
    simpa only [ApplyTx, hcb, Bool.false_eq_true, if_false] using hshows

/-- A view that has every input of a transaction that is not a coinbase shows a coin at each. -/
theorem HaveInputs_isSome {view : CCoinsViewCache} {M : COutPoint → Option Coin}
    (h : view.Shows M) {tx : CTransaction} (hcb : tx.IsCoinBase = false)
    (hin : view.HaveInputs tx = true) : ∀ txin ∈ tx.vin, (M txin.prevout).isSome := by
  intro txin htxin
  rw [CCoinsViewCache.HaveInputs, hcb, Bool.false_or, List.all_eq_true] at hin
  rw [← h.HaveCoin]
  exact hin txin htxin

/-- One transaction of `ConnectBlock`, connected on a view of `M` with BIP30 holding for it:
the view then shows `ApplyTx M tx nHeight`, still a map of coins at positive heights with
spendable scripts, the undo data recorded are the spent coins, and disconnecting the transaction
with them takes the map back to `M`. -/
theorem ConnectTransaction_undoes {block : CBlock} {nHeight : Nat} {fAssetsCache : Bool}
    {s s' : ConnectState} {i : Nat} {tx : CTransaction}
    (h : ConnectTransaction cfg params env block nHeight fAssetsCache s i tx = .ok s')
    {M : COutPoint → Option Coin} (hview : s.view.Shows M) (hok : CoinsOk M) (hh : 0 < nHeight)
    (hfree : ∀ n, M ⟨tx.GetHash, n⟩ = none) (hnd : (tx.vin.map (·.prevout)).Nodup)
    (hlen : tx.vout.length ≤ UInt32.size) :
    s'.view.Shows (ApplyTx M tx nHeight) ∧ CoinsOk (ApplyTx M tx nHeight) ∧
      s'.vtxundo =
        (if i > 0 then s.vtxundo ++ [if tx.IsCoinBase then [] else TxUndo M tx] else s.vtxundo) ∧
      Undoes cfg env nHeight (ApplyTx M tx nHeight) M tx
        (if tx.IsCoinBase then none else some (TxUndo M tx)) := by
  obtain ⟨hin, ctx, ctx', txundo, undo, hupdate, hundo⟩ := ConnectTransaction_ok cfg params env h
  obtain ⟨hshows, htxundo⟩ := UpdateCoins_spec cfg _ _ hview (fun _ => hnd) hfree hlen hupdate
  refine ⟨hshows, hok.ApplyTx hh hshows, by rw [hundo, htxundo], ?_⟩
  exact ApplyTx_undoes cfg env hok nHeight hfree (fun _ => hnd)
    (fun hcb => HaveInputs_isSome hview hcb (hin hcb)) hlen

/-- The transactions of `ConnectBlock` after the coinbase, connected one after another on a view
of `M`, each with BIP30 holding for it: the view then shows a map `M'` of coins at positive
heights, the undo data of each transaction is recorded in order, and disconnecting them, last
first, takes `M'` back to `M`. The induction is on the transactions, with the map the current
view shows. -/
theorem ConnectTransactions_undoes {block : CBlock} {nHeight : Nat} {fAssetsCache : Bool}
    (hh : 0 < nHeight) :
    ∀ (txs : List CTransaction) (i : Nat) (s s' : ConnectState) (M : COutPoint → Option Coin),
      0 < i → ConnectTransactions cfg params env block nHeight fAssetsCache i txs s = .ok s' →
      s.view.Shows M → CoinsOk M →
      (∀ tx ∈ txs, ∀ n, M ⟨tx.GetHash, n⟩ = none) → (txs.map CTransaction.GetHash).Nodup →
      (∀ tx ∈ txs, tx.IsCoinBase = false ∧ (tx.vin.map (·.prevout)).Nodup ∧
        tx.vout.length ≤ UInt32.size) →
      ∃ M' us, s'.view.Shows M' ∧ CoinsOk M' ∧ s'.vtxundo = s.vtxundo ++ us ∧
        us.length = txs.length ∧ UndoChain cfg env nHeight M' M (txs.zip (us.map some)).reverse
  | [], _, s, s', M, _, hrun, hview, hok, _, _, _ => by
    cases hrun
    exact ⟨M, [], hview, hok, by simp, rfl, rfl⟩
  | tx :: rest, i, s, s', M, hi, hrun, hview, hok, hfree, hids, hwf => by
    simp only [ConnectTransactions] at hrun
    obtain ⟨s₁, htx, hrest⟩ := ExceptRun.bind_eq_ok.1 hrun
    rw [List.map_cons, List.nodup_cons] at hids
    obtain ⟨hcb, hnd, hlen⟩ := hwf tx List.mem_cons_self
    obtain ⟨hview₁, hok₁, hundo₁, hund⟩ := ConnectTransaction_undoes cfg params env htx hview hok hh
      (hfree tx List.mem_cons_self) hnd hlen
    rw [hcb, if_neg Bool.false_ne_true] at hundo₁ hund
    rw [if_pos hi] at hundo₁
    -- the later transactions have other txids, which this one leaves free
    have hfree₁ : ∀ tx' ∈ rest, ∀ n, ApplyTx M tx nHeight ⟨tx'.GetHash, n⟩ = none :=
      fun tx' htx' n => ApplyTx_eq_none (fun heq => hids.1 (heq ▸ List.mem_map_of_mem htx'))
        (hfree tx' (List.mem_cons_of_mem _ htx') n)
    obtain ⟨M', us, hview', hok', hundo', hlen', hchain⟩ :=
      ConnectTransactions_undoes hh rest (i + 1) s₁ s' _ (by omega) hrest hview₁ hok₁ hfree₁
        hids.2 fun tx' htx' => hwf tx' (List.mem_cons_of_mem _ htx')
    refine ⟨M', TxUndo M tx :: us, hview', hok', by rw [hundo', hundo₁]; simp, by simp [hlen'], ?_⟩
    rw [List.map_cons, List.zip_cons_cons, List.reverse_cons]
    exact UndoChain.append cfg env hchain ⟨M, hund, rfl⟩

end Connect

/-! ### The block -/

section Block

variable (cfg : NodeConfig) (params : ConsensusParams) (env : NodeGlobals)

/-- A transaction of serialized size at most `GetMaxBlockWeight / WITNESS_SCALE_FACTOR` has far
fewer than `2 ^ 32` outputs: each takes at least 8 bytes. -/
theorem vout_length_le_of_size {tx : CTransaction}
    (h : ¬tx.GetSerializeSize * WITNESS_SCALE_FACTOR > GetMaxBlockWeight) :
    tx.vout.length ≤ UInt32.size := by
  have hsum := List.card_nsmul_le_sum (tx.vout.map CTxOut.SerializeSize) 8 fun x hx => by
    obtain ⟨o, -, rfl⟩ := List.mem_map.1 hx
    unfold CTxOut.SerializeSize
    omega
  rw [List.length_map] at hsum
  change tx.vout.length * 8 ≤ _ at hsum
  unfold CTransaction.GetSerializeSize at h
  unfold WITNESS_SCALE_FACTOR GetMaxBlockWeight at h
  unfold UInt32.size
  omega

/-- A transaction that passes the basic checks of `CheckTransaction` with the duplicate check
spends distinct outpoints and has fewer than `2 ^ 32` outputs. -/
theorem CheckTransactionBasic_wf {tx : CTransaction} {fAssetCache : Bool}
    (h : CheckTransactionBasic cfg env tx fAssetCache true = none) :
    (tx.vin.map (·.prevout)).Nodup ∧ tx.vout.length ≤ UInt32.size := by
  -- the checks before the duplicate check: empty vectors and the size bound
  have hvin : tx.vin ≠ [] := fun hvin => by simp [CheckTransactionBasic, hvin] at h
  have hvout : tx.vout ≠ [] := fun hvout => by simp [CheckTransactionBasic, hvin, hvout] at h
  have hsize : ¬tx.GetSerializeSize * WITNESS_SCALE_FACTOR > GetMaxBlockWeight :=
    fun hsize => by simp [CheckTransactionBasic, hvin, hvout, hsize] at h
  refine ⟨?_, vout_length_le_of_size hsize⟩
  by_contra hdup
  rw [CheckTransactionBasic, if_neg hvin, if_neg hvout, if_neg hsize] at h
  -- the output checks pass, so the duplicate check is reached and refuses
  cases hout : CheckTxOuts cfg env fAssetCache 0 tx.vout with
  | some e =>
    rw [hout] at h
    cases h
  | none =>
    rw [hout, if_pos ⟨rfl, hdup⟩] at h
    cases h

/-- Every transaction `CheckBlock` checks passes the basic checks, with the duplicate check. -/
theorem CheckBlockTransactions_basic {fCheckAssetDuplicate fForceDuplicateCheck : Bool} :
    ∀ (txs : List CTransaction) (ctx ctx' : AssetsCtx),
      CheckBlockTransactions cfg env fCheckAssetDuplicate fForceDuplicateCheck txs ctx =
        (.ok (), ctx') → ∀ tx ∈ txs, CheckTransactionBasic cfg env tx true true = none
  | [], _, _, _ => by simp
  | tx :: rest, ctx, ctx', h => by
    simp only [CheckBlockTransactions] at h
    split at h
    · cases h
    · next ctx₁ hcheck =>
      have hbasic : CheckTransactionBasic cfg env tx true true = none := by
        unfold CheckTransaction at hcheck
        split at hcheck
        · cases hcheck
        · assumption
      intro tx' htx'
      rcases List.mem_cons.1 htx' with rfl | htx'
      · exact hbasic
      · exact CheckBlockTransactions_basic rest ctx₁ ctx' h tx' htx'

/-- A block that `CheckBlock` accepts when it has not been checked before starts with a coinbase,
has no other, and each of its transactions spends distinct outpoints and has fewer than `2 ^ 32`
outputs. -/
theorem CheckBlock_wf {block : CBlock} {fCheckPOW fCheckMerkleRoot fCheckAssetDuplicate
    fForceDuplicateCheck : Bool} {g g' : AssetGlobals}
    (h : CheckBlock cfg params env block fCheckPOW fCheckMerkleRoot fCheckAssetDuplicate
      fForceDuplicateCheck g = (.ok (), g'))
    (hfc : block.fChecked = false) :
    ∃ cb rest, block.vtx = cb :: rest ∧ cb.IsCoinBase = true ∧
      (∀ tx ∈ rest, tx.IsCoinBase = false) ∧
      ∀ tx ∈ block.vtx, (tx.vin.map (·.prevout)).Nodup ∧ tx.vout.length ≤ UInt32.size := by
  rw [CheckBlock, if_neg (by rw [hfc]; exact Bool.false_ne_true)] at h
  -- the header and merkle checks pass
  cases hpow : (if fCheckPOW then params.CheckBlockHeader block else none) with
  | some e =>
    rw [hpow] at h
    cases h
  | none =>
  rw [hpow] at h
  cases hmerkle : (if fCheckMerkleRoot then params.CheckMerkleRoot block else none) with
  | some e =>
    rw [hmerkle] at h
    cases h
  | none =>
  rw [hmerkle] at h
  -- then the length check, a coinbase first, and no other coinbase
  by_cases hlen : block.vtx = [] ∨ block.vtx.length * WITNESS_SCALE_FACTOR > GetMaxBlockWeight ∨
      block.GetSerializeSize params * WITNESS_SCALE_FACTOR > GetMaxBlockWeight
  · rw [if_pos hlen] at h
    cases h
  rw [if_neg hlen] at h
  by_cases hcb : (!(block.vtx.head?.map CTransaction.IsCoinBase).getD false) = true
  · rw [if_pos hcb] at h
    cases h
  rw [if_neg hcb] at h
  by_cases hmulti : (block.vtx.drop 1).any CTransaction.IsCoinBase = true
  · rw [if_pos hmulti] at h
    cases h
  rw [if_neg hmulti] at h
  -- and every transaction passes `CheckTransaction`
  have htxs : CheckBlockTransactions cfg env fCheckAssetDuplicate fForceDuplicateCheck block.vtx
      ⟨g.passets, g⟩ = (.ok (), (CheckBlockTransactions cfg env fCheckAssetDuplicate
        fForceDuplicateCheck block.vtx ⟨g.passets, g⟩).2) := by
    cases hrun : CheckBlockTransactions cfg env fCheckAssetDuplicate fForceDuplicateCheck
        block.vtx ⟨g.passets, g⟩ with
    | mk res ctx₁ =>
      cases res with
      | error e =>
        simp only [onPassets, hrun] at h
        cases h
      | ok u => rfl
  obtain ⟨cb, rest, hvtx⟩ : ∃ cb rest, block.vtx = cb :: rest := by
    cases hv : block.vtx with
    | nil => exact absurd (Or.inl hv) hlen
    | cons cb rest => exact ⟨cb, rest, rfl⟩
  rw [hvtx] at hcb hmulti
  simp only [List.head?_cons, Option.map_some, Option.getD_some, Bool.not_eq_true',
    Bool.not_eq_false] at hcb
  simp only [List.drop_succ_cons, List.drop_zero, List.any_eq_true, not_exists, not_and,
    Bool.not_eq_true] at hmulti
  refine ⟨cb, rest, hvtx, by simpa using hcb, hmulti, fun tx htx => ?_⟩
  exact CheckTransactionBasic_wf cfg env
    (CheckBlockTransactions_basic cfg env block.vtx _ _ htxs tx htx)

/-- What `ConnectBlock` does to the coins, away from the genesis block: its transaction loop,
run from the view it was given after `CheckBlock` accepted the block, gives the view and the undo
data it returns. -/
theorem ConnectBlock_ok {block : CBlock} {nHeight : Nat} {view : CCoinsViewCache}
    {fAssetsCache fJustCheck : Bool} {ctx : AssetsCtx} {view' : CCoinsViewCache}
    {ctx' : AssetsCtx} {vtxundo : List (List Coin)}
    (h : ConnectBlock cfg params env block nHeight view fAssetsCache ctx fJustCheck =
      .ok (view', ctx', vtxundo))
    (hgen : block.GetHash ≠ params.hashGenesisBlock) :
    ∃ g ctx₀ s, CheckBlock cfg params env block (!fJustCheck) (!fJustCheck) (!fJustCheck)
        (!fJustCheck) ctx.g = (.ok (), g) ∧
      ConnectTransactions cfg params env block nHeight fAssetsCache 0 block.vtx
        ⟨view, ctx₀, [], [], 0, 0⟩ = .ok s ∧ view' = s.view ∧ vtxundo = s.vtxundo := by
  simp only [ConnectBlock] at h
  -- `CheckBlock` accepted the block
  split at h
  · exact absurd h ExceptRun.throw_bind_ne_ok
  next g hcheck =>
  obtain ⟨g', hg', h⟩ := ExceptRun.bind_eq_ok.1 h
  cases hg'
  rw [if_neg hgen] at h
  obtain ⟨s, hs, h⟩ := ExceptRun.bind_eq_ok.1 h
  refine ⟨g, _, s, hcheck, hs, ?_⟩
  -- the checks after the loop throw or return its view and undo data
  obtain ⟨coinbaseOut, -, h⟩ := ExceptRun.bind_eq_ok.1 h
  by_cases hamount : coinbaseOut > s.nFees + GetBlockSubsidy nHeight params
  · rw [if_pos hamount] at h
    exact absurd h ExceptRun.throw_bind_ne_ok
  rw [if_neg hamount] at h
  -- the check-only branch and the writing branch return the same view and undo data
  by_cases hjust : fJustCheck = true
  · rw [if_pos hjust] at h
    cases h
    exact ⟨rfl, rfl⟩
  · rw [if_neg hjust] at h
    cases h
    exact ⟨rfl, rfl⟩

/-- The loop of `DisconnectBlock`, given the undo data `ConnectBlock` recorded for the block. -/
theorem DisconnectBlock_eq {block : CBlock} {cb : CTransaction} {rest : List CTransaction}
    (hvtx : block.vtx = cb :: rest) {us : List (List Coin)} (hlen : us.length = rest.length)
    (nHeight : Nat) (view : CCoinsViewCache) (ctx : AssetsCtx) :
    DisconnectBlock cfg env block nHeight (some us) view ctx =
      DisconnectTransactions cfg env nHeight
        ((ctx.g.passetsdb.blockUndoAssetData.lookup block.GetHash).getD [])
        ((rest.zip (us.map some)).reverse ++ [(cb, none)]) view ctx ctx.self true := by
  simp [DisconnectBlock, hvtx, hlen]

/-- **Disconnecting a block undoes connecting it.** Take a coins view whose flags mean what they
should, whose coins have positive heights and spendable scripts, and a block, not the genesis
block and not checked before, for which BIP30 holds: no transaction of the block has the txid of
a coin of the view, and no two have the same txid. If `ConnectBlock` accepts the block, with or
without the asset cache and in either mode, then `DisconnectBlock` with the undo data it returned
shows exactly the coins the view showed before the block whenever it reports no failure; and
without the assets deployed it succeeds, reports `DISCONNECT_OK` and shows those coins. -/
theorem DisconnectBlock_undoes_ConnectBlock {block : CBlock} {nHeight : Nat}
    {view : CCoinsViewCache} {fAssetsCache fJustCheck : Bool} {ctx : AssetsCtx}
    {view' : CCoinsViewCache} {ctx' : AssetsCtx} {vtxundo : List (List Coin)}
    (hconnect : ConnectBlock cfg params env block nHeight view fAssetsCache ctx fJustCheck =
      .ok (view', ctx', vtxundo))
    (hfc : block.fChecked = false) (hgen : block.GetHash ≠ params.hashGenesisBlock)
    (hh : 0 < nHeight) (hflags : CoinsCache.StackOk view.base [view.cacheCoins])
    (hcoins : ∀ o c, view.utxo o = some c →
      0 < c.nHeight ∧ IsUnspendable c.out.scriptPubKey = false)
    (hbip30 : ∀ tx ∈ block.vtx, ∀ n, view.utxo ⟨tx.GetHash, n⟩ = none)
    (hids : (block.vtx.map CTransaction.GetHash).Nodup) :
    (∀ r, DisconnectBlock cfg env block nHeight (some vtxundo) view' ctx' = .ok r →
      r.1 ≠ DISCONNECT_FAILED → r.2.1.utxo = view.utxo) ∧
    (env.fAssetsDeployed = false → ∃ view'' ctx'',
      DisconnectBlock cfg env block nHeight (some vtxundo) view' ctx' =
        .ok (DISCONNECT_OK, view'', ctx'') ∧ view''.utxo = view.utxo) := by
  -- the view stands for the map of coins it shows
  have hview : view.Shows view.utxo := by
    have h := CCoinsViewCache.Shows_of_StackOk hflags
    rwa [← h.utxo] at h
  have hok : CoinsOk view.utxo := fun o c hc => ⟨hview.unspent hc, hcoins o c hc⟩
  obtain ⟨g, ctx₀, s, hcheck, htxs, rfl, rfl⟩ := ConnectBlock_ok cfg params env hconnect hgen
  obtain ⟨cb, rest, hvtx, hcb, hrest, hwf⟩ := CheckBlock_wf cfg params env hcheck hfc
  rw [hvtx] at htxs hbip30 hids hwf
  rw [List.map_cons, List.nodup_cons] at hids
  -- the coinbase, at index 0, records no undo data
  simp only [ConnectTransactions] at htxs
  obtain ⟨s₁, hs₁, htxs⟩ := ExceptRun.bind_eq_ok.1 htxs
  obtain ⟨hnd₀, hlen₀⟩ := hwf cb List.mem_cons_self
  obtain ⟨hview₁, hok₁, hundo₁, hund₁⟩ := ConnectTransaction_undoes cfg params env hs₁ hview hok
    hh (hbip30 cb List.mem_cons_self) hnd₀ hlen₀
  rw [hcb, if_pos rfl] at hund₁
  rw [if_neg (Nat.lt_irrefl 0)] at hundo₁
  -- the other transactions, from index 1, have txids the coinbase leaves free
  have hfree₁ : ∀ tx ∈ rest, ∀ n, ApplyTx view.utxo cb nHeight ⟨tx.GetHash, n⟩ = none :=
    fun tx htx n => ApplyTx_eq_none (fun heq => hids.1 (heq ▸ List.mem_map_of_mem htx))
      (hbip30 tx (List.mem_cons_of_mem _ htx) n)
  obtain ⟨M', us, hview', -, hundo', hlen', hchain⟩ :=
    ConnectTransactions_undoes cfg params env hh rest 1 s₁ s _ Nat.one_pos htxs hview₁ hok₁ hfree₁
      hids.2 fun tx htx => ⟨hrest tx htx, hwf tx (List.mem_cons_of_mem _ htx)⟩
  rw [hundo₁, List.nil_append] at hundo'
  have hchain' : UndoChain cfg env nHeight M' view.utxo
      ((rest.zip (us.map some)).reverse ++ [(cb, none)]) :=
    UndoChain.append cfg env hchain ⟨view.utxo, hund₁, rfl⟩
  rw [hundo', DisconnectBlock_eq cfg env hvtx hlen']
  obtain ⟨hpart, htot⟩ := DisconnectTransactions_of_UndoChain cfg env nHeight _ _ _ _ hchain'
    s.view ctx' ctx'.self true hview'
  refine ⟨fun r hr hres => (hpart r hr hres).utxo, fun hfa => ?_⟩
  obtain ⟨view'', ctx'', hrun, hshows⟩ := htot hfa
  exact ⟨view'', ctx'', hrun, hshows.utxo⟩

end Block

/-- The pre-activation node of concrete runs. -/
def PreAssetNode : NodeGlobals := { SampleNode with fAssetsDeployed := false }

/-- A block at height 11 spending the coin of `RvnCoins`, with a fee of 100 RVN. -/
def SpendBlock : CBlock :=
  SampleBlock 11 1002 1001 [SpendTx 77 [⟨1, 0⟩] [⟨900 * COIN, P2PKH SampleKeyA⟩]]

theorem RvnCoins_lookup {o : COutPoint} {c : Coin} (h : RvnCoins.lookup o = some c) :
    o = ⟨1, 0⟩ ∧ c = ⟨⟨1000 * COIN, P2PKH SampleKeyA⟩, false, 10⟩ := by
  by_cases ho : o = ⟨1, 0⟩
  · subst ho
    simp only [RvnCoins, AList.lookup_insert, Option.some.injEq] at h
    exact ⟨rfl, h.symm⟩
  · rw [RvnCoins, AList.lookup_insert_ne ho] at h
    cases h

/-- Before the assets, `SpendBlock` connected on the coin of `RvnCoins` is disconnected with
`DISCONNECT_OK` back to that coin. -/
theorem DisconnectBlock_undoes_ConnectBlock_spend :
    ∃ view' ctx' vtxundo,
      ConnectBlock SampleConfig SampleParams PreAssetNode SpendBlock 11
        (CCoinsViewCache.ofBase RvnCoins) true ⟨CAssetsCache.empty, AssetGlobals.empty⟩ false =
        .ok (view', ctx', vtxundo) ∧
      ∃ view'' ctx'',
        DisconnectBlock SampleConfig PreAssetNode SpendBlock 11 (some vtxundo) view' ctx' =
          .ok (DISCONNECT_OK, view'', ctx'') ∧
        view''.utxo = (CCoinsViewCache.ofBase RvnCoins).utxo := by
  have hdb : ∀ o c, RvnCoins.lookup o = some c → c.IsSpent = false := fun o c h => by
    rw [(RvnCoins_lookup h).2]
    rfl
  have hutxo := (CCoinsViewCache.Shows_ofBase hdb).utxo
  have hok : (ConnectBlock SampleConfig SampleParams PreAssetNode SpendBlock 11
      (CCoinsViewCache.ofBase RvnCoins) true ⟨CAssetsCache.empty, AssetGlobals.empty⟩
      false).map (fun _ => ()) = .ok () := by
    decide +kernel
  rcases hc : ConnectBlock SampleConfig SampleParams PreAssetNode SpendBlock 11
      (CCoinsViewCache.ofBase RvnCoins) true ⟨CAssetsCache.empty, AssetGlobals.empty⟩ false with
    _ | ⟨view', ctx', vtxundo⟩
  · rw [hc] at hok
    cases hok
  · refine ⟨view', ctx', vtxundo, rfl, ?_⟩
    refine (DisconnectBlock_undoes_ConnectBlock SampleConfig SampleParams PreAssetNode hc rfl
      (by decide) (by decide) ⟨CoinsCache.LayerOk_empty _, hdb⟩ ?_ ?_ (by decide)).2 rfl
    · -- the coin of `RvnCoins` is at height 10, on a plain script
      intro o c h
      rw [hutxo, (RvnCoins_lookup h).2] at *
      decide
    · -- neither txid of the block has a coin
      intro tx htx n
      rw [hutxo]
      cases hl : RvnCoins.lookup ⟨tx.GetHash, n⟩ with
      | none => exact hl
      | some c =>
        have := congrArg COutPoint.hash (RvnCoins_lookup hl).1
        simp only [SpendBlock, SampleBlock, List.mem_cons, List.not_mem_nil, or_false] at htx
        rcases htx with rfl | rfl <;> cases this

end Ravencoin
