import Mathlib.Data.List.AList
import Ravencoin.Assets.CacheOps
import Ravencoin.Assets.Transactions

/-!
# The coins view cache (`coins.cpp`)

`CCoinsViewCache` layers a map of cache entries over a base view. An entry holds a coin (a
spent coin marks a spend that the base does not know of yet) and the flags `DIRTY` and
`FRESH`. `SpendCoin` fetches the coin, removes or clears it, and then lets the asset cache
`TrySpendCoin`; `AddCoin` stores a new coin unless its script is unspendable.

## Main definitions

* `Ravencoin.CCoinsViewCache` — the base coins and the cache entries.
* `Ravencoin.CCoinsViewCache.AccessCoin`, `HaveCoin`, `HaveInputs` — the reads.
* `Ravencoin.CCoinsViewCache.SpendCoin`, `Ravencoin.CCoinsViewCache.AddCoin` — the writes.
* `Ravencoin.CCoinsViewCache.utxo` — the coins the view shows.

## Main results

* `Ravencoin.CCoinsViewCache.AccessCoin_insert` — the coin a view reads after an entry is
  written.

## Implementation notes

The C++ const reads (`AccessCoin`, `HaveCoin`, `HaveInputs`) also copy a coin fetched from the
base into `cacheCoins`, which is `mutable`; the copy changes no read, so the model's reads do
not store it. `SpendCoin` fetches as the C++ does. The base view holds only unspent coins, as
`GetCoin` of a `CCoinsViewDB` or of a parent cache reports them. `AddCoin` throwing
`std::logic_error` and a failed `assert` are aborts.
-/

set_option autoImplicit false

namespace Ravencoin

/-- `CCoinsCacheEntry`: a coin and the `DIRTY` and `FRESH` flags. -/
structure CCoinsCacheEntry where
  coin : Coin
  dirty : Bool
  fresh : Bool
deriving DecidableEq, Repr

/-- The unspent coins of a view, by outpoint. -/
abbrev CoinsMap := AList fun _ : COutPoint => Coin

/-- `CCoinsViewCache`: the base view's coins and the cache entries. -/
structure CCoinsViewCache where
  base : CoinsMap
  cacheCoins : AList fun _ : COutPoint => CCoinsCacheEntry

namespace CCoinsViewCache

/-- `CCoinsViewCache(baseIn)`: the cache over a base, with no entries. -/
def ofBase (base : CoinsMap) : CCoinsViewCache := ⟨base, ∅⟩

/-- `AccessCoin`: the cached coin, else the base's, else the empty coin. -/
def AccessCoin (view : CCoinsViewCache) (o : COutPoint) : Coin :=
  match view.cacheCoins.lookup o with
  | some e => e.coin
  | none => (view.base.lookup o).getD Coin.Empty

/-- `HaveCoin`. -/
def HaveCoin (view : CCoinsViewCache) (o : COutPoint) : Bool := !(view.AccessCoin o).IsSpent

/-- `HaveInputs`: every input of a non-coinbase transaction has its coin. -/
def HaveInputs (view : CCoinsViewCache) (tx : CTransaction) : Bool :=
  tx.IsCoinBase || tx.vin.all fun txin => view.HaveCoin txin.prevout

/-- The coin the view shows at an outpoint, if unspent. -/
def utxo (view : CCoinsViewCache) (o : COutPoint) : Option Coin :=
  if view.HaveCoin o then some (view.AccessCoin o) else none

/-- `FetchCoin`: the cached entry, or the base's coin copied into the cache. -/
def FetchCoin (view : CCoinsViewCache) (o : COutPoint) :
    Option (CCoinsCacheEntry × CCoinsViewCache) :=
  match view.cacheCoins.lookup o with
  | some e => some (e, view)
  | none =>
    match view.base.lookup o with
    | none => none
    | some coin =>
      let e : CCoinsCacheEntry := ⟨coin, false, coin.IsSpent⟩
      some (e, { view with cacheCoins := view.cacheCoins.insert o e })

/-- `SpendCoin(outpoint, &undo, assetsCache)`: `none` when there is no coin to fetch; else
the moved-out coin, the view with the coin erased (a `FRESH` entry) or cleared, and the
answer of `TrySpendCoin` when the asset cache takes part. -/
def SpendCoin (cfg : NodeConfig) (fAssets : Bool) (view : CCoinsViewCache) (o : COutPoint)
    (ctx : AssetsCtx) : Bool × Coin × CCoinsViewCache × AssetsCtx :=
  match view.FetchCoin o with
  | none => (false, Coin.Empty, view, ctx)
  | some (e, view) =>
    let view :=
      if e.fresh then { view with cacheCoins := view.cacheCoins.erase o }
      else { view with cacheCoins := view.cacheCoins.insert o ⟨Coin.Empty, true, e.fresh⟩ }
    if fAssets then
      let (ok, ctx) := TrySpendCoin cfg e.coin.out ctx
      (ok, e.coin, view, ctx)
    else (true, e.coin, view, ctx)

/-- `AddCoin(outpoint, coin, possible_overwrite)`. -/
def AddCoin (view : CCoinsViewCache) (o : COutPoint) (coin : Coin) (possible_overwrite : Bool) :
    Except Halt CCoinsViewCache :=
  if coin.IsSpent then .error (.abort (str "assert(!coin.IsSpent())"))
  else if IsUnspendable coin.out.scriptPubKey then .ok view
  else
    let e := (view.cacheCoins.lookup o).getD ⟨Coin.Empty, false, false⟩
    if !possible_overwrite && !e.coin.IsSpent then
      .error (.abort (str "Adding new coin that replaces non-pruned entry"))
    else
      let fresh := !possible_overwrite && !e.dirty
      .ok { view with cacheCoins := view.cacheCoins.insert o ⟨coin, true, e.fresh || fresh⟩ }

/-- `GetMaxBlockWeight() / MIN_TRANSACTION_OUTPUT_WEIGHT`: a serialized `CTxOut()` is 9 bytes,
of weight 36. -/
def MAX_OUTPUTS_PER_BLOCK : Nat := GetMaxBlockWeight / (WITNESS_SCALE_FACTOR * 9)

/-- `AccessByTxid`: the first unspent output of a transaction; the C++ tries every index in
turn, and only the indexes the view knows of can hold one. -/
def AccessByTxid (view : CCoinsViewCache) (txid : uint256) : Coin :=
  let unspent := (view.cacheCoins.keys ++ view.base.keys).filter fun o =>
    o.hash = txid ∧ o.n.toNat < MAX_OUTPUTS_PER_BLOCK ∧ view.HaveCoin o
  match (unspent.map fun o => o.n).min? with
  | some n => view.AccessCoin ⟨txid, n⟩
  | none => Coin.Empty

/-- `Flush` into the base: spent entries erase, the others write. -/
def FlushToBase (view : CCoinsViewCache) : CoinsMap :=
  view.cacheCoins.entries.foldl
    (fun base e => if e.2.coin.IsSpent then base.erase e.1 else base.insert e.1 e.2.coin) view.base

/-! ### Facts -/

@[simp] theorem AccessCoin_insert (view : CCoinsViewCache) (o o' : COutPoint)
    (e : CCoinsCacheEntry) :
    AccessCoin { view with cacheCoins := view.cacheCoins.insert o e } o' =
      if o' = o then e.coin else view.AccessCoin o' := by
  by_cases h : o' = o
  · subst h
    simp [AccessCoin, AList.lookup_insert]
  · simp [AccessCoin, AList.lookup_insert_ne h, h]

end CCoinsViewCache

end Ravencoin
