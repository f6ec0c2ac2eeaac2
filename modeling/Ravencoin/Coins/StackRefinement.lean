import Ravencoin.Coins.Stack

/-!
# Stacks of coins caches refine one map of coins

Each cache of a stack shows, at an outpoint, the unspent coin of its entry, or what the view
below shows when it has no entry (`CacheView`, `View`). The flags have a meaning relative to the
view below (`LayerOk`): an entry that is not dirty holds the coin the view below reports, and a
fresh entry has no unspent coin below it. Every operation keeps that meaning and changes the view
at the top exactly as an add or a spend changes one map of unspent coins; a flush moves what a
cache shows into the view below it, which is why `BatchWrite` never finds a fresh child entry over
an unspent parent coin.

## Main definitions

* `CoinsCache.CacheView`, `CoinsCache.View` — what a cache, and the top of a stack, shows.
* `CoinsCache.LayerOk`, `CoinsCache.StackOk` — the meaning of the flags at every cache.
* `CoinsCache.CoinsOp.Apply` — the operations on one map of unspent coins.
* `CoinsCache.Stack.Inv` — the stack stands for a map.

## Main results

* `CoinsCache.GetCoin_spec`, `CoinsCache.BatchWrite_spec`, `CoinsCache.FlushAt_spec`.
* `CoinsCache.Stack.Step_spec` — each operation keeps `Inv`, applied to the map.
* `CoinsCache.Stack.reads_spec` — the reads at the top return what the map holds.
* `coins_cache_stack_refines_map` — the refinement over every run.
* `CoinsCache.Stack.AddCoin_fresh_over_lower_coin_resurrects` — an add without overwrite over a
  coin that only a lower cache holds breaks it.

## Implementation notes

The requirement on an add without `possible_overwrite` is read on what the top shows
(`Stack.Valid`), which along a run is the same as reading it on the map
(`Stack.ValidRun_of_ValidAll`); read on the top cache's own entries it is too weak, as the
last result shows. The database stores unspent coins only, which is what `CCoinsView::GetCoin`
promises of a base view.
-/

set_option autoImplicit false

namespace Ravencoin

namespace CoinsCache

/-! ### What each cache shows -/

theorem UnspentCoin_of_spent {c : Coin} (h : c.IsSpent = true) : UnspentCoin c = none := by
  simp [UnspentCoin, h]

theorem UnspentCoin_of_unspent {c : Coin} (h : c.IsSpent = false) : UnspentCoin c = some c := by
  simp [UnspentCoin, h]

theorem unspent_of_UnspentCoin_eq_some {c c' : Coin} (h : UnspentCoin c = some c') :
    c.IsSpent = false ∧ c' = c := by
  unfold UnspentCoin at h
  split_ifs at h with hs
  · exact ⟨by simpa using hs, (Option.some.inj h).symm⟩

@[simp] theorem bind_UnspentCoin_UnspentCoin (c : Coin) :
    (UnspentCoin c).bind UnspentCoin = UnspentCoin c := by
  cases hs : c.IsSpent
  · simp [UnspentCoin_of_unspent hs]
  · simp [UnspentCoin_of_spent hs]

@[simp] theorem Coin.IsSpent_Empty : Coin.Empty.IsSpent = true := rfl

theorem UnspentCoin_Empty : UnspentCoin Coin.Empty = none := UnspentCoin_of_spent Coin.IsSpent_Empty

/-- What a cache shows over the view `parent` below it: its entry's coin when unspent, and what
the view below shows when it has no entry. -/
def CacheView (cacheCoins : CCoinsMap) (parent : COutPoint → Option Coin) (o : COutPoint) :
    Option Coin :=
  match cacheCoins.lookup o with
  | some e => UnspentCoin e.coin
  | none => (parent o).bind UnspentCoin

/-- What the top of the caches `layers` over the database shows; the database shows what it
stores. -/
def View (db : CoinsMap) : List CCoinsMap → COutPoint → Option Coin
  | [] => db.lookup
  | cacheCoins :: below => CacheView cacheCoins (View db below)

theorem CacheView_of_lookup {cacheCoins : CCoinsMap} {o : COutPoint} {e : CCoinsCacheEntry}
    (h : cacheCoins.lookup o = some e) (parent : COutPoint → Option Coin) :
    CacheView cacheCoins parent o = UnspentCoin e.coin := by
  simp [CacheView, h]

theorem CacheView_of_lookup_none {cacheCoins : CCoinsMap} {o : COutPoint}
    (h : cacheCoins.lookup o = none) (parent : COutPoint → Option Coin) :
    CacheView cacheCoins parent o = (parent o).bind UnspentCoin := by
  simp [CacheView, h]

/-- A cache shows unspent coins only. -/
@[simp] theorem CacheView_bind (cacheCoins : CCoinsMap) (parent : COutPoint → Option Coin)
    (o : COutPoint) : (CacheView cacheCoins parent o).bind UnspentCoin =
      CacheView cacheCoins parent o := by
  unfold CacheView
  split
  · exact bind_UnspentCoin_UnspentCoin _
  · cases parent o <;> simp

theorem CacheView_insert (cacheCoins : CCoinsMap) (parent : COutPoint → Option Coin)
    (o o' : COutPoint) (e : CCoinsCacheEntry) :
    CacheView (cacheCoins.insert o e) parent o' =
      if o' = o then UnspentCoin e.coin else CacheView cacheCoins parent o' := by
  by_cases h : o' = o
  · subst h
    simp [CacheView, AList.lookup_insert]
  · simp [CacheView, AList.lookup_insert_ne h, h]

theorem CacheView_erase (cacheCoins : CCoinsMap) (parent : COutPoint → Option Coin)
    (o o' : COutPoint) :
    CacheView (cacheCoins.erase o) parent o' =
      if o' = o then (parent o).bind UnspentCoin else CacheView cacheCoins parent o' := by
  by_cases h : o' = o
  · subst h
    simp [CacheView, AList.lookup_erase]
  · simp [CacheView, AList.lookup_erase_ne h, h]

/-- The meaning of a cache's flags over the view `parent` below it: an entry that is not dirty
holds the coin the view below reports, a fresh entry has no unspent coin below it, and spent
entries hold the cleared coin. -/
def LayerOk (cacheCoins : CCoinsMap) (parent : COutPoint → Option Coin) : Prop :=
  ∀ o e, cacheCoins.lookup o = some e →
    (e.dirty = false → parent o = some e.coin) ∧
    (e.fresh = true → (parent o).bind UnspentCoin = none) ∧
    (e.coin.IsSpent = true → e.coin = Coin.Empty)

/-- The flags mean what they should at every cache, and the database stores unspent coins
only. -/
def StackOk (db : CoinsMap) : List CCoinsMap → Prop
  | [] => ∀ o c, db.lookup o = some c → c.IsSpent = false
  | cacheCoins :: below => LayerOk cacheCoins (View db below) ∧ StackOk db below

theorem LayerOk_empty (parent : COutPoint → Option Coin) : LayerOk ∅ parent := by
  intro o e h
  simp at h

theorem LayerOk.erase {cacheCoins : CCoinsMap} {parent : COutPoint → Option Coin}
    (h : LayerOk cacheCoins parent) (o : COutPoint) : LayerOk (cacheCoins.erase o) parent := by
  intro o' e he
  by_cases ho : o' = o
  · subst ho
    simp [AList.lookup_erase] at he
  · rw [AList.lookup_erase_ne ho] at he
    exact h o' e he

/-- An entry that meets the flags' meaning keeps a cache meeting it. -/
theorem LayerOk.insert {cacheCoins : CCoinsMap} {parent : COutPoint → Option Coin}
    (h : LayerOk cacheCoins parent) {o : COutPoint} {e : CCoinsCacheEntry}
    (he : (e.dirty = false → parent o = some e.coin) ∧
      (e.fresh = true → (parent o).bind UnspentCoin = none) ∧
      (e.coin.IsSpent = true → e.coin = Coin.Empty)) :
    LayerOk (cacheCoins.insert o e) parent := by
  intro o' e' he'
  by_cases ho : o' = o
  · subst ho
    rw [AList.lookup_insert] at he'
    cases he'
    exact he
  · rw [AList.lookup_insert_ne ho] at he'
    exact h o' e' he'

/-- Erasing the entry just inserted at `o` keeps the flags' meaning, whatever that entry was. -/
theorem LayerOk.erase_insert {cacheCoins : CCoinsMap} {parent : COutPoint → Option Coin}
    (h : LayerOk cacheCoins parent) (o : COutPoint) (e : CCoinsCacheEntry) :
    LayerOk ((cacheCoins.insert o e).erase o) parent := by
  intro o' e' he'
  by_cases ho : o' = o
  · rw [ho, AList.lookup_erase] at he'
    cases he'
  · rw [AList.lookup_erase_ne ho, AList.lookup_insert_ne ho] at he'
    exact h o' e' he'

theorem CacheView_unspent {cacheCoins : CCoinsMap} {parent : COutPoint → Option Coin}
    {o : COutPoint} {c : Coin} (h : CacheView cacheCoins parent o = some c) :
    c.IsSpent = false := by
  have hb := CacheView_bind cacheCoins parent o
  rw [h, Option.bind_some] at hb
  exact (unspent_of_UnspentCoin_eq_some hb).1

/-- The top of a stack shows unspent coins only. -/
theorem View_unspent {db : CoinsMap} {layers : List CCoinsMap} (hok : StackOk db layers)
    {o : COutPoint} {c : Coin} (h : View db layers o = some c) : c.IsSpent = false := by
  cases layers with
  | nil => exact hok o c h
  | cons cacheCoins below => exact CacheView_unspent h

/-! ### Reads -/

section Fetch

variable {σ : Type} (cacheCoins : CCoinsMap) (base : σ)
  (baseGetCoin : COutPoint → Option Coin × σ) (o : COutPoint)

/-- The entry `FetchCoin` returns is the one it leaves in the cache. -/
theorem FetchCoin_lookup :
    (FetchCoin cacheCoins base baseGetCoin o).2.1.lookup o =
      (FetchCoin cacheCoins base baseGetCoin o).1 := by
  unfold FetchCoin
  cases h : cacheCoins.lookup o with
  | some e => exact h
  | none =>
    dsimp only
    split
    · exact h
    · exact AList.lookup_insert _

end Fetch

/-- `GetCoin` through a stack reports what its top shows, keeps the flags' meaning and changes
no view: the copies it makes are of what the views below report. The induction is on the
caches, from the database up. -/
theorem GetCoin_spec (db : CoinsMap) :
    ∀ (layers : List CCoinsMap) (o : COutPoint), StackOk db layers →
      (GetCoin db layers o).1 = View db layers o ∧ StackOk db (GetCoin db layers o).2 ∧
        View db (GetCoin db layers o).2 = View db layers
  | [], o, hok => ⟨rfl, hok, rfl⟩
  | cacheCoins :: below, o, ⟨hlayer, hbelow⟩ => by
    obtain ⟨hget, hok', hview'⟩ := GetCoin_spec db below o hbelow
    simp only [GetCoin, FetchCoin]
    cases hc : cacheCoins.lookup o with
    | some e =>
      exact ⟨(CacheView_of_lookup hc _).symm, ⟨hlayer, hbelow⟩, rfl⟩
    | none =>
      rcases hG : GetCoin db below o with ⟨tmp, below'⟩
      rw [hG] at hget hok' hview'
      dsimp only at hget hok' hview' ⊢
      cases htmp : tmp with
      | none =>
        subst htmp
        refine ⟨?_, ⟨hview' ▸ hlayer, hok'⟩, by simp only [View, hview']⟩
        simp [View, CacheView_of_lookup_none hc, ← hget]
      | some coin =>
        subst htmp
        -- the copy is of the coin below, unspent
        have hunspent : coin.IsSpent = false := View_unspent hbelow hget.symm
        refine ⟨?_, ⟨?_, hok'⟩, ?_⟩
        · simp [View, CacheView_of_lookup_none hc, ← hget]
        · rw [hview']
          refine hlayer.insert ⟨fun _ => hget.symm, fun hf => ?_, fun hs => ?_⟩
          · simp only at hf
            rw [hf] at hunspent
            cases hunspent
          · simp only at hs
            rw [hs] at hunspent
            cases hunspent
        · funext o'
          simp only [View, hview', CacheView_insert]
          split_ifs with ho
          · subst ho
            simp [CacheView_of_lookup_none hc, ← hget]
          · rfl

/-! ### Writes into the view below -/

/-- `Uncache` drops only an entry that holds the coin the view below reports, so what the cache
shows is unchanged. -/
theorem Uncache_spec {cacheCoins : CCoinsMap} {parent : COutPoint → Option Coin}
    (h : LayerOk cacheCoins parent) (o : COutPoint) :
    LayerOk (Uncache cacheCoins o) parent ∧
      CacheView (Uncache cacheCoins o) parent = CacheView cacheCoins parent := by
  unfold Uncache
  cases he : cacheCoins.lookup o with
  | none => exact ⟨h, rfl⟩
  | some e =>
    dsimp only
    split_ifs with hflags
    · simp only [Bool.and_eq_true, Bool.not_eq_true'] at hflags
      refine ⟨h.erase o, ?_⟩
      funext o'
      rw [CacheView_erase]
      split_ifs with ho
      · rw [ho, CacheView_of_lookup he, (h o e he).1 hflags.1, Option.bind_some]
      · rfl
    · exact ⟨h, rfl⟩

/-- The child's entry `e` at `o`, as the child's flags' meaning over the parent's view has it,
written into the parent: the write succeeds, keeps the parent's flags' meaning over the view
below it, makes the parent show what the child showed at `o`, and changes nothing else. -/
theorem BatchWriteEntry_spec {cacheCoins : CCoinsMap} {parent : COutPoint → Option Coin}
    (h : LayerOk cacheCoins parent) {o : COutPoint} {e : CCoinsCacheEntry}
    (he : (e.dirty = false → CacheView cacheCoins parent o = some e.coin) ∧
      (e.fresh = true → (CacheView cacheCoins parent o).bind UnspentCoin = none) ∧
      (e.coin.IsSpent = true → e.coin = Coin.Empty)) :
    ∃ c', BatchWriteEntry cacheCoins o e = .ok c' ∧ LayerOk c' parent ∧
      CacheView c' parent o = UnspentCoin e.coin ∧
      ∀ o', o' ≠ o → c'.lookup o' = cacheCoins.lookup o' := by
  obtain ⟨hdirty, hfresh, hclear⟩ := he
  rw [CacheView_bind] at hfresh
  unfold BatchWriteEntry
  cases hd : e.dirty
  · -- an entry that is not dirty shows what the parent shows
    have hshow := hdirty hd
    have hun := CacheView_unspent hshow
    exact ⟨cacheCoins, rfl, h, by rw [hshow, UnspentCoin_of_unspent hun], fun _ _ => rfl⟩
  simp only [Bool.not_true, Bool.false_eq_true, if_false]
  cases hp : cacheCoins.lookup o with
  | none =>
    dsimp only
    split_ifs with hskip
    · -- fresh and spent: the parent shows nothing either
      simp only [Bool.and_eq_true] at hskip
      refine ⟨cacheCoins, rfl, h, ?_, fun _ _ => rfl⟩
      rw [hfresh hskip.1, UnspentCoin_of_spent hskip.2]
    · refine ⟨_, rfl, h.insert ⟨fun hd' => by simp at hd', fun hf => ?_, hclear⟩, ?_, ?_⟩
      · rw [← CacheView_of_lookup_none hp]
        exact hfresh hf
      · rw [CacheView_insert, if_pos rfl]
      · intro o' ho'
        rw [AList.lookup_insert_ne ho']
  | some eUs =>
    dsimp only
    have hshow : CacheView cacheCoins parent o = UnspentCoin eUs.coin := CacheView_of_lookup hp _
    split_ifs with hthrow herase
    · -- a fresh child entry over an unspent parent coin contradicts the child's fresh flag
      simp only [Bool.and_eq_true, Bool.not_eq_true'] at hthrow
      rw [hfresh hthrow.1, UnspentCoin_of_unspent hthrow.2] at hshow
      cases hshow
    · simp only [Bool.and_eq_true] at herase
      refine ⟨_, rfl, h.erase o, ?_, fun o' ho' => AList.lookup_erase_ne ho'⟩
      rw [CacheView_erase, if_pos rfl, (h o eUs hp).2.1 herase.1, UnspentCoin_of_spent herase.2]
    · refine ⟨_, rfl, h.insert ⟨fun hd' => by simp at hd', fun hf => (h o eUs hp).2.1 hf,
        hclear⟩, ?_, fun o' ho' => AList.lookup_insert_ne ho'⟩
      rw [CacheView_insert, if_pos rfl]

/-- Writing a list of child entries with distinct outpoints, each meeting the child's flags'
meaning over the parent's view, succeeds, keeps the parent's flags' meaning, and makes the
parent show, at each written outpoint, what the child showed there. The induction is on the
list, with the parent generalized. -/
theorem BatchWrite_entries_spec {parent : COutPoint → Option Coin} :
    ∀ (l : List (Σ _ : COutPoint, CCoinsCacheEntry)) (cacheCoins : CCoinsMap), l.NodupKeys →
      LayerOk cacheCoins parent →
      (∀ o e, e ∈ l.dlookup o →
        (e.dirty = false → CacheView cacheCoins parent o = some e.coin) ∧
        (e.fresh = true → (CacheView cacheCoins parent o).bind UnspentCoin = none) ∧
        (e.coin.IsSpent = true → e.coin = Coin.Empty)) →
      ∃ c', l.foldlM (fun cacheCoins p => BatchWriteEntry cacheCoins p.1 p.2) cacheCoins =
          .ok c' ∧ LayerOk c' parent ∧
        ∀ o, CacheView c' parent o =
          match l.dlookup o with
          | some e => UnspentCoin e.coin
          | none => CacheView cacheCoins parent o
  | [], cacheCoins, _, h, _ => ⟨cacheCoins, rfl, h, fun _ => rfl⟩
  | ⟨o, e⟩ :: l, cacheCoins, hnd, h, hl => by
    rw [List.nodupKeys_cons] at hnd
    obtain ⟨c₁, hw₁, h₁, hshow₁, hframe₁⟩ := BatchWriteEntry_spec h (hl o e (by simp))
    -- the later entries are at other outpoints, where the parent is unchanged
    have hsame : ∀ o', o' ∈ l.keys → CacheView c₁ parent o' = CacheView cacheCoins parent o' := by
      intro o' ho'
      have hne : o' ≠ o := fun h' => hnd.1 (h' ▸ ho')
      simp only [CacheView, hframe₁ o' hne]
    obtain ⟨c', hw', h', hshow'⟩ := BatchWrite_entries_spec l c₁ hnd.2 h₁ (by
      intro o' e' he'
      have ho' : o' ∈ l.keys := List.mem_keys_of_mem (List.mem_dlookup_iff hnd.2 |>.1 he')
      have hne : o' ≠ o := fun h' => hnd.1 (h' ▸ ho')
      rw [hsame o' ho']
      exact hl o' e' (by rwa [List.dlookup_cons_ne _ _ hne]))
    refine ⟨c', by rw [List.foldlM_cons, hw₁]; exact hw', h', fun o' => ?_⟩
    rw [hshow' o']
    by_cases ho : o' = o
    · subst ho
      rw [List.dlookup_eq_none.2 hnd.1, List.dlookup_cons_eq]
      exact hshow₁
    · rw [List.dlookup_cons_ne _ _ ho]
      cases hd : l.dlookup o' with
      | some _ => rfl
      | none => simp only [CacheView, hframe₁ o' ho]

/-- `BatchWrite` of a child cache meeting its flags' meaning over the parent's view succeeds,
keeps the parent's flags' meaning, and makes the parent show what the child showed. -/
theorem BatchWrite_spec {mapCoins cacheCoins : CCoinsMap} {parent : COutPoint → Option Coin}
    (hchild : LayerOk mapCoins (CacheView cacheCoins parent)) (h : LayerOk cacheCoins parent) :
    ∃ c', BatchWrite mapCoins cacheCoins = .ok c' ∧ LayerOk c' parent ∧
      CacheView c' parent = CacheView mapCoins (CacheView cacheCoins parent) := by
  obtain ⟨c', hw, h', hshow⟩ := BatchWrite_entries_spec mapCoins.entries cacheCoins
    mapCoins.nodupKeys h (fun o e he => hchild o e (by rwa [AList.lookup]))
  refine ⟨c', hw, h', funext fun o => ?_⟩
  rw [hshow o]
  cases hm : mapCoins.lookup o with
  | some e =>
    rw [CacheView_of_lookup hm]
    simp only [show mapCoins.entries.dlookup o = some e from hm]
  | none =>
    rw [CacheView_of_lookup_none hm, CacheView_bind]
    simp only [show mapCoins.entries.dlookup o = none from hm]

/-- One entry of `CCoinsViewDB::BatchWrite`. -/
theorem CCoinsViewDB_BatchWrite_step_lookup (db : CoinsMap) (o o' : COutPoint)
    (e : CCoinsCacheEntry) :
    (if e.dirty then (if e.coin.IsSpent then db.erase o else db.insert o e.coin) else db).lookup
        o' = if o' = o ∧ e.dirty then UnspentCoin e.coin else db.lookup o' := by
  by_cases ho : o' = o
  · subst ho
    cases hd : e.dirty
    · simp
    · cases hs : e.coin.IsSpent
      · simp [AList.lookup_insert, UnspentCoin_of_unspent hs]
      · simp [AList.lookup_erase, UnspentCoin_of_spent hs]
  · cases e.dirty
    · simp [ho]
    · cases e.coin.IsSpent
      · simp [AList.lookup_insert_ne ho, ho]
      · simp [AList.lookup_erase_ne ho, ho]

/-- Writing a list of cache entries with distinct outpoints into the database, where every
entry that is not dirty holds the stored coin, keeps the database storing unspent coins only and
makes it show, at each written outpoint, what the entry showed. -/
theorem CCoinsViewDB_BatchWrite_entries_spec :
    ∀ (l : List (Σ _ : COutPoint, CCoinsCacheEntry)) (db : CoinsMap), l.NodupKeys →
      StackOk db [] → (∀ o e, e ∈ l.dlookup o → e.dirty = false → db.lookup o = some e.coin) →
      let db' := l.foldl (fun db p =>
        if p.2.dirty then (if p.2.coin.IsSpent then db.erase p.1 else db.insert p.1 p.2.coin)
        else db) db
      StackOk db' [] ∧ ∀ o, (db'.lookup o).bind UnspentCoin =
        match l.dlookup o with
        | some e => UnspentCoin e.coin
        | none => (db.lookup o).bind UnspentCoin
  | [], db, _, hdb, _ => ⟨hdb, fun _ => rfl⟩
  | ⟨o, e⟩ :: l, db, hnd, hdb, hl => by
    rw [List.nodupKeys_cons] at hnd
    have hstep := CCoinsViewDB_BatchWrite_step_lookup db o
    set db₁ := if e.dirty then (if e.coin.IsSpent then db.erase o else db.insert o e.coin)
      else db with hdb₁
    -- the written entry stores an unspent coin or nothing
    have hok₁ : StackOk db₁ [] := by
      intro o' c hc
      rw [hstep o' e] at hc
      split_ifs at hc
      · obtain ⟨hun, rfl⟩ := unspent_of_UnspentCoin_eq_some hc
        exact hun
      · exact hdb o' c hc
    obtain ⟨hok', hshow'⟩ := CCoinsViewDB_BatchWrite_entries_spec l db₁ hnd.2 hok₁ (by
      intro o' e' he' hd'
      have ho' : o' ∈ l.keys := List.mem_keys_of_mem (List.mem_dlookup_iff hnd.2 |>.1 he')
      have hne : o' ≠ o := fun h' => hnd.1 (h' ▸ ho')
      rw [hstep o' e, if_neg (fun h => hne h.1)]
      exact hl o' e' (by rwa [List.dlookup_cons_ne _ _ hne]) hd')
    refine ⟨hok', fun o' => ?_⟩
    simp only [List.foldl_cons]
    rw [hshow' o']
    by_cases ho : o' = o
    · subst ho
      rw [List.dlookup_eq_none.2 hnd.1, List.dlookup_cons_eq, hstep]
      cases hd : e.dirty
      · -- an entry that is not dirty holds the stored coin
        rw [if_neg (by simp), hl o' e (by simp) hd, Option.bind_some]
      · simp
    · rw [List.dlookup_cons_ne _ _ ho]
      cases hd : l.dlookup o' with
      | some _ => rfl
      | none => rw [hstep, if_neg (fun h => ho h.1)]

/-- `CCoinsViewDB::BatchWrite` of a cache meeting its flags' meaning over the database keeps the
database storing unspent coins only and makes it show what the cache showed. -/
theorem CCoinsViewDB_BatchWrite_spec {mapCoins : CCoinsMap} {db : CoinsMap}
    (hchild : LayerOk mapCoins db.lookup) (hdb : StackOk db []) :
    StackOk (CCoinsViewDB.BatchWrite mapCoins db) [] ∧
      View (CCoinsViewDB.BatchWrite mapCoins db) [∅] = View db [mapCoins] := by
  obtain ⟨hok, hshow⟩ := CCoinsViewDB_BatchWrite_entries_spec mapCoins.entries db
    mapCoins.nodupKeys hdb (fun o e he hd => (hchild o e (by rwa [AList.lookup])).1 hd)
  refine ⟨hok, funext fun o => ?_⟩
  simp only [View]
  rw [CacheView_of_lookup_none (AList.lookup_empty o), CCoinsViewDB.BatchWrite]
  refine (hshow o).trans ?_
  cases hm : mapCoins.lookup o with
  | some e =>
    rw [CacheView_of_lookup hm]
    simp only [show mapCoins.entries.dlookup o = some e from hm]
  | none =>
    rw [CacheView_of_lookup_none hm]
    simp only [show mapCoins.entries.dlookup o = none from hm]
theorem CacheView_empty (parent : COutPoint → Option Coin) :
    CacheView ∅ parent = fun o => (parent o).bind UnspentCoin := by
  funext o
  exact CacheView_of_lookup_none (AList.lookup_empty o) parent

/-- An empty cache over a cache shows what that cache shows. -/
theorem View_empty_cons (db : CoinsMap) (layers : List CCoinsMap) (h : layers ≠ []) :
    View db (∅ :: layers) = View db layers := by
  cases layers with
  | nil => exact absurd rfl h
  | cons cacheCoins below =>
    funext o
    simp only [View, CacheView_empty]
    exact CacheView_bind _ _ _

/-- `Flush` of any cache succeeds, keeps the flags' meaning everywhere and changes no view: the
view below the flushed cache then shows what it showed. The induction is on the depth. -/
theorem FlushAt_spec :
    ∀ (k : Nat) (cacheCoins : CCoinsMap) (below : List CCoinsMap) (db : CoinsMap),
      StackOk db (cacheCoins :: below) →
      ∃ r, FlushAt k cacheCoins below db = .ok r ∧ StackOk r.2.2 (r.1 :: r.2.1) ∧
        View r.2.2 (r.1 :: r.2.1) = View db (cacheCoins :: below)
  | 0, cacheCoins, [], db, ⟨hc, hdb⟩ => by
    obtain ⟨hdb', hview⟩ := CCoinsViewDB_BatchWrite_spec hc hdb
    exact ⟨_, rfl, ⟨LayerOk_empty _, hdb'⟩, hview⟩
  | 0, cacheCoins, parent :: below, db, ⟨hc, hp, hbelow⟩ => by
    obtain ⟨parent', hw, hp', hview⟩ := BatchWrite_spec hc hp
    refine ⟨(∅, parent' :: below, db), by simp only [FlushAt, hw]; rfl,
      ⟨LayerOk_empty _, hp', hbelow⟩, ?_⟩
    rw [View_empty_cons db _ (List.cons_ne_nil _ _)]
    exact hview
  | _ + 1, cacheCoins, [], db, hok => ⟨_, rfl, hok, rfl⟩
  | k + 1, cacheCoins, parent :: below, db, ⟨hc, hrest⟩ => by
    obtain ⟨⟨parent', below', db'⟩, hr, hok', hview'⟩ := FlushAt_spec k parent below db hrest
    refine ⟨(cacheCoins, parent' :: below', db'), by simp only [FlushAt, hr]; rfl, ?_, ?_⟩
    · exact ⟨by rw [hview']; exact hc, hok'⟩
    · simp only [View] at hview' ⊢
      rw [hview']

/-- `Uncache` at any cache keeps the flags' meaning everywhere and changes no view. The
induction is on the depth. -/
theorem UncacheAt_spec (db : CoinsMap) (o : COutPoint) :
    ∀ (k : Nat) (cacheCoins : CCoinsMap) (below : List CCoinsMap),
      StackOk db (cacheCoins :: below) →
      StackOk db ((UncacheAt k cacheCoins below o).1 :: (UncacheAt k cacheCoins below o).2) ∧
        View db ((UncacheAt k cacheCoins below o).1 :: (UncacheAt k cacheCoins below o).2) =
          View db (cacheCoins :: below)
  | 0, cacheCoins, below, ⟨hc, hbelow⟩ => by
    obtain ⟨hc', hview⟩ := Uncache_spec hc o
    exact ⟨⟨hc', hbelow⟩, hview⟩
  | _ + 1, cacheCoins, [], hok => ⟨hok, rfl⟩
  | k + 1, cacheCoins, parent :: below, ⟨hc, hrest⟩ => by
    obtain ⟨hok', hview'⟩ := UncacheAt_spec db o k parent below hrest
    simp only [UncacheAt]
    refine ⟨⟨by rw [hview']; exact hc, hok'⟩, ?_⟩
    simp only [View] at hview' ⊢
    rw [hview']

/-! ### Writes at the top -/

/-- The entry `AddCoin` reads at `o` (the cached one, else a new clean one) holds a spent coin
when the cache shows no unspent coin and the add may not overwrite, and the entry it writes may
be fresh only where the view below shows no unspent coin. -/
theorem AddCoin_entry_spec {cacheCoins : CCoinsMap} {parent : COutPoint → Option Coin}
    (h : LayerOk cacheCoins parent) {o : COutPoint} {possible_overwrite : Bool}
    (hover : possible_overwrite = false → CacheView cacheCoins parent o = none) :
    let e := (cacheCoins.lookup o).getD ⟨Coin.Empty, false, false⟩
    (possible_overwrite = false → e.coin.IsSpent = true) ∧
      (e.fresh = true ∨ possible_overwrite = false ∧ e.dirty = false →
        (parent o).bind UnspentCoin = none) := by
  intro e
  cases hl : cacheCoins.lookup o with
  | none =>
    simp only [e, hl, Option.getD_none]
    refine ⟨fun _ => rfl, ?_⟩
    rintro (hf | ⟨hpo, -⟩)
    · cases hf
    · rw [← CacheView_of_lookup_none hl]
      exact hover hpo
  | some e' =>
    have hview := CacheView_of_lookup hl parent
    simp only [e, hl, Option.getD_some]
    refine ⟨fun hpo => ?_, ?_⟩
    · -- the cache shows no unspent coin, so its entry is spent
      cases hs : e'.coin.IsSpent
      · have hnone := hover hpo
        rw [hview, UnspentCoin_of_unspent hs] at hnone
        cases hnone
      · rfl
    · rintro (hf | ⟨hpo, hd⟩)
      · exact (h o e' hl).2.1 hf
      · rw [(h o e' hl).1 hd, Option.bind_some, ← hview]
        exact hover hpo

/-- `AddCoin` of an unspent coin, without `possible_overwrite` only where the cache shows no
unspent coin, succeeds, keeps the flags' meaning and shows the coin unless its script is
unspendable. -/
theorem AddCoin_layer_spec (db : CoinsMap) {cacheCoins : CCoinsMap}
    {parent : COutPoint → Option Coin} (h : LayerOk cacheCoins parent) {o : COutPoint}
    {coin : Coin} {possible_overwrite : Bool} (hcoin : coin.IsSpent = false)
    (hover : possible_overwrite = false → CacheView cacheCoins parent o = none) :
    ∃ view', CCoinsViewCache.AddCoin ⟨db, cacheCoins⟩ o coin possible_overwrite = .ok view' ∧
      view'.base = db ∧ LayerOk view'.cacheCoins parent ∧
      CacheView view'.cacheCoins parent =
        if IsUnspendable coin.out.scriptPubKey then CacheView cacheCoins parent
        else Function.update (CacheView cacheCoins parent) o (some coin) := by
  obtain ⟨hspent, hfresh⟩ := AddCoin_entry_spec h hover
  set e := (cacheCoins.lookup o).getD ⟨Coin.Empty, false, false⟩ with he
  by_cases hunsp : IsUnspendable coin.out.scriptPubKey = true
  · refine ⟨⟨db, cacheCoins⟩, ?_, rfl, h, by rw [if_pos hunsp]⟩
    simp only [CCoinsViewCache.AddCoin, hcoin, hunsp]
    rfl
  · -- the add does not throw: the entry it would overwrite is spent
    have hnothrow : (!possible_overwrite && !e.coin.IsSpent) = false := by
      cases possible_overwrite with
      | false => rw [hspent rfl]; rfl
      | true => rfl
    let e' : CCoinsCacheEntry := ⟨coin, true, e.fresh || (!possible_overwrite && !e.dirty)⟩
    refine ⟨⟨db, cacheCoins.insert o e'⟩, ?_, rfl,
      h.insert ⟨fun hd => Bool.noConfusion hd, fun hf => ?_, ?_⟩, ?_⟩
    · simp only [CCoinsViewCache.AddCoin, hcoin, hunsp, ← he, hnothrow]
      rfl
    · apply hfresh
      simpa [e'] using hf
    · intro hs
      rw [hcoin] at hs
      cases hs
    · funext o'
      rw [if_neg hunsp, CacheView_insert]
      by_cases ho : o' = o
      · rw [if_pos ho, ho, Function.update_self]
        exact UnspentCoin_of_unspent hcoin
      · rw [if_neg ho, Function.update_of_ne ho]

/-! ### The stack stands for one map of coins -/

/-- The operations on one map of unspent coins: an add stores its coin unless its script is
unspendable, a spend removes the coin, and the other operations change nothing. -/
def CoinsOp.Apply (M : COutPoint → Option Coin) : CoinsOp → COutPoint → Option Coin
  | .AddCoin o coin _ =>
    if IsUnspendable coin.out.scriptPubKey then M else Function.update M o (some coin)
  | .SpendCoin o => Function.update M o none
  | _ => M

/-- The map after a run of operations. -/
def CoinsOp.ApplyAll (M : COutPoint → Option Coin) (ops : List CoinsOp) :
    COutPoint → Option Coin :=
  ops.foldl CoinsOp.Apply M

/-- The requirement the source puts on an operation, read on the map: `AddCoin` of an unspent
coin, and without `possible_overwrite` only where the map holds no coin. -/
def CoinsOp.ValidOn (M : COutPoint → Option Coin) : CoinsOp → Prop
  | .AddCoin o coin possible_overwrite =>
    coin.IsSpent = false ∧ (possible_overwrite = false → M o = none)
  | _ => True

/-- Every operation of a run meets the requirement on the map it is applied to. -/
def CoinsOp.ValidAll : (COutPoint → Option Coin) → List CoinsOp → Prop
  | _, [] => True
  | M, op :: ops => op.ValidOn M ∧ CoinsOp.ValidAll (op.Apply M) ops

instance CoinsOp.decValidOn (M : COutPoint → Option Coin) (op : CoinsOp) :
    Decidable (op.ValidOn M) := by
  cases op <;> unfold CoinsOp.ValidOn <;> infer_instance

instance CoinsOp.decValidAll :
    ∀ (M : COutPoint → Option Coin) (ops : List CoinsOp), Decidable (CoinsOp.ValidAll M ops)
  | _, [] => isTrue trivial
  | M, op :: ops =>
    have := CoinsOp.decValidAll (op.Apply M) ops
    inferInstanceAs (Decidable (_ ∧ _))

namespace Stack

/-- The stack stands for the map `M`: the flags mean what they should at every cache, and the
top shows `M`. -/
structure Inv (s : Stack) (M : COutPoint → Option Coin) : Prop where
  ok : StackOk s.db (s.top :: s.below)
  view : View s.db (s.top :: s.below) = M

/-- What the source requires of an operation: `AddCoin` of an unspent coin, and without
`possible_overwrite` only where the top shows no unspent coin. -/
def Valid (s : Stack) : CoinsOp → Prop
  | .AddCoin o coin possible_overwrite =>
    coin.IsSpent = false ∧
      (possible_overwrite = false → View s.db (s.top :: s.below) o = none)
  | _ => True

/-- Every operation of a run is valid where it is applied. -/
def ValidRun : Stack → List CoinsOp → Prop
  | _, [] => True
  | s, op :: ops => s.Valid op ∧ ∀ s', s.Step op = .ok s' → ValidRun s' ops

theorem Inv_ofBase {db : CoinsMap} (hdb : ∀ o c, db.lookup o = some c → c.IsSpent = false) :
    (ofBase db).Inv db.lookup := by
  refine ⟨⟨LayerOk_empty _, hdb⟩, funext fun o => ?_⟩
  simp only [ofBase, View, CacheView_empty]
  cases h : db.lookup o with
  | none => rfl
  | some c => exact UnspentCoin_of_unspent (hdb o c h)

/-- `FetchCoin` at the top returns the entry it leaves there, which shows what the top showed,
and keeps `Inv`. -/
theorem FetchTop_spec {s : Stack} {M : COutPoint → Option Coin} (h : s.Inv M) (o : COutPoint) :
    (s.FetchTop o).2.Inv M ∧ (s.FetchTop o).2.db = s.db ∧
      (s.FetchTop o).2.top.lookup o = (s.FetchTop o).1 ∧
      ((s.FetchTop o).1.bind fun e => UnspentCoin e.coin) = M o := by
  obtain ⟨hget, hok, hview⟩ := GetCoin_spec s.db (s.top :: s.below) o h.ok
  have hlookup := FetchCoin_lookup s.top s.below (CoinsCache.GetCoin s.db s.below) o
  simp only [CoinsCache.GetCoin] at hget hok hview
  refine ⟨⟨hok, hview.trans h.view⟩, rfl, hlookup, hget.trans (congrFun h.view o)⟩

/-- The reads at the top return what the map holds. -/
theorem reads_spec {s : Stack} {M : COutPoint → Option Coin} (h : s.Inv M) (o : COutPoint) :
    (s.AccessCoin o).1 = (M o).getD Coin.Empty ∧ (s.HaveCoin o).1 = (M o).isSome ∧
      (s.GetCoin o).1 = M o := by
  obtain ⟨hinv, -, hlookup, hget⟩ := FetchTop_spec h o
  simp only [AccessCoin, HaveCoin, GetCoin]
  rw [← hget]
  cases hit : (s.FetchTop o).1 with
  | none => exact ⟨rfl, rfl, rfl⟩
  | some e =>
    cases hs : e.coin.IsSpent
    · simp [UnspentCoin_of_unspent hs, hs]
    · -- a spent entry holds the cleared coin
      rw [hit] at hlookup
      have hclear := (hinv.ok.1 o e hlookup).2.2 hs
      simp only [Option.elim_some, Option.bind_some, hclear, UnspentCoin_Empty]
      exact ⟨rfl, rfl, trivial⟩

/-- `SpendCoin` at the top removes the coin from the map: a fresh entry is erased, since the
view below shows no unspent coin there, and any other is cleared. -/
theorem SpendCoin_spec {s : Stack} {M : COutPoint → Option Coin} (h : s.Inv M) (o : COutPoint) :
    (s.SpendCoin o).2.Inv (Function.update M o none) := by
  obtain ⟨hinv, -, hlookup, hget⟩ := FetchTop_spec h o
  rcases hF : s.FetchTop o with ⟨_ | e, s'⟩
  · -- no coin anywhere: the map has none either
    rw [hF] at hinv hget
    have hM : (none : Option Coin) = M o := hget
    simp only [SpendCoin, hF]
    rw [Function.update_eq_self_iff.mpr hM]
    exact hinv
  · rw [hF] at hinv hlookup hget
    simp only [Option.bind_some] at hinv hlookup hget
    simp only [SpendCoin, hF]
    have hview := hinv.view
    refine ⟨⟨?_, hinv.ok.2⟩, funext fun o' => ?_⟩
    · split
      · exact hinv.ok.1.erase o
      · next hnf => exact hinv.ok.1.insert ⟨nofun, fun hf => absurd hf hnf, fun _ => rfl⟩
    · rw [← hview]
      by_cases ho : o' = o
      · subst ho
        rw [Function.update_self]
        split
        · -- a fresh entry: the view below shows no unspent coin
          next hf =>
          show CacheView (s'.top.erase o') (View s'.db s'.below) o' = none
          rw [CacheView_erase, if_pos rfl]
          exact (hinv.ok.1 o' e hlookup).2.1 hf
        · show CacheView (s'.top.insert o' _) (View s'.db s'.below) o' = none
          rw [CacheView_insert, if_pos rfl]
          exact UnspentCoin_Empty
      · rw [Function.update_of_ne ho]
        split
        · show CacheView (s'.top.erase o) (View s'.db s'.below) o' = _
          rw [CacheView_erase, if_neg ho]
          rfl
        · show CacheView (s'.top.insert o _) (View s'.db s'.below) o' = _
          rw [CacheView_insert, if_neg ho]
          rfl

theorem AddCoin_spec {s : Stack} {M : COutPoint → Option Coin} (h : s.Inv M) {o : COutPoint}
    {coin : Coin} {possible_overwrite : Bool} (hv : s.Valid (.AddCoin o coin possible_overwrite)) :
    ∃ s', s.AddCoin o coin possible_overwrite = .ok s' ∧
      s'.Inv (CoinsOp.Apply M (.AddCoin o coin possible_overwrite)) := by
  obtain ⟨hcoin, hover⟩ := hv
  obtain ⟨view', hadd, -, hok, hview⟩ := AddCoin_layer_spec s.db h.ok.1 hcoin hover
  have htop : CacheView s.top (View s.db s.below) = M := h.view
  refine ⟨{ s with top := view'.cacheCoins }, ?_, ⟨hok, h.ok.2⟩, ?_⟩
  · simp only [AddCoin, hadd]
    rfl
  · show CacheView view'.cacheCoins (View s.db s.below) = _
    rw [hview, htop]
    rfl

/-- Pushing an empty cache changes no view. -/
theorem Push_spec {s : Stack} {M : COutPoint → Option Coin} (h : s.Inv M) :
    Inv ⟨s.db, ∅, s.top :: s.below⟩ M :=
  ⟨⟨LayerOk_empty _, h.ok⟩, (View_empty_cons s.db _ (List.cons_ne_nil _ _)).trans h.view⟩

/-- Flushing and popping the top cache succeeds and changes no view. -/
theorem Pop_spec {s : Stack} {M : COutPoint → Option Coin} (h : s.Inv M) :
    ∃ s', s.Step .Pop = .ok s' ∧ s'.Inv M := by
  obtain ⟨db, top, below⟩ := s
  obtain ⟨⟨htop, hbelow⟩, hview⟩ := h
  cases below with
  | nil =>
    -- the last cache is written to the database and an empty one takes its place
    obtain ⟨hdb', hview'⟩ := CCoinsViewDB_BatchWrite_spec htop hbelow
    exact ⟨_, rfl, ⟨⟨LayerOk_empty _, hdb'⟩, hview'.trans hview⟩⟩
  | cons parent below =>
    obtain ⟨parent', hw, hp', hview'⟩ := BatchWrite_spec htop hbelow.1
    refine ⟨⟨db, parent', below⟩, by simp only [Step, hw]; rfl, ⟨⟨hp', hbelow.2⟩, ?_⟩⟩
    exact hview'.trans hview

/-- Every valid operation succeeds and moves the map as `CoinsOp.Apply` does. -/
theorem Step_spec {s : Stack} {M : COutPoint → Option Coin} (h : s.Inv M) {op : CoinsOp}
    (hv : s.Valid op) : ∃ s', s.Step op = .ok s' ∧ s'.Inv (CoinsOp.Apply M op) := by
  cases op with
  | AddCoin o coin possible_overwrite => exact AddCoin_spec h hv
  | SpendCoin o => exact ⟨_, rfl, SpendCoin_spec h o⟩
  | AccessCoin o => exact ⟨_, rfl, (FetchTop_spec h o).1⟩
  | HaveCoin o => exact ⟨_, rfl, (FetchTop_spec h o).1⟩
  | GetCoin o => exact ⟨_, rfl, (FetchTop_spec h o).1⟩
  | Uncache k o =>
    obtain ⟨hok, hview⟩ := UncacheAt_spec s.db o k s.top s.below h.ok
    rcases hU : UncacheAt k s.top s.below o with ⟨top, below⟩
    rw [hU] at hok hview
    exact ⟨⟨s.db, top, below⟩, by simp only [Step, hU], ⟨hok, hview.trans h.view⟩⟩
  | Flush k =>
    obtain ⟨⟨top, below, db⟩, hr, hok, hview⟩ := FlushAt_spec k s.top s.below s.db h.ok
    exact ⟨⟨db, top, below⟩, by simp only [Step, hr]; rfl, ⟨hok, hview.trans h.view⟩⟩
  | Push => exact ⟨_, rfl, Push_spec h⟩
  | Pop => exact Pop_spec h

/-- Every valid run succeeds and ends standing for the map the operations produce. The
induction is on the operations, carrying `Inv`. -/
theorem Run_spec :
    ∀ (ops : List CoinsOp) (s : Stack) (M : COutPoint → Option Coin), s.Inv M →
      s.ValidRun ops → ∃ s', s.Run ops = .ok s' ∧ s'.Inv (CoinsOp.ApplyAll M ops)
  | [], s, _, h, _ => ⟨s, rfl, h⟩
  | op :: ops, s, M, h, ⟨hv, hrest⟩ => by
    obtain ⟨s₁, hs₁, h₁⟩ := Step_spec h hv
    obtain ⟨s', hs', h'⟩ := Run_spec ops s₁ (CoinsOp.Apply M op) h₁ (hrest s₁ hs₁)
    refine ⟨s', ?_, h'⟩
    rw [Run, List.foldlM_cons, hs₁]
    exact hs'

/-- Along a run from a stack standing for `M`, the requirement read on the map is the one read
on the stack. -/
theorem ValidRun_of_ValidAll :
    ∀ (ops : List CoinsOp) (s : Stack) (M : COutPoint → Option Coin), s.Inv M →
      CoinsOp.ValidAll M ops → s.ValidRun ops
  | [], _, _, _, _ => trivial
  | op :: ops, s, M, h, ⟨hv, hrest⟩ => by
    have hvalid : s.Valid op := by
      cases op with
      | AddCoin o coin possible_overwrite =>
        exact ⟨hv.1, fun hpo => (congrFun h.view o).trans (hv.2 hpo)⟩
      | _ => trivial
    refine ⟨hvalid, fun s' hs' => ?_⟩
    -- the step is deterministic, so `s'` is the state `Step_spec` gives
    obtain ⟨s₁, hs₁, h₁⟩ := Step_spec h hvalid
    rw [hs₁, Except.ok.injEq] at hs'
    subst hs'
    exact ValidRun_of_ValidAll ops s₁ (CoinsOp.Apply M op) h₁ hrest

end Stack

end CoinsCache

/-- Over a database of unspent coins (the contract of a base view's `GetCoin`), every run of
operations that adds unspent coins, without `possible_overwrite` only where the top shows no
unspent coin, succeeds (no `BatchWrite` throws), and then the reads at the top return what one
map of coins updated by the adds and spends holds. -/
theorem coins_cache_stack_refines_map (db : CoinsMap)
    (hdb : ∀ o c, db.lookup o = some c → c.IsSpent = false) (ops : List CoinsCache.CoinsOp)
    (hvalid : (CoinsCache.Stack.ofBase db).ValidRun ops) :
    ∃ s, (CoinsCache.Stack.ofBase db).Run ops = .ok s ∧ ∀ o,
      (s.AccessCoin o).1 = (CoinsCache.CoinsOp.ApplyAll db.lookup ops o).getD Coin.Empty ∧
      (s.HaveCoin o).1 = (CoinsCache.CoinsOp.ApplyAll db.lookup ops o).isSome ∧
      (s.GetCoin o).1 = CoinsCache.CoinsOp.ApplyAll db.lookup ops o := by
  obtain ⟨s, hrun, hinv⟩ :=
    CoinsCache.Stack.Run_spec ops _ _ (CoinsCache.Stack.Inv_ofBase hdb) hvalid
  exact ⟨s, hrun, CoinsCache.Stack.reads_spec hinv⟩

/-- The empty database meets the contract of a base view. -/
theorem CoinsMap.empty_unspent :
    ∀ o c, (∅ : CoinsMap).lookup o = some c → c.IsSpent = false := fun o c h => by
  rw [AList.lookup_empty] at h
  cases h

/-- An outpoint and unspent coins with an empty script. -/
def SampleOutPoint : COutPoint := ⟨1, 0⟩

def SampleCoin : Coin := ⟨⟨5, []⟩, false, 1⟩

def SampleCoin2 : Coin := ⟨⟨7, []⟩, false, 2⟩

/-- An add without overwrite over an empty database, a pushed cache, a spend there (of an entry
copied as fresh from below), the pop that writes the spend down, a read, the coin added again
and a flush of the top cache into the database. -/
def SampleCoinsOps : List CoinsCache.CoinsOp :=
  [.AddCoin SampleOutPoint SampleCoin false, .Push, .SpendCoin SampleOutPoint, .Pop,
    .GetCoin SampleOutPoint, .AddCoin SampleOutPoint SampleCoin false, .Flush 0]

theorem coins_cache_stack_refines_map_sample :
    (∀ o c, (∅ : CoinsMap).lookup o = some c → c.IsSpent = false) ∧
      (CoinsCache.Stack.ofBase ∅).ValidRun SampleCoinsOps ∧
      ∃ s, (CoinsCache.Stack.ofBase ∅).Run SampleCoinsOps = .ok s ∧ ∀ o,
        (s.AccessCoin o).1 =
          (CoinsCache.CoinsOp.ApplyAll (∅ : CoinsMap).lookup SampleCoinsOps o).getD Coin.Empty ∧
        (s.HaveCoin o).1 =
          (CoinsCache.CoinsOp.ApplyAll (∅ : CoinsMap).lookup SampleCoinsOps o).isSome ∧
        (s.GetCoin o).1 = CoinsCache.CoinsOp.ApplyAll (∅ : CoinsMap).lookup SampleCoinsOps o :=
  have hvalid : (CoinsCache.Stack.ofBase ∅).ValidRun SampleCoinsOps :=
    CoinsCache.Stack.ValidRun_of_ValidAll SampleCoinsOps _ _
      (CoinsCache.Stack.Inv_ofBase CoinsMap.empty_unspent) (by decide)
  ⟨CoinsMap.empty_unspent, hvalid,
    coins_cache_stack_refines_map ∅ CoinsMap.empty_unspent SampleCoinsOps hvalid⟩

namespace CoinsCache

namespace Stack

/-! ### Why the requirement is read on the view -/

/-- `AddCoin` without `possible_overwrite` where the top cache has no entry, but a lower cache
shows an unspent coin `c`, succeeds and marks the new entry fresh; the spend that follows erases
that entry, and the top shows `c` again where the map holds no coin. -/
theorem AddCoin_fresh_over_lower_coin_resurrects {s : Stack} {M : COutPoint → Option Coin}
    (h : s.Inv M) {o : COutPoint} {coin c : Coin} (htop : s.top.lookup o = none)
    (hM : M o = some c) (hcoin : coin.IsSpent = false)
    (hsp : IsUnspendable coin.out.scriptPubKey = false) :
    ∃ s', s.AddCoin o coin false = .ok s' ∧ ((s'.SpendCoin o).2.GetCoin o).1 = some c ∧
      CoinsOp.ApplyAll M [.AddCoin o coin false, .SpendCoin o] o = none := by
  -- no entry to overwrite and none dirty, so the new entry is fresh
  let e : CCoinsCacheEntry := ⟨coin, true, true⟩
  have hadd : s.AddCoin o coin false = .ok { s with top := s.top.insert o e } := by
    simp only [AddCoin, CCoinsViewCache.AddCoin, hcoin, hsp, htop, Option.getD_none,
      Coin.IsSpent_Empty]
    rfl
  have hspend : (Stack.SpendCoin { s with top := s.top.insert o e } o).2 =
      { s with top := (s.top.insert o e).erase o } := by
    simp only [SpendCoin, FetchTop, FetchCoin, AList.lookup_insert]
    rfl
  -- after the spend the top stands for `M` again, which shows `c`
  have hview : CacheView ((s.top.insert o e).erase o) (View s.db s.below) = M := by
    funext o'
    have htopM : CacheView s.top (View s.db s.below) = M := h.view
    rw [CacheView_erase, ← htopM, CacheView_insert]
    by_cases ho : o' = o
    · rw [if_pos ho, ho, CacheView_of_lookup_none htop]
    · rw [if_neg ho, if_neg ho]
  have hinv : Inv { s with top := (s.top.insert o e).erase o } M :=
    ⟨⟨h.ok.1.erase_insert o e, h.ok.2⟩, hview⟩
  refine ⟨_, hadd, ?_, ?_⟩
  · rw [hspend, (reads_spec hinv o).2.2, hM]
  · simp only [CoinsOp.ApplyAll, List.foldl_cons, List.foldl_nil, CoinsOp.Apply, hsp,
      Bool.false_eq_true, if_false, Function.update_self]

/-- The stack after an add without overwrite over an empty database and a push: the coin sits,
fresh, in the cache below an empty top. -/
def FreshOverLowerStack : Stack :=
  ⟨∅, ∅, [AList.insert SampleOutPoint ⟨SampleCoin, true, true⟩ ∅]⟩

/-- The operations that build `FreshOverLowerStack` from an empty database. -/
def FreshOverLowerOps : List CoinsOp := [.AddCoin SampleOutPoint SampleCoin false, .Push]

theorem FreshOverLowerStack_Inv :
    FreshOverLowerStack.Inv (CoinsOp.ApplyAll (∅ : CoinsMap).lookup FreshOverLowerOps) := by
  obtain ⟨s, hrun, hinv⟩ := Run_spec FreshOverLowerOps _ _ (Inv_ofBase CoinsMap.empty_unspent)
    (ValidRun_of_ValidAll FreshOverLowerOps _ _ (Inv_ofBase CoinsMap.empty_unspent) (by decide))
  have hS : (ofBase ∅).Run FreshOverLowerOps = .ok FreshOverLowerStack := rfl
  rw [hS, Except.ok.injEq] at hrun
  rw [hrun]
  exact hinv

theorem AddCoin_fresh_over_lower_coin_resurrects_sample :
    FreshOverLowerStack.top.lookup SampleOutPoint = none ∧
      CoinsOp.ApplyAll (∅ : CoinsMap).lookup FreshOverLowerOps SampleOutPoint = some SampleCoin ∧
      SampleCoin2.IsSpent = false ∧ IsUnspendable SampleCoin2.out.scriptPubKey = false ∧
      ∃ s', FreshOverLowerStack.AddCoin SampleOutPoint SampleCoin2 false = .ok s' ∧
        ((s'.SpendCoin SampleOutPoint).2.GetCoin SampleOutPoint).1 = some SampleCoin ∧
        CoinsOp.ApplyAll (CoinsOp.ApplyAll (∅ : CoinsMap).lookup FreshOverLowerOps)
          [.AddCoin SampleOutPoint SampleCoin2 false, .SpendCoin SampleOutPoint]
          SampleOutPoint = none :=
  ⟨rfl, by decide, rfl, by decide,
    AddCoin_fresh_over_lower_coin_resurrects FreshOverLowerStack_Inv rfl (by decide) rfl
      (by decide)⟩

end Stack

end CoinsCache

end Ravencoin
