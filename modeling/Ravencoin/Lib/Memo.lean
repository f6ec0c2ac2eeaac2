import Mathlib.Data.List.AList

/-!
# Memoised recursion along predecessor chains

A value defined on the nodes of a forest by recursion along the predecessor map,
`Ref none = base` and `Ref (some k) = step (Ref (prev k)) k`, can be computed with a cache:
walk back from the node until one whose value the cache holds, the root, or a node whose value
a shortcut gives, and record that value; then walk forward over the nodes passed, applying
`step` and caching every value. When every entry of the cache and every shortcut agrees with the
recursion, the walk returns the recursion's value and leaves a cache that still agrees with it,
whatever the cache held before and in whatever order earlier queries were made.

## Main definitions

* `Memo.Forest` — a predecessor map with a rank that decreases along it.
* `Memo.Forest.Ref` — the value the recursion defines.
* `Memo.WalkBack`, `Memo.WalkForward`, `Memo.Run` — the cached computation.
* `Memo.Forest.Sound` — every cache entry is the recursion's value.

## Main results

* `Memo.Forest.WalkForward_spec` — walking forward along a chain from the value of its bottom
  gives the value of its top and caches only values of the recursion.
* `Memo.Forest.WalkBack_spec` — walking back from a node ends at a node whose value is cached,
  having passed a chain from it to the node.
* `Memo.Forest.Run_spec` — the cached computation returns the recursion's value and keeps the
  cache sound.

## Implementation notes

The walk back runs on fuel; one more than the rank of the node suffices
(`Memo.Forest.Measure`). The cache is an association list keyed by `Option K`, the root being
`none`.
-/

set_option autoImplicit false

universe u v

namespace Memo

variable {K : Type u} {S : Type v}

/-! ### The recursion -/

/-- A forest: a predecessor map along which a rank decreases. -/
structure Forest (K : Type u) where
  prev : K → Option K
  rank : K → Nat
  rank_prev : ∀ k k', prev k = some k' → rank k' < rank k

namespace Forest

variable (F : Forest K) (step : S → K → S) (base : S)

/-- The rank of an optional node: `0` at the root. -/
def Measure : Option K → Nat
  | none => 0
  | some k => F.rank k + 1

theorem Measure_prev_lt (k : K) : F.Measure (F.prev k) < F.Measure (some k) := by
  cases h : F.prev k with
  | none => simp [Measure]
  | some k' =>
    have := F.rank_prev k k' h
    simp only [Measure]
    omega

/-- The value the recursion defines. -/
def Ref : Option K → S
  | none => base
  | some k => step (Ref (F.prev k)) k
termination_by o => F.Measure o
decreasing_by exact F.Measure_prev_lt k

@[simp] theorem Ref_none : F.Ref step base none = base := by
  rw [Ref]

theorem Ref_some (k : K) : F.Ref step base (some k) = step (F.Ref step base (F.prev k)) k := by
  rw [Ref]

/-- `Chain o todo q`: the nodes of `todo`, in order, lead from `o` up to `q`, each the
successor of the one before. -/
def Chain : Option K → List K → Option K → Prop
  | o, [], q => q = o
  | o, k :: todo, q => F.prev k = o ∧ Chain (some k) todo q

end Forest

/-! ### The cached computation -/

variable [DecidableEq K]

/-- A cache of values by node, the root `none` included. -/
abbrev Cache (K : Type u) (S : Type v) := AList fun _ : Option K => S

/-- The walk back: stop at a node whose value the cache holds; at the root, cache `base`; at a
node with a shortcut, cache the shortcut's value; otherwise pass the node and go to its
predecessor. The result is the node stopped at, the cache, and the nodes passed, the last
passed first. -/
def WalkBack (prev : K → Option K) (base : S) (shortcut : K → Option S) :
    Nat → Option K → Cache K S → List K → Option K × Cache K S × List K
  | 0, o, cache, todo => (o, cache, todo)
  | fuel + 1, o, cache, todo =>
    if (cache.lookup o).isSome then (o, cache, todo)
    else
      match o with
      | none => (none, cache.insert none base, todo)
      | some k =>
        match shortcut k with
        | some v => (some k, cache.insert (some k) v, todo)
        | none => WalkBack prev base shortcut fuel (prev k) cache (k :: todo)

section WalkBack

variable {prev : K → Option K} {base : S} {shortcut : K → Option S} {fuel : Nat}
  {o : Option K} {cache : Cache K S} {todo : List K}

theorem WalkBack_hit (h : (cache.lookup o).isSome) :
    WalkBack prev base shortcut (fuel + 1) o cache todo = (o, cache, todo) := by
  -- the equations of the walk are split by the node, so the node is split here too
  cases o <;> rw [WalkBack, if_pos h]

theorem WalkBack_root (h : ¬(cache.lookup none).isSome) :
    WalkBack prev base shortcut (fuel + 1) none cache todo =
      (none, cache.insert none base, todo) := by
  rw [WalkBack, if_neg h]

theorem WalkBack_shortcut {k : K} {v : S} (h : ¬(cache.lookup (some k)).isSome)
    (hk : shortcut k = some v) :
    WalkBack prev base shortcut (fuel + 1) (some k) cache todo =
      (some k, cache.insert (some k) v, todo) := by
  rw [WalkBack, if_neg h]
  simp only [hk]

theorem WalkBack_pass {k : K} (h : ¬(cache.lookup (some k)).isSome) (hk : shortcut k = none) :
    WalkBack prev base shortcut (fuel + 1) (some k) cache todo =
      WalkBack prev base shortcut fuel (prev k) cache (k :: todo) := by
  rw [WalkBack, if_neg h]
  simp only [hk]

end WalkBack

/-- The walk forward: apply `step` to each node in turn and cache each value. -/
def WalkForward (step : S → K → S) : List K → S → Cache K S → S × Cache K S
  | [], s, cache => (s, cache)
  | k :: todo, s, cache =>
    let s := step s k
    WalkForward step todo s (cache.insert (some k) s)

/-- The cached computation: walk back, read the value of the node stopped at, walk forward. -/
def Run (prev : K → Option K) (base : S) (shortcut : K → Option S) (step : S → K → S)
    (fuel : Nat) (o : Option K) (cache : Cache K S) : S × Cache K S :=
  let (o, cache, todo) := WalkBack prev base shortcut fuel o cache []
  WalkForward step todo ((cache.lookup o).getD base) cache

namespace Forest

variable (F : Forest K) (step : S → K → S) (base : S)

/-- Every entry of the cache is the recursion's value. -/
def Sound (cache : Cache K S) : Prop :=
  ∀ o v, cache.lookup o = some v → v = F.Ref step base o

/-- Every value a shortcut gives is the recursion's value. -/
def ShortcutSound (shortcut : K → Option S) : Prop :=
  ∀ k v, shortcut k = some v → v = F.Ref step base (some k)

theorem Sound_empty : F.Sound step base ∅ := by
  intro o v h
  simp at h

/-- Adding the recursion's value keeps a cache sound. -/
theorem Sound.insert {cache : Cache K S} (h : F.Sound step base cache) (o : Option K) :
    F.Sound step base (cache.insert o (F.Ref step base o)) := by
  intro o' v hv
  by_cases ho : o' = o
  · subst ho
    rw [AList.lookup_insert] at hv
    exact (Option.some.inj hv).symm
  · rw [AList.lookup_insert_ne ho] at hv
    exact h o' v hv

/-- Walking forward along a chain from the value of its bottom gives the value of its top and
caches only values of the recursion. -/
theorem WalkForward_spec {todo : List K} {o q : Option K} {cache : Cache K S}
    (hchain : F.Chain o todo q) (hcache : F.Sound step base cache) :
    (WalkForward step todo (F.Ref step base o) cache).1 = F.Ref step base q ∧
      F.Sound step base (WalkForward step todo (F.Ref step base o) cache).2 := by
  induction todo generalizing o cache with
  | nil =>
    simp only [Chain] at hchain
    subst hchain
    exact ⟨rfl, hcache⟩
  | cons k todo ih =>
    obtain ⟨hprev, hrest⟩ := hchain
    -- the value cached at `k` is `Ref (some k)`, by the recursion's equation at `k`
    have hstep : step (F.Ref step base o) k = F.Ref step base (some k) := by
      rw [Ref_some, hprev]
    simp only [WalkForward, hstep]
    exact ih hrest (hcache.insert F step base (some k))

/-- The walk back ends at a node whose value the cache then holds, with a sound cache, and the
nodes it passed, put before `todo`, lead from that node to wherever `todo` led from the start. -/
theorem WalkBack_spec {shortcut : K → Option S} (hshort : F.ShortcutSound step base shortcut)
    {fuel : Nat} {o : Option K} {cache : Cache K S} (todo : List K)
    (hfuel : F.Measure o < fuel) (hcache : F.Sound step base cache) :
    let r := WalkBack F.prev base shortcut fuel o cache todo
    r.2.1.lookup r.1 = some (F.Ref step base r.1) ∧ F.Sound step base r.2.1 ∧
      ∀ q, F.Chain o todo q → F.Chain r.1 r.2.2 q := by
  induction fuel generalizing o cache todo with
  | zero => omega
  | succ fuel ih =>
    dsimp only
    by_cases hhit : (cache.lookup o).isSome
    · -- a cached node: its entry is the recursion's value
      rw [WalkBack_hit hhit]
      obtain ⟨v, hv⟩ := Option.isSome_iff_exists.1 hhit
      exact ⟨by rw [hv, ← hcache o v hv], hcache, fun q hq => hq⟩
    cases o with
    | none =>
      rw [WalkBack_root hhit]
      refine ⟨by simp, ?_, fun q hq => hq⟩
      simpa using hcache.insert F step base none
    | some k =>
      cases hk : shortcut k with
      | some v =>
        rw [WalkBack_shortcut hhit hk, hshort k v hk]
        exact ⟨by simp, hcache.insert F step base (some k), fun q hq => hq⟩
      | none =>
        -- a passed node: recurse on its predecessor with the node put before `todo`
        rw [WalkBack_pass hhit hk]
        have hlt : F.Measure (F.prev k) < fuel := by
          have := F.Measure_prev_lt k
          omega
        obtain ⟨h1, h2, h3⟩ := ih (k :: todo) hlt hcache
        exact ⟨h1, h2, fun q hq => h3 q ⟨rfl, hq⟩⟩

/-- The cached computation returns the recursion's value and keeps the cache sound. -/
theorem Run_spec {shortcut : K → Option S} (hshort : F.ShortcutSound step base shortcut)
    {fuel : Nat} {o : Option K} {cache : Cache K S}
    (hfuel : F.Measure o < fuel) (hcache : F.Sound step base cache) :
    (Run F.prev base shortcut step fuel o cache).1 = F.Ref step base o ∧
      F.Sound step base (Run F.prev base shortcut step fuel o cache).2 := by
  obtain ⟨hlookup, hsound, hchain⟩ :=
    F.WalkBack_spec step base hshort [] hfuel hcache
  have hstart : ((WalkBack F.prev base shortcut fuel o cache []).2.1.lookup
      (WalkBack F.prev base shortcut fuel o cache []).1).getD base =
      F.Ref step base (WalkBack F.prev base shortcut fuel o cache []).1 := by
    rw [hlookup]
    rfl
  simp only [Run, hstart]
  exact F.WalkForward_spec step base (hchain o rfl) hsound

end Forest

end Memo
