import Mathlib.Data.List.Nodup
import Mathlib.Data.List.Induction

/-!
# Least-recently-used caches

A bounded cache that keeps its entries in order of use: `Put` and `Get` move an entry to the
front, and a `Put` that takes the cache over its bound drops the entry at the back. The
cache is a partial map that may forget entries but never invents one.

## Main definitions

* `LRUCache κ ν` — the entries, most recently used first, with distinct keys.
* `LRUCache.Put`, `LRUCache.Erase`, `LRUCache.Get`, `LRUCache.Exists`.
* `LRUCache.Agrees c m` — every entry of `c` is the value the map `m` holds.
* `LRUOp`, `LRUCache.Run` — sequences of operations, and `lastPut`, `lastUse`, what a sequence
  put last for a key and when it last used it.

## Main results

* `LRUCache.lookup_Put_of_ne`, `LRUCache.lookup_Erase`, `LRUCache.lookup_Get` — what each
  operation does to lookups.
* `LRUCache.length_Put_le`, `LRUCache.length_Run_le` — a `Put`, and so every run, keeps the
  cache within its bound.
* `LRUCache.Agrees.Put`, `LRUCache.Agrees.Erase`, `LRUCache.Agrees.Get` — a cache that agrees
  with a store keeps agreeing when it is updated together with the store.
* `LRUCache.PutsAgree_ByRecency_Run` — along every sequence of operations from the empty cache,
  each cached value is the one of the last `Put` of its key (`lastPut`), and the entries are in
  decreasing order of their last `Put` or `Get` (`lastUse`).
* `LRUCache.ByRecency.Put_evicts` — in such a cache, a `Put` of a new key into a full cache
  drops exactly the key used least recently.

## Design

The C++ keeps a list of entries and a hash map from keys to list nodes; the map is an index
of the list. The model keeps the list and looks keys up in it.
-/

set_option autoImplicit false

universe u v

/-- An LRU cache: the entries, most recently used first, no two with the same key. -/
structure LRUCache (κ : Type u) (ν : Type v) where
  items : List (κ × ν)
  maxSize : Nat
  nodup : (items.map Prod.fst).Nodup

namespace LRUCache

variable {κ : Type u} {ν : Type v} [DecidableEq κ]

/-- The empty cache with bound `maxSize`. -/
def empty (maxSize : Nat) : LRUCache κ ν := ⟨[], maxSize, List.nodup_nil⟩

/-- The value cached for a key. -/
def lookup (c : LRUCache κ ν) (k : κ) : Option ν :=
  (c.items.find? fun e => e.1 = k).map Prod.snd

/-- `Exists`. -/
def Exists (c : LRUCache κ ν) (k : κ) : Bool := (c.lookup k).isSome

/-- The entries other than the one of `k`. -/
def without (l : List (κ × ν)) (k : κ) : List (κ × ν) := l.filter fun e => e.1 ≠ k

theorem nodup_without {l : List (κ × ν)} (hl : (l.map Prod.fst).Nodup) (k : κ) :
    ((without l k).map Prod.fst).Nodup :=
  (List.filter_sublist.map Prod.fst).nodup hl

theorem nodup_cons_without {l : List (κ × ν)} (hl : (l.map Prod.fst).Nodup) (k : κ) (v : ν) :
    (((k, v) :: without l k).map Prod.fst).Nodup := by
  rw [List.map_cons, List.nodup_cons]
  refine ⟨?_, nodup_without hl k⟩
  simp [without]

/-- The eviction of `Put`: past the bound, the last entry is dropped. -/
def evict (maxSize : Nat) (l : List (κ × ν)) : List (κ × ν) :=
  if l.length > maxSize then l.dropLast else l

omit [DecidableEq κ] in
theorem evict_sublist (maxSize : Nat) (l : List (κ × ν)) : (evict maxSize l).Sublist l := by
  unfold evict
  split_ifs
  · exact List.dropLast_sublist l
  · exact List.Sublist.refl l

/-- `Put`: the entry goes to the front, then the eviction. -/
def Put (c : LRUCache κ ν) (k : κ) (v : ν) : LRUCache κ ν :=
  ⟨evict c.maxSize ((k, v) :: without c.items k), c.maxSize,
    ((evict_sublist _ _).map Prod.fst).nodup (nodup_cons_without c.nodup k v)⟩

/-- `Erase`. -/
def Erase (c : LRUCache κ ν) (k : κ) : LRUCache κ ν :=
  ⟨without c.items k, c.maxSize, nodup_without c.nodup k⟩

/-- `Get`: the value, and the cache with the entry moved to the front; `none` where the C++
throws `std::range_error`. -/
def Get (c : LRUCache κ ν) (k : κ) : Option (ν × LRUCache κ ν) :=
  match c.lookup k with
  | none => none
  | some v => some (v, ⟨(k, v) :: without c.items k, c.maxSize, nodup_cons_without c.nodup k v⟩)

/-! ### Lookups -/

theorem lookup_eq_some_iff (c : LRUCache κ ν) (k : κ) (v : ν) :
    c.lookup k = some v ↔ (k, v) ∈ c.items := by
  constructor
  · intro h
    obtain ⟨e, he, rfl⟩ := Option.map_eq_some_iff.1 h
    have hk : e.1 = k := by simpa using List.find?_some he
    have hmem := List.mem_of_find?_eq_some he
    rw [← hk]
    exact hmem
  · intro hmem
    obtain ⟨e, he⟩ : ∃ e, c.items.find? (fun e => e.1 = k) = some e := by
      apply Option.isSome_iff_exists.1
      rw [List.find?_isSome]
      exact ⟨(k, v), hmem, by simp⟩
    have hk : e.1 = k := by simpa using List.find?_some he
    have heq : e = (k, v) :=
      List.inj_on_of_nodup_map c.nodup (List.mem_of_find?_eq_some he) hmem hk
    simp [lookup, he, heq]

theorem mem_without {l : List (κ × ν)} {k : κ} {e : κ × ν} :
    e ∈ without l k ↔ e ∈ l ∧ e.1 ≠ k := by
  simp [without]

/-- A `Put` never invents an entry: apart from its own key, it only forgets. -/
theorem lookup_Put_of_ne (c : LRUCache κ ν) {k k' : κ} (v : ν) {w : ν} (hne : k' ≠ k)
    (h : (c.Put k v).lookup k' = some w) : c.lookup k' = some w := by
  rw [lookup_eq_some_iff] at h ⊢
  have hmem : (k', w) ∈ (k, v) :: without c.items k := (evict_sublist _ _).subset h
  rcases List.mem_cons.1 hmem with heq | hw
  · exact absurd (congrArg Prod.fst heq) hne
  · exact (mem_without.1 hw).1

theorem lookup_Erase (c : LRUCache κ ν) (k k' : κ) :
    (c.Erase k).lookup k' = if k' = k then none else c.lookup k' := by
  split_ifs with hk
  · subst hk
    cases h : (c.Erase k').lookup k' with
    | none => rfl
    | some w =>
      rw [lookup_eq_some_iff] at h
      exact absurd rfl (mem_without.1 h).2
  · apply Option.ext
    intro w
    rw [lookup_eq_some_iff, lookup_eq_some_iff]
    exact ⟨fun h => (mem_without.1 h).1, fun h => mem_without.2 ⟨h, hk⟩⟩

/-- A `Get` changes the order of use, not the lookups. -/
theorem lookup_Get {c c' : LRUCache κ ν} {k : κ} {v : ν} (h : c.Get k = some (v, c'))
    (k' : κ) : c'.lookup k' = c.lookup k' := by
  unfold Get at h
  split at h
  · cases h
  · next w hw =>
    cases h
    apply Option.ext
    intro u
    rw [lookup_eq_some_iff, lookup_eq_some_iff, List.mem_cons, mem_without]
    rw [lookup_eq_some_iff] at hw
    constructor
    · rintro (heq | ⟨hmem, -⟩)
      · rw [heq]
        exact hw
      · exact hmem
    · intro hmem
      by_cases hk : k' = k
      · subst hk
        left
        rw [List.inj_on_of_nodup_map c.nodup hmem hw rfl]
      · exact Or.inr ⟨hmem, hk⟩

/-- A `Put` keeps a cache within its bound. -/
theorem length_Put_le (c : LRUCache κ ν) (k : κ) (v : ν) (h : c.items.length ≤ c.maxSize) :
    (c.Put k v).items.length ≤ c.maxSize := by
  have hw : (without c.items k).length ≤ c.items.length := List.length_filter_le _ _
  simp only [Put, evict]
  split_ifs with hlen
  · simp only [List.length_dropLast, List.length_cons]
    omega
  · simp only [List.length_cons] at *
    omega

/-! ### Agreement with a store -/

/-- Every entry of the cache is the value the store holds for its key. -/
def Agrees (c : LRUCache κ ν) (m : κ → Option ν) : Prop :=
  ∀ k v, c.lookup k = some v → m k = some v

theorem Agrees.Put {c : LRUCache κ ν} {m : κ → Option ν} (h : c.Agrees m) (k : κ) (v : ν)
    (m' : κ → Option ν) (hk : m' k = some v) (hother : ∀ k', k' ≠ k → m' k' = m k') :
    (c.Put k v).Agrees m' := by
  intro k' w hw
  by_cases hkk : k' = k
  · subst hkk
    have hmem : (k', w) ∈ (k', v) :: without c.items k' := by
      rw [lookup_eq_some_iff] at hw
      exact (evict_sublist _ _).subset hw
    rcases List.mem_cons.1 hmem with heq | hmem'
    · rw [hk, (Prod.mk.inj heq).2]
    · exact absurd rfl (mem_without.1 hmem').2
  · rw [hother k' hkk]
    exact h k' w (lookup_Put_of_ne c v hkk hw)

theorem Agrees.Erase {c : LRUCache κ ν} {m : κ → Option ν} (h : c.Agrees m) (k : κ)
    (m' : κ → Option ν) (hother : ∀ k', k' ≠ k → m' k' = m k') : (c.Erase k).Agrees m' := by
  intro k' w hw
  rw [lookup_Erase] at hw
  split_ifs at hw with hkk
  rw [hother k' hkk]
  exact h k' w hw

theorem Agrees.Get {c c' : LRUCache κ ν} {m : κ → Option ν} (h : c.Agrees m) {k : κ} {v : ν}
    (hget : c.Get k = some (v, c')) : c'.Agrees m := by
  intro k' w hw
  rw [lookup_Get hget] at hw
  exact h k' w hw

end LRUCache

/-! ### Sequences of operations -/

/-- An operation on an LRU cache. -/
inductive LRUOp (κ : Type u) (ν : Type v)
  | Put (key : κ) (value : ν)
  | Get (key : κ)
  | Erase (key : κ)
  | Exists (key : κ)

namespace LRUOp

variable {κ : Type u} {ν : Type v} [DecidableEq κ]

/-- The key an operation puts or reads, which it makes the most recently used. -/
def used : LRUOp κ ν → Option κ
  | Put k _ => some k
  | Get k => some k
  | Erase _ => none
  | Exists _ => none

/-- How one operation changes the value last put for `k`: a `Put` of `k` sets it and an
`Erase` of `k` clears it. -/
def putStep (k : κ) (r : Option ν) : LRUOp κ ν → Option ν
  | Put k' v => if k' = k then some v else r
  | Erase k' => if k' = k then none else r
  | Get _ => r
  | Exists _ => r

end LRUOp

section Trace

variable {κ : Type u} {ν : Type v} [DecidableEq κ]

/-- The value of the most recent `Put` of `k` in `ops`, unless an `Erase` of `k` came after
it. -/
def lastPut (ops : List (LRUOp κ ν)) (k : κ) : Option ν :=
  ops.foldl (LRUOp.putStep k) none

/-- One more than the position in `ops` of the last `Put` or `Get` of `k`, and `0` if there is
none. -/
def lastUse (ops : List (LRUOp κ ν)) (k : κ) : Nat :=
  ops.length - (ops.reverse.findIdx? fun op => op.used = some k).getD ops.length

theorem lastPut_append_singleton (ops : List (LRUOp κ ν)) (op : LRUOp κ ν) (k : κ) :
    lastPut (ops ++ [op]) k = op.putStep k (lastPut ops k) := by
  rw [lastPut, List.foldl_append, List.foldl_cons, List.foldl_nil, lastPut]

theorem lastUse_append_singleton (ops : List (LRUOp κ ν)) (op : LRUOp κ ν) (k : κ) :
    lastUse (ops ++ [op]) k = if op.used = some k then ops.length + 1 else lastUse ops k := by
  rw [lastUse, lastUse, List.reverse_append, List.reverse_singleton, List.singleton_append,
    List.findIdx?_cons, List.length_append, List.length_singleton]
  by_cases hop : op.used = some k
  · simp [hop]
  · -- the position found in the longer reversed list is one more
    cases ops.reverse.findIdx? fun op => op.used = some k <;> simp [hop]

theorem lastUse_le (ops : List (LRUOp κ ν)) (k : κ) : lastUse ops k ≤ ops.length :=
  Nat.sub_le _ _

end Trace

namespace LRUCache

variable {κ : Type u} {ν : Type v} [DecidableEq κ]

/-- One operation; a `Get` of a missing key, which throws in the C++, leaves the cache as it
is. -/
def Step (c : LRUCache κ ν) : LRUOp κ ν → LRUCache κ ν
  | .Put k v => c.Put k v
  | .Get k =>
    match c.Get k with
    | some (_, c') => c'
    | none => c
  | .Erase k => c.Erase k
  | .Exists _ => c

/-- A sequence of operations, the first one first. -/
def Run (c : LRUCache κ ν) (ops : List (LRUOp κ ν)) : LRUCache κ ν :=
  ops.foldl Step c

theorem Run_append_singleton (c : LRUCache κ ν) (ops : List (LRUOp κ ν)) (op : LRUOp κ ν) :
    c.Run (ops ++ [op]) = (c.Run ops).Step op := by
  rw [Run, List.foldl_append, List.foldl_cons, List.foldl_nil, Run]

theorem Exists_iff (c : LRUCache κ ν) (k : κ) : c.Exists k = true ↔ k ∈ c.items.map Prod.fst := by
  rw [Exists, Option.isSome_iff_exists, List.mem_map]
  constructor
  · rintro ⟨v, hv⟩
    exact ⟨(k, v), (lookup_eq_some_iff c k v).1 hv, rfl⟩
  · rintro ⟨⟨k', v⟩, hmem, rfl⟩
    exact ⟨v, (lookup_eq_some_iff c k' v).2 hmem⟩

theorem lookup_eq_none_iff (c : LRUCache κ ν) (k : κ) :
    c.lookup k = none ↔ k ∉ c.items.map Prod.fst := by
  rw [← Exists_iff, Exists, Option.not_isSome_iff_eq_none]

/-- A `Get` only moves the entry it finds to the front. -/
theorem items_Get {c c' : LRUCache κ ν} {k : κ} {v : ν} (h : c.Get k = some (v, c')) :
    c'.items = (k, v) :: without c.items k ∧ (k, v) ∈ c.items ∧ c'.maxSize = c.maxSize := by
  unfold Get at h
  split at h
  · cases h
  · next w hw =>
    cases h
    exact ⟨rfl, (lookup_eq_some_iff c k v).1 hw, rfl⟩

theorem Get_eq_none_iff (c : LRUCache κ ν) (k : κ) : c.Get k = none ↔ c.lookup k = none := by
  unfold Get
  split <;> simp_all

/-- The entry of a key and the others make up the whole list. -/
theorem perm_cons_without {l : List (κ × ν)} (hl : (l.map Prod.fst).Nodup) {k : κ} {v : ν}
    (hmem : (k, v) ∈ l) : ((k, v) :: without l k).Perm l := by
  refine (List.perm_ext_iff_of_nodup (nodup_cons_without hl k v).of_map hl.of_map).2 fun e => ?_
  rw [List.mem_cons, mem_without]
  constructor
  · rintro (rfl | ⟨he, -⟩)
    · exact hmem
    · exact he
  · intro he
    by_cases hk : e.1 = k
    · exact Or.inl (List.inj_on_of_nodup_map hl he hmem hk)
    · exact Or.inr ⟨he, hk⟩

/-- With distinct keys, the entries of a key are its one entry. -/
theorem filter_key_eq {l : List (κ × ν)} (hl : (l.map Prod.fst).Nodup) {k : κ} {v : ν}
    (hmem : (k, v) ∈ l) : l.filter (fun e => e.1 = k) = [(k, v)] := by
  induction l with
  | nil => cases hmem
  | cons e l ih =>
    rw [List.map_cons, List.nodup_cons] at hl
    rcases List.mem_cons.1 hmem with rfl | hmem'
    · -- no later entry has the key of the head
      have hnone : ∀ e' ∈ l, ¬ (decide (e'.1 = k) = true) := fun e' he' heq =>
        hl.1 (show k ∈ l.map Prod.fst from of_decide_eq_true heq ▸ List.mem_map_of_mem he')
      rw [List.filter_cons_of_pos (by simp), List.filter_eq_nil_iff.2 hnone]
    · have hne : e.1 ≠ k := fun heq => hl.1 (heq ▸ List.mem_map_of_mem hmem')
      rw [List.filter_cons_of_neg (by simpa using hne), ih hl.2 hmem']

theorem maxSize_Step (c : LRUCache κ ν) (op : LRUOp κ ν) : (c.Step op).maxSize = c.maxSize := by
  cases op with
  | Put k v => rfl
  | Get k =>
    cases hget : c.Get k with
    | none => simp [Step, hget]
    | some r => simp [Step, hget, (items_Get hget).2.2]
  | Erase k => rfl
  | Exists k => rfl

theorem maxSize_Run (c : LRUCache κ ν) (ops : List (LRUOp κ ν)) :
    (c.Run ops).maxSize = c.maxSize := by
  induction ops using List.reverseRecOn with
  | nil => rfl
  | append_singleton ops op ih => rw [Run_append_singleton, maxSize_Step, ih]

theorem mem_Put {c : LRUCache κ ν} {k : κ} {v : ν} {e : κ × ν} (he : e ∈ (c.Put k v).items) :
    e = (k, v) ∨ (e ∈ c.items ∧ e.1 ≠ k) := by
  rcases List.mem_cons.1 ((evict_sublist _ _).subset he) with heq | hw
  · exact Or.inl heq
  · exact Or.inr (mem_without.1 hw)

theorem length_Step_le (c : LRUCache κ ν) (op : LRUOp κ ν) (h : c.items.length ≤ c.maxSize) :
    (c.Step op).items.length ≤ c.maxSize := by
  cases op with
  | Put k v => exact length_Put_le c k v h
  | Get k =>
    cases hget : c.Get k with
    | none => simpa [Step, hget] using h
    | some r =>
      obtain ⟨hitems, hmem, -⟩ := items_Get hget
      simp only [Step, hget]
      rw [hitems, (perm_cons_without c.nodup hmem).length_eq]
      exact h
  | Erase k => exact Nat.le_trans (List.length_filter_le _ _) h
  | Exists k => exact h

/-- From a cache within its bound, every run stays within it. -/
theorem length_Run_le (c : LRUCache κ ν) (ops : List (LRUOp κ ν))
    (h : c.items.length ≤ c.maxSize) : (c.Run ops).items.length ≤ c.maxSize := by
  induction ops using List.reverseRecOn with
  | nil => exact h
  | append_singleton ops op ih =>
    rw [Run_append_singleton]
    have hle := length_Step_le (c.Run ops) op (by rw [maxSize_Run]; exact ih)
    rwa [maxSize_Run] at hle

/-! ### Values and order of use along a run -/

/-- Every cached value is the value last put for its key. -/
def PutsAgree (ops : List (LRUOp κ ν)) (c : LRUCache κ ν) : Prop :=
  ∀ k v, c.lookup k = some v → lastPut ops k = some v

theorem PutsAgree.step {ops : List (LRUOp κ ν)} {c : LRUCache κ ν} (h : PutsAgree ops c)
    (op : LRUOp κ ν) : PutsAgree (ops ++ [op]) (c.Step op) := by
  intro k v hv
  rw [lastPut_append_singleton]
  cases op with
  | Put k' w =>
    by_cases hk : k' = k
    · subst hk
      rcases mem_Put ((lookup_eq_some_iff _ _ _).1 hv) with heq | ⟨-, hne⟩
      · simp [LRUOp.putStep, (Prod.mk.inj heq).2]
      · exact absurd rfl hne
    · simp only [LRUOp.putStep, if_neg hk]
      exact h k v (lookup_Put_of_ne c w (Ne.symm hk) hv)
  | Get k' =>
    cases hget : c.Get k' with
    | none => exact h k v (by simpa [Step, hget] using hv)
    | some r =>
      simp only [Step, hget] at hv
      exact h k v (by rwa [lookup_Get hget] at hv)
  | Erase k' =>
    simp only [Step, lookup_Erase] at hv
    split_ifs at hv with hk
    simp only [LRUOp.putStep, if_neg (Ne.symm hk)]
    exact h k v hv
  | Exists k' => exact h k v hv

/-- `a` was put or read after `b`. -/
def UsedAfter (ops : List (LRUOp κ ν)) (a b : κ) : Prop := lastUse ops b < lastUse ops a

/-- The entries are kept most recently used first. -/
def ByRecency (ops : List (LRUOp κ ν)) (c : LRUCache κ ν) : Prop :=
  (c.items.map Prod.fst).Pairwise (UsedAfter ops)

theorem lastUse_append_of_ne (ops : List (LRUOp κ ν)) {op : LRUOp κ ν} {a : κ}
    (hop : op.used ≠ some a) : lastUse (ops ++ [op]) a = lastUse ops a := by
  rw [lastUse_append_singleton, if_neg hop]

/-- An operation that uses none of the keys keeps their order of use. -/
theorem pairwise_UsedAfter_append {ops : List (LRUOp κ ν)} {l : List κ}
    (h : l.Pairwise (UsedAfter ops)) {op : LRUOp κ ν} (hop : ∀ a ∈ l, op.used ≠ some a) :
    l.Pairwise (UsedAfter (ops ++ [op])) := by
  refine h.imp_of_mem fun ha hb hab => ?_
  unfold UsedAfter
  rw [lastUse_append_of_ne ops (hop _ ha), lastUse_append_of_ne ops (hop _ hb)]
  exact hab

/-- Moving the entry of the key just used to the front keeps the order of use. -/
theorem ByRecency.cons_without {ops : List (LRUOp κ ν)} {c : LRUCache κ ν} (h : ByRecency ops c)
    {op : LRUOp κ ν} {k : κ} (hop : op.used = some k) (v : ν) :
    (((k, v) :: without c.items k).map Prod.fst).Pairwise (UsedAfter (ops ++ [op])) := by
  have hsub : ((without c.items k).map Prod.fst).Sublist (c.items.map Prod.fst) :=
    List.filter_sublist.map _
  have hother : ∀ a ∈ (without c.items k).map Prod.fst, op.used ≠ some a := by
    intro a ha
    obtain ⟨e, he, rfl⟩ := List.mem_map.1 ha
    rw [hop]
    exact fun heq => (mem_without.1 he).2 (Option.some.inj heq).symm
  rw [List.map_cons, List.pairwise_cons]
  refine ⟨fun b hb => ?_, pairwise_UsedAfter_append (h.sublist hsub) hother⟩
  -- the key just used has the last position of the trace
  unfold UsedAfter
  rw [lastUse_append_of_ne ops (hother b hb), lastUse_append_singleton, if_pos hop]
  exact Nat.lt_succ_of_le (lastUse_le ops b)

theorem ByRecency.step {ops : List (LRUOp κ ν)} {c : LRUCache κ ν} (h : ByRecency ops c)
    (op : LRUOp κ ν) : ByRecency (ops ++ [op]) (c.Step op) := by
  cases op with
  | Put k v => exact (h.cons_without rfl v).sublist ((evict_sublist _ _).map _)
  | Get k =>
    cases hget : c.Get k with
    | none =>
      have hk : k ∉ c.items.map Prod.fst := (lookup_eq_none_iff c k).1 ((Get_eq_none_iff c k).1 hget)
      simp only [ByRecency, Step, hget]
      exact pairwise_UsedAfter_append h fun a ha heq => hk (Option.some.inj heq ▸ ha)
    | some r =>
      obtain ⟨hitems, -, -⟩ := items_Get hget
      simp only [ByRecency, Step, hget]
      rw [hitems]
      exact h.cons_without rfl r.1
  | Erase k =>
    exact pairwise_UsedAfter_append (h.sublist (List.filter_sublist.map _)) fun _ _ => nofun
  | Exists k => exact pairwise_UsedAfter_append h fun _ _ => nofun

/-- A `Put` of a new key into a full cache drops exactly the entry used least recently. -/
theorem ByRecency.Put_evicts {ops : List (LRUOp κ ν)} {c : LRUCache κ ν} (h : ByRecency ops c)
    {k : κ} (v : ν) (hk : c.Exists k = false) (hfull : c.items.length = c.maxSize)
    (hpos : 0 < c.maxSize) :
    ∃ e, c.Exists e = true ∧
      (∀ k', (c.Put k v).Exists k' = true ↔ k' = k ∨ (c.Exists k' = true ∧ k' ≠ e)) ∧
      ∀ k', c.Exists k' = true → k' ≠ e → UsedAfter ops k' e := by
  obtain ⟨init, last, hsplit⟩ : ∃ init last, c.items = init ++ [last] := by
    rcases List.eq_nil_or_concat c.items with hnil | ⟨init, last, hcat⟩
    · rw [hnil, List.length_nil] at hfull
      omega
    · exact ⟨init, last, by rw [hcat, List.concat_eq_append]⟩
  have hkeys : c.items.map Prod.fst = init.map Prod.fst ++ [last.1] := by
    rw [hsplit, List.map_append, List.map_singleton]
  have hlast : last.1 ∉ init.map Prod.fst := by
    have hnd := c.nodup
    rw [hkeys] at hnd
    exact fun hmem => (List.nodup_append.1 hnd).2.2 _ hmem _ (List.mem_singleton_self _) rfl
  have hwithout : without c.items k = c.items := by
    have hk' : k ∉ c.items.map Prod.fst := by rw [← Exists_iff]; simp [hk]
    refine List.filter_eq_self.2 fun e he => ?_
    have hne : e.1 ≠ k := fun hek => hk' (hek ▸ List.mem_map_of_mem he)
    simpa using hne
  -- the new entry goes in front and the last one falls off
  have hput : (c.Put k v).items = (k, v) :: init := by
    simp only [Put, evict, hwithout, List.length_cons, hfull, Nat.lt_succ_self, if_true]
    rw [hsplit, ← List.cons_append, List.dropLast_concat]
  have hinit : ∀ k', k' ∈ init.map Prod.fst ↔ k' ∈ c.items.map Prod.fst ∧ k' ≠ last.1 := by
    intro k'
    rw [hkeys, List.mem_append, List.mem_singleton]
    constructor
    · intro hk'
      exact ⟨Or.inl hk', fun heq => hlast (heq ▸ hk')⟩
    · rintro ⟨hk' | hk', hne⟩
      · exact hk'
      · exact absurd hk' hne
  refine ⟨last.1, (Exists_iff c _).2 (by rw [hkeys]; simp), fun k' => ?_, fun k' hk' hne => ?_⟩
  · rw [Exists_iff, Exists_iff, hput, List.map_cons, List.mem_cons, hinit]
  · have hpair := h
    unfold ByRecency at hpair
    rw [hkeys] at hpair
    exact (List.pairwise_append.1 hpair).2.2 k' ((hinit k').2 ⟨(Exists_iff c k').1 hk', hne⟩) _
      (List.mem_singleton_self _)

/-- Along every run from the empty cache, each cached value is the value last put for its key
and the entries are kept most recently used first. -/
theorem PutsAgree_ByRecency_Run (maxSize : Nat) (ops : List (LRUOp κ ν)) :
    PutsAgree ops ((empty maxSize).Run ops) ∧ ByRecency ops ((empty maxSize).Run ops) := by
  induction ops using List.reverseRecOn with
  | nil => exact ⟨fun k v h => (by cases h), List.Pairwise.nil⟩
  | append_singleton ops op ih =>
    rw [Run_append_singleton]
    exact ⟨ih.1.step op, ih.2.step op⟩

end LRUCache
