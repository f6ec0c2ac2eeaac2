import Ravencoin.Lib.LRU
import Ravencoin.Assets.Transactions

/-!
# The LRU cache of asset records (`CLRUCache` in `assets/assettypes.h`)

`CLRUCache` keeps its entries in a `std::list` of key-value pairs, most recently used first,
and an `std::unordered_map` from each key to the iterator of its list node. `Put` pushes a new
node to the front, then erases the old node and map entry of the key if there was one, points
the key at the new node and, when the map has grown past `maxSize`, erases the map entry of the
key at the back of the list and pops that node. `Get` splices the node of the key to the front,
and throws `std::range_error` for a missing key.

This module models the class with its list nodes, proves that along every sequence of
operations the map stays an index of the list, and that the cache refines the abstract
`LRUCache`: the list, read without its nodes, is the abstract cache, operation by operation.
The facts the abstract cache has along a run (each value is the last one put, the order is the
order of use) then hold of the C++ cache.

## Main definitions

* `Ravencoin.CLRUCache` — the list, the map, `maxSize`, and the number of the next node.
* `Ravencoin.CLRUCache.Put`, `Erase`, `Get`, `Exists`, `Size`, and `Run` over `LRUOp`.
* `Ravencoin.CLRUCache.WF` — the map and the list hold the same keys, each once, and every map
  entry points at the node of its key.
* `Ravencoin.CLRUCache.Refines` — the list, read as key-value pairs, is an abstract cache.

## Main results

* `Ravencoin.CLRUCache.WF.Step` — each operation keeps the map an index of the list.
* `Ravencoin.CLRUCache.Refines.Step` — each operation refines the abstract one.
* `Ravencoin.CLRUCache.Run_spec` — every run from the empty cache is well formed and refines
  the abstract run.
* `Ravencoin.lru_cache_refines_abstract` — for every bound and every sequence of operations:
  the index, the bound, the value `Get` returns and the key a full `Put` evicts.

## Implementation notes

A list node is identified by its address. The model numbers the nodes and keeps the next number
in `nextNode`, so a new node differs from every node in the list. The `unordered_map` is a list
of key-node pairs whose order is never observed. A dereference of an iterator whose node is
gone has no defined behaviour; the model aborts there, and `WF` excludes it. `Clear`,
`SetNull`, `SetSize` and the copy constructor are not modelled: no modelled code calls them.
-/

set_option autoImplicit false

namespace Ravencoin

/-- A `CLRUCache<cache_key_t, cache_value_t>`. -/
structure CLRUCache (κ ν : Type) where
  /-- `cacheItemsList`: the nodes, front first, each its number and its key-value pair. -/
  cacheItemsList : List (Nat × κ × ν)
  /-- `cacheItemsMap`: each key with the node its iterator points at. -/
  cacheItemsMap : List (κ × Nat)
  maxSize : Nat
  /-- A number no node of the list has: the address the allocator gives the next node. -/
  nextNode : Nat

namespace CLRUCache

variable {κ ν : Type} [DecidableEq κ]

/-! ### The model -/

/-- `CLRUCache(size_t max_size)`. -/
def empty (max_size : Nat) : CLRUCache κ ν := ⟨[], [], max_size, 0⟩

/-- `cacheItemsMap.find(key)`: the node of the key's iterator. -/
def findKey (m : List (κ × Nat)) (key : κ) : Option Nat :=
  (m.find? fun e => e.1 = key).map Prod.snd

/-- `cacheItemsMap.erase`: the map without the key's entry. -/
def eraseKey (m : List (κ × Nat)) (key : κ) : List (κ × Nat) := m.filter fun e => e.1 ≠ key

/-- `cacheItemsMap[key] = it`. -/
def assign (m : List (κ × Nat)) (key : κ) (it : Nat) : List (κ × Nat) := (key, it) :: eraseKey m key

/-- `cacheItemsList.erase(it)`: the list without the node. -/
def eraseNode (l : List (Nat × κ × ν)) (it : Nat) : List (Nat × κ × ν) := l.filter fun e => e.1 ≠ it

/-- `cacheItemsList.splice(cacheItemsList.begin(), cacheItemsList, it)`: the node moved to the
front. -/
def splice (l : List (Nat × κ × ν)) (it : Nat) : List (Nat × κ × ν) :=
  l.filter (fun e => e.1 = it) ++ eraseNode l it

/-- The first part of `Put`: `push_front` of the new node, the erasure of the key's old node and
map entry, and `cacheItemsMap[key] = cacheItemsList.begin()`. -/
def PutNode (c : CLRUCache κ ν) (key : κ) (value : ν) : CLRUCache κ ν :=
  let list := (c.nextNode, key, value) :: c.cacheItemsList
  match findKey c.cacheItemsMap key with
  | some it =>
    { c with cacheItemsList := eraseNode list it,
             cacheItemsMap := assign (eraseKey c.cacheItemsMap key) key c.nextNode,
             nextNode := c.nextNode + 1 }
  | none =>
    { c with cacheItemsList := list,
             cacheItemsMap := assign c.cacheItemsMap key c.nextNode,
             nextNode := c.nextNode + 1 }

/-- The end of `Put`: past `maxSize`, the map entry of the key at the back of the list, and the
back node, go. -/
def EvictBack (c : CLRUCache κ ν) : CLRUCache κ ν :=
  if c.cacheItemsMap.length > c.maxSize then
    match c.cacheItemsList.getLast? with
    | some (_, last, _) =>
      { c with cacheItemsMap := eraseKey c.cacheItemsMap last,
               cacheItemsList := c.cacheItemsList.dropLast }
    -- `last--` on an empty list; the list holds the new node here
    | none => c
  else c

/-- `Put`. -/
def Put (c : CLRUCache κ ν) (key : κ) (value : ν) : CLRUCache κ ν :=
  EvictBack (PutNode c key value)

/-- `Erase`. -/
def Erase (c : CLRUCache κ ν) (key : κ) : CLRUCache κ ν :=
  match findKey c.cacheItemsMap key with
  | some it =>
    { c with cacheItemsList := eraseNode c.cacheItemsList it,
             cacheItemsMap := eraseKey c.cacheItemsMap key }
  | none => c

/-- `Get`: the value, and the cache with the key's node at the front. -/
def Get (c : CLRUCache κ ν) (key : κ) : Except Halt (ν × CLRUCache κ ν) :=
  match findKey c.cacheItemsMap key with
  | none => throw (.abort (str "There is no such key in cache"))
  | some it =>
    match c.cacheItemsList.find? fun e => e.1 = it with
    | some (_, _, value) => pure (value, { c with cacheItemsList := splice c.cacheItemsList it })
    | none => throw (.abort (str "dereference of an erased list node"))

/-- `Exists`. -/
def Exists (c : CLRUCache κ ν) (key : κ) : Bool := (findKey c.cacheItemsMap key).isSome

/-- `Size`. -/
def Size (c : CLRUCache κ ν) : Nat := c.cacheItemsMap.length

/-- One operation; a `Get` that throws leaves the cache as it is. -/
def Step (c : CLRUCache κ ν) : LRUOp κ ν → CLRUCache κ ν
  | .Put k v => c.Put k v
  | .Get k =>
    match c.Get k with
    | .ok (_, c') => c'
    | .error _ => c
  | .Erase k => c.Erase k
  | .Exists _ => c

/-- A sequence of operations, the first one first. -/
def Run (c : CLRUCache κ ν) (ops : List (LRUOp κ ν)) : CLRUCache κ ν := ops.foldl Step c

theorem Run_append_singleton (c : CLRUCache κ ν) (ops : List (LRUOp κ ν)) (op : LRUOp κ ν) :
    c.Run (ops ++ [op]) = (c.Run ops).Step op := by
  rw [Run, List.foldl_append, List.foldl_cons, List.foldl_nil, Run]

/-! ### The map and the list -/

theorem findKey_eq_some_iff {m : List (κ × Nat)} (hm : (m.map Prod.fst).Nodup) (key : κ)
    (it : Nat) : findKey m key = some it ↔ (key, it) ∈ m :=
  LRUCache.lookup_eq_some_iff ⟨m, 0, hm⟩ key it

theorem findKey_eq_none_iff (m : List (κ × Nat)) (key : κ) :
    findKey m key = none ↔ key ∉ m.map Prod.fst := by
  simp only [findKey, Option.map_eq_none_iff, List.find?_eq_none, decide_eq_true_eq, List.mem_map]
  constructor
  · rintro h ⟨⟨k, it⟩, hmem, rfl⟩
    exact h _ hmem rfl
  · intro h e he heq
    exact h ⟨e, he, heq⟩

theorem mem_eraseKey {m : List (κ × Nat)} {key : κ} {e : κ × Nat} :
    e ∈ eraseKey m key ↔ e ∈ m ∧ e.1 ≠ key := by
  simp [eraseKey]

/-- The nodes have distinct numbers, below `nextNode`; the keys are distinct in the list and in
the map; and the map sends each key to the node that holds it. -/
structure WF (c : CLRUCache κ ν) : Prop where
  nodes_nodup : (c.cacheItemsList.map Prod.fst).Nodup
  keys_nodup : (c.cacheItemsList.map fun e => e.2.1).Nodup
  map_nodup : (c.cacheItemsMap.map Prod.fst).Nodup
  points : ∀ key it, (key, it) ∈ c.cacheItemsMap ↔ ∃ value, (it, key, value) ∈ c.cacheItemsList
  fresh : ∀ e ∈ c.cacheItemsList, e.1 < c.nextNode

omit [DecidableEq κ] in
theorem WF_empty (max_size : Nat) : (empty max_size : CLRUCache κ ν).WF where
  nodes_nodup := List.nodup_nil
  keys_nodup := List.nodup_nil
  map_nodup := List.nodup_nil
  points key it := by simp [empty]
  fresh e he := absurd he List.not_mem_nil

/-- The cache without a key: its node and its map entry removed. -/
def without (c : CLRUCache κ ν) (key : κ) : CLRUCache κ ν :=
  { c with cacheItemsList := c.cacheItemsList.filter (fun e => e.2.1 ≠ key),
           cacheItemsMap := eraseKey c.cacheItemsMap key }

/-- A new node for a key at the front of the list, with its map entry. -/
def pushFront (c : CLRUCache κ ν) (key : κ) (value : ν) : CLRUCache κ ν :=
  ⟨(c.nextNode, key, value) :: c.cacheItemsList, (key, c.nextNode) :: c.cacheItemsMap, c.maxSize,
    c.nextNode + 1⟩

section WF

variable {c : CLRUCache κ ν}

omit [DecidableEq κ] in
theorem WF.mem_keys_iff (h : c.WF) (key : κ) :
    key ∈ c.cacheItemsMap.map Prod.fst ↔ key ∈ c.cacheItemsList.map fun e => e.2.1 := by
  simp only [List.mem_map]
  constructor
  · rintro ⟨⟨k, it⟩, hmem, rfl⟩
    obtain ⟨v, hv⟩ := (h.points k it).1 hmem
    exact ⟨(it, k, v), hv, rfl⟩
  · rintro ⟨⟨it, k, v⟩, hmem, rfl⟩
    exact ⟨(k, it), (h.points k it).2 ⟨v, hmem⟩, rfl⟩

omit [DecidableEq κ] in
theorem WF.length_map (h : c.WF) : c.cacheItemsMap.length = c.cacheItemsList.length := by
  have hperm : (c.cacheItemsMap.map Prod.fst).Perm (c.cacheItemsList.map fun e => e.2.1) :=
    (List.perm_ext_iff_of_nodup h.map_nodup h.keys_nodup).2 h.mem_keys_iff
  simpa using hperm.length_eq

omit [DecidableEq κ] in
/-- A node has the number of a node of the list exactly when it has its key. -/
theorem WF.fst_eq_iff (h : c.WF) {it : Nat} {key : κ} {value : ν}
    (hmem : (it, key, value) ∈ c.cacheItemsList) {e : Nat × κ × ν} (he : e ∈ c.cacheItemsList) :
    e.1 = it ↔ e.2.1 = key := by
  constructor
  · intro hid
    rw [List.inj_on_of_nodup_map h.nodes_nodup he hmem hid]
  · intro hkey
    rw [List.inj_on_of_nodup_map h.keys_nodup he hmem hkey]

theorem WF.without (h : c.WF) (key : κ) : (c.without key).WF where
  nodes_nodup := (List.filter_sublist.map _).nodup h.nodes_nodup
  keys_nodup := (List.filter_sublist.map _).nodup h.keys_nodup
  map_nodup := (List.filter_sublist.map _).nodup h.map_nodup
  points k it := by
    simp only [CLRUCache.without, mem_eraseKey, List.mem_filter, h.points, ne_eq,
      decide_not, Bool.not_eq_eq_eq_not, Bool.not_true, decide_eq_false_iff_not]
    constructor
    · rintro ⟨⟨v, hv⟩, hne⟩
      exact ⟨v, hv, hne⟩
    · rintro ⟨v, hv, hne⟩
      exact ⟨⟨v, hv⟩, hne⟩
  fresh e he := h.fresh e (List.mem_of_mem_filter he)

omit [DecidableEq κ] in
theorem WF.pushFront (h : c.WF) {key : κ} (hkey : key ∉ c.cacheItemsMap.map Prod.fst)
    (value : ν) : (c.pushFront key value).WF where
  nodes_nodup := by
    refine List.nodup_cons.2 ⟨fun hmem => ?_, h.nodes_nodup⟩
    obtain ⟨e, he, heq⟩ := List.mem_map.1 hmem
    have := h.fresh e he
    omega
  keys_nodup := List.nodup_cons.2 ⟨fun hmem => hkey ((h.mem_keys_iff key).2 hmem), h.keys_nodup⟩
  map_nodup := List.nodup_cons.2 ⟨hkey, h.map_nodup⟩
  points k it := by
    simp only [CLRUCache.pushFront, List.mem_cons, Prod.mk.injEq, h.points]
    constructor
    · rintro (⟨rfl, rfl⟩ | ⟨v, hv⟩)
      · exact ⟨value, Or.inl ⟨rfl, rfl, rfl⟩⟩
      · exact ⟨v, Or.inr hv⟩
    · rintro ⟨v, ⟨rfl, rfl, rfl⟩ | hv⟩
      · exact Or.inl ⟨rfl, rfl⟩
      · exact Or.inr ⟨v, hv⟩
  fresh e he := by
    rcases List.mem_cons.1 he with rfl | he
    · exact Nat.lt_succ_self _
    · exact Nat.lt_succ_of_lt (h.fresh e he)

theorem notMem_without (c : CLRUCache κ ν) (key : κ) :
    key ∉ (c.without key).cacheItemsMap.map Prod.fst := by
  simp [CLRUCache.without, eraseKey]

theorem WF.filter_eq_self (h : c.WF) {key : κ} (hkey : key ∉ c.cacheItemsMap.map Prod.fst) :
    c.cacheItemsList.filter (fun e => e.2.1 ≠ key) = c.cacheItemsList := by
  refine List.filter_eq_self.2 fun e he => ?_
  have hne : e.2.1 ≠ key :=
    fun heq => hkey ((h.mem_keys_iff key).2 (heq ▸ List.mem_map_of_mem he))
  simpa using hne

/-- The node the map names for a key is the node with the key, so erasing it is erasing the
key. -/
theorem WF.eraseNode_eq (h : c.WF) {key : κ} {it : Nat} (hmap : (key, it) ∈ c.cacheItemsMap) :
    eraseNode c.cacheItemsList it = c.cacheItemsList.filter (fun e => e.2.1 ≠ key) := by
  obtain ⟨v, hv⟩ := (h.points key it).1 hmap
  exact List.filter_congr fun e he => by simp [h.fst_eq_iff hv he]

/-- In a well-formed cache the first part of `Put` removes the key and pushes its new node. -/
theorem WF.PutNode_eq (h : c.WF) (key : κ) (value : ν) :
    c.PutNode key value = (c.without key).pushFront key value := by
  unfold PutNode
  cases hfind : findKey c.cacheItemsMap key with
  | none =>
    have hkey := (findKey_eq_none_iff _ _).1 hfind
    have hmap : eraseKey c.cacheItemsMap key = c.cacheItemsMap := by
      refine List.filter_eq_self.2 fun e he => ?_
      have hne : e.1 ≠ key := fun heq => hkey (heq ▸ List.mem_map_of_mem he)
      simpa using hne
    simp only [CLRUCache.pushFront, CLRUCache.without, h.filter_eq_self hkey, assign, hmap]
  | some it =>
    have hmap := (findKey_eq_some_iff h.map_nodup key it).1 hfind
    obtain ⟨v, hv⟩ := (h.points key it).1 hmap
    have hne : c.nextNode ≠ it := Nat.ne_of_gt (h.fresh _ hv)
    have hlist : eraseNode ((c.nextNode, key, value) :: c.cacheItemsList) it =
        (c.nextNode, key, value) :: c.cacheItemsList.filter (fun e => e.2.1 ≠ key) := by
      rw [← h.eraseNode_eq hmap, eraseNode, List.filter_cons, if_pos (by simpa using hne)]
      rfl
    have hidem : eraseKey (eraseKey c.cacheItemsMap key) key = eraseKey c.cacheItemsMap key := by
      simp [eraseKey, List.filter_filter]
    simp only [CLRUCache.pushFront, CLRUCache.without, hlist, assign, hidem]

theorem WF.Erase_eq (h : c.WF) (key : κ) : c.Erase key = c.without key := by
  unfold Erase
  cases hfind : findKey c.cacheItemsMap key with
  | none =>
    have hkey := (findKey_eq_none_iff _ _).1 hfind
    have hmap : eraseKey c.cacheItemsMap key = c.cacheItemsMap := by
      refine List.filter_eq_self.2 fun e he => ?_
      have hne : e.1 ≠ key := fun heq => hkey (heq ▸ List.mem_map_of_mem he)
      simpa using hne
    simp only [CLRUCache.without, h.filter_eq_self hkey, hmap]
  | some it =>
    simp only [CLRUCache.without,
      h.eraseNode_eq ((findKey_eq_some_iff h.map_nodup key it).1 hfind)]

/-- Past the bound, the eviction removes the key at the back of the list. -/
theorem WF.EvictBack_of_lt (h : c.WF) {init : List (Nat × κ × ν)} {it : Nat} {key : κ}
    {value : ν} (hsplit : c.cacheItemsList = init ++ [(it, key, value)])
    (hlt : c.maxSize < c.cacheItemsList.length) :
    c.EvictBack = c.without key ∧ (c.without key).cacheItemsList = init := by
  have hkeys := h.keys_nodup
  rw [hsplit, List.map_append, List.nodup_append] at hkeys
  have hinit : init.filter (fun e => e.2.1 ≠ key) = init := by
    refine List.filter_eq_self.2 fun e he => ?_
    have hne : e.2.1 ≠ key :=
      fun heq => hkeys.2.2 _ (List.mem_map_of_mem he) _ (List.mem_singleton_self _) heq
    simpa using hne
  have hfilter : c.cacheItemsList.filter (fun e => e.2.1 ≠ key) = init := by
    rw [hsplit, List.filter_append, hinit]
    simp
  refine ⟨?_, hfilter⟩
  unfold EvictBack
  rw [if_pos (by rw [h.length_map]; exact hlt), hsplit, List.getLast?_concat]
  simp only [List.dropLast_concat]
  simp only [CLRUCache.without, hfilter]

theorem EvictBack_of_le (c : CLRUCache κ ν) (hle : c.cacheItemsMap.length ≤ c.maxSize) :
    c.EvictBack = c := by
  unfold EvictBack
  rw [if_neg (Nat.not_lt.2 hle)]

/-- The eviction either leaves a cache or removes the key at the back of its list. -/
theorem WF.EvictBack_cases (h : c.WF) :
    (c.cacheItemsList.length ≤ c.maxSize ∧ c.EvictBack = c) ∨
    ∃ init it key value, c.cacheItemsList = init ++ [(it, key, value)] ∧
      c.maxSize < c.cacheItemsList.length ∧ c.EvictBack = c.without key ∧
      (c.without key).cacheItemsList = init := by
  by_cases hle : c.cacheItemsList.length ≤ c.maxSize
  · exact Or.inl ⟨hle, c.EvictBack_of_le (by rw [h.length_map]; exact hle)⟩
  · rcases List.eq_nil_or_concat c.cacheItemsList with hnil | ⟨init, ⟨it, key, value⟩, hcat⟩
    · rw [hnil, List.length_nil] at hle
      exact absurd (Nat.zero_le _) hle
    · rw [List.concat_eq_append] at hcat
      have hlt := Nat.lt_of_not_le hle
      exact Or.inr ⟨init, it, key, value, hcat, hlt, h.EvictBack_of_lt hcat hlt⟩

theorem WF.EvictBack (h : c.WF) : c.EvictBack.WF := by
  rcases h.EvictBack_cases with ⟨-, heq⟩ | ⟨-, -, key, -, -, -, heq, -⟩
  · rwa [heq]
  · rw [heq]
    exact h.without key

theorem WF.Put (h : c.WF) (key : κ) (value : ν) : (c.Put key value).WF := by
  unfold CLRUCache.Put
  rw [h.PutNode_eq]
  exact ((h.without key).pushFront (notMem_without c key) value).EvictBack

/-- `Get` of a cached key returns its value and moves its node to the front. -/
theorem WF.Get_of_mem (h : c.WF) {it : Nat} {key : κ} {value : ν}
    (hmem : (it, key, value) ∈ c.cacheItemsList) :
    c.Get key = .ok (value, { c with cacheItemsList :=
      (it, key, value) :: c.cacheItemsList.filter (fun e => e.2.1 ≠ key) }) := by
  have hmap := (h.points key it).2 ⟨value, hmem⟩
  -- the nodes numbered `it` are the one node of the key
  have hone : c.cacheItemsList.filter (fun e => e.1 = it) = [(it, key, value)] :=
    LRUCache.filter_key_eq h.nodes_nodup hmem
  have hfind : c.cacheItemsList.find? (fun e => e.1 = it) = some (it, key, value) := by
    rw [← List.head?_filter, hone, List.head?_cons]
  unfold Get
  rw [(findKey_eq_some_iff h.map_nodup key it).2 hmap]
  simp only [hfind, splice, hone, h.eraseNode_eq hmap, List.singleton_append]
  rfl

theorem WF.Get_of_not_mem (h : c.WF) {key : κ}
    (hkey : key ∉ c.cacheItemsList.map fun e => e.2.1) :
    c.Get key = .error (.abort (str "There is no such key in cache")) := by
  unfold Get
  rw [(findKey_eq_none_iff _ _).2 (fun hmem => hkey ((h.mem_keys_iff key).1 hmem))]
  rfl

omit [DecidableEq κ] in
/-- Reordering the list keeps a cache well formed. -/
theorem WF.of_perm (h : c.WF) {l : List (Nat × κ × ν)} (hp : l.Perm c.cacheItemsList) :
    ({ c with cacheItemsList := l } : CLRUCache κ ν).WF where
  nodes_nodup := (hp.map _).nodup_iff.2 h.nodes_nodup
  keys_nodup := (hp.map _).nodup_iff.2 h.keys_nodup
  map_nodup := h.map_nodup
  points key it := by
    rw [h.points]
    simp only [hp.mem_iff]
  fresh e he := h.fresh e (hp.mem_iff.1 he)

/-- The node of a key in front of the others is a reordering of the list. -/
theorem WF.perm_front (h : c.WF) {it : Nat} {key : κ} {value : ν}
    (hmem : (it, key, value) ∈ c.cacheItemsList) :
    ((it, key, value) :: c.cacheItemsList.filter (fun e => e.2.1 ≠ key)).Perm c.cacheItemsList := by
  have hp := LRUCache.perm_cons_without h.nodes_nodup hmem
  rwa [show LRUCache.without c.cacheItemsList it = eraseNode c.cacheItemsList it from rfl,
    h.eraseNode_eq ((h.points key it).2 ⟨value, hmem⟩)] at hp

theorem WF.Step (h : c.WF) (op : LRUOp κ ν) : (c.Step op).WF := by
  cases op with
  | Put k v => exact h.Put k v
  | Get k =>
    by_cases hk : k ∈ c.cacheItemsList.map fun e => e.2.1
    · obtain ⟨⟨it, k', v⟩, hmem, rfl⟩ := List.mem_map.1 hk
      simp only [CLRUCache.Step, h.Get_of_mem hmem]
      exact h.of_perm (h.perm_front hmem)
    · simp only [CLRUCache.Step, h.Get_of_not_mem hk]
      exact h
  | Erase k =>
    rw [CLRUCache.Step, h.Erase_eq]
    exact h.without k
  | Exists k => exact h

theorem maxSize_EvictBack (c : CLRUCache κ ν) : c.EvictBack.maxSize = c.maxSize := by
  unfold EvictBack
  split_ifs
  · split <;> rfl
  · rfl

theorem WF.Exists_iff (h : c.WF) (key : κ) :
    c.Exists key = true ↔ key ∈ c.cacheItemsList.map fun e => e.2.1 := by
  rw [← h.mem_keys_iff, Exists, Option.isSome_iff_ne_none, Ne, findKey_eq_none_iff, not_not]

end WF

/-! ### Refinement of the abstract cache -/

/-- The concrete cache stands for the abstract one: the same entries in the same order, and the
same bound. -/
structure Refines (c : CLRUCache κ ν) (a : LRUCache κ ν) : Prop where
  items : a.items = c.cacheItemsList.map Prod.snd
  maxSize : a.maxSize = c.maxSize

section Refines

variable {c : CLRUCache κ ν} {a : LRUCache κ ν}

omit [DecidableEq κ] in
theorem Refines.keys (hr : c.Refines a) :
    a.items.map Prod.fst = c.cacheItemsList.map fun e => e.2.1 := by
  rw [hr.items, List.map_map]
  rfl

theorem Refines.without (hr : c.Refines a) (key : κ) : (c.without key).Refines (a.Erase key) where
  items := by
    show LRUCache.without a.items key = _
    rw [hr.items, LRUCache.without, List.filter_map]
    rfl
  maxSize := hr.maxSize

theorem Refines.Put (h : c.WF) (hr : c.Refines a) (key : κ) (value : ν) :
    (c.Put key value).Refines (a.Put key value) := by
  -- the cache after the first part of `Put`, whose list is the abstract one before the eviction
  have hd : ((c.without key).pushFront key value).WF :=
    (h.without key).pushFront (notMem_without c key) value
  have hditems : ((c.without key).pushFront key value).cacheItemsList.map Prod.snd =
      (key, value) :: LRUCache.without a.items key := by
    show (key, value) :: (c.without key).cacheItemsList.map Prod.snd = _
    rw [← (hr.without key).items]
    rfl
  have hput : c.Put key value = ((c.without key).pushFront key value).EvictBack := by
    rw [CLRUCache.Put, h.PutNode_eq]
  rw [hput]
  refine ⟨?_, by rw [maxSize_EvictBack]; exact hr.maxSize⟩
  show LRUCache.evict a.maxSize ((key, value) :: LRUCache.without a.items key) = _
  rw [← hditems, LRUCache.evict, hr.maxSize, List.length_map]
  rcases hd.EvictBack_cases with ⟨hle, heq⟩ | ⟨init, it, k, v, hsplit, hlt, heq, hinit⟩
  · rw [heq, if_neg (show ¬ (_ > c.maxSize) from Nat.not_lt.2 hle)]
  · rw [heq, hinit, if_pos (show _ > c.maxSize from hlt), ← List.map_dropLast, hsplit,
      List.dropLast_concat]

theorem Refines.Exists (h : c.WF) (hr : c.Refines a) (key : κ) : c.Exists key = a.Exists key := by
  rw [Bool.eq_iff_iff, h.Exists_iff, LRUCache.Exists_iff, hr.keys]

omit [DecidableEq κ] in
theorem Refines.Size (h : c.WF) (hr : c.Refines a) : c.Size = a.items.length := by
  rw [CLRUCache.Size, h.length_map, hr.items, List.length_map]

/-- The value a `Get` returns is the abstract cache's value for the key. -/
theorem Refines.lookup_of_Get (h : c.WF) (hr : c.Refines a) {key : κ} {value : ν}
    {c' : CLRUCache κ ν} (hget : c.Get key = .ok (value, c')) : a.lookup key = some value := by
  by_cases hk : key ∈ c.cacheItemsList.map fun e => e.2.1
  · obtain ⟨⟨it, k, v⟩, hmem, rfl⟩ := List.mem_map.1 hk
    rw [h.Get_of_mem hmem] at hget
    have hv : v = value := (Prod.mk.inj (Except.ok.inj hget)).1
    subst hv
    exact (LRUCache.lookup_eq_some_iff a k v).2 (by rw [hr.items]; exact List.mem_map_of_mem hmem)
  · rw [h.Get_of_not_mem hk] at hget
    cases hget

theorem Refines.Step (h : c.WF) (hr : c.Refines a) (op : LRUOp κ ν) :
    (c.Step op).Refines (a.Step op) := by
  cases op with
  | Put k v => exact hr.Put h k v
  | Get k =>
    by_cases hk : k ∈ c.cacheItemsList.map fun e => e.2.1
    · obtain ⟨⟨it, k', v⟩, hmem, rfl⟩ := List.mem_map.1 hk
      have hlookup : a.lookup k' = some v :=
        (LRUCache.lookup_eq_some_iff a k' v).2 (by rw [hr.items]; exact List.mem_map_of_mem hmem)
      simp only [CLRUCache.Step, h.Get_of_mem hmem, LRUCache.Step, LRUCache.Get, hlookup]
      refine ⟨?_, hr.maxSize⟩
      show (k', v) :: LRUCache.without a.items k' = (k', v) :: (c.without k').cacheItemsList.map Prod.snd
      rw [← (hr.without k').items]
      rfl
    · have hlookup : a.lookup k = none := (LRUCache.lookup_eq_none_iff a k).2 (by rwa [hr.keys])
      simp only [CLRUCache.Step, h.Get_of_not_mem hk, LRUCache.Step, LRUCache.Get, hlookup]
      exact hr
  | Erase k =>
    rw [CLRUCache.Step, h.Erase_eq]
    exact hr.without k
  | Exists k => exact hr

end Refines

/-- Every run from the empty cache keeps the map an index of the list and refines the abstract
run. -/
theorem Run_spec (maxSize : Nat) (ops : List (LRUOp κ ν)) :
    ((empty maxSize).Run ops).WF ∧
      ((empty maxSize).Run ops).Refines ((LRUCache.empty maxSize).Run ops) := by
  induction ops using List.reverseRecOn with
  | nil => exact ⟨WF_empty maxSize, ⟨rfl, rfl⟩⟩
  | append_singleton ops op ih =>
    rw [Run_append_singleton, LRUCache.Run_append_singleton]
    exact ⟨ih.1.Step op, ih.2.Step ih.1 op⟩

end CLRUCache

/-! ### The cache along every sequence of operations -/

section Runs

variable {κ ν : Type} [DecidableEq κ]

open CLRUCache in
theorem lru_cache_refines_abstract (maxSize : Nat) (hmax : 1 ≤ maxSize)
    (ops : List (LRUOp κ ν)) :
    let c := (CLRUCache.empty maxSize).Run ops
    c.WF ∧ c.Refines ((LRUCache.empty maxSize).Run ops) ∧ c.Size ≤ maxSize ∧
      (∀ k v c', c.Get k = .ok (v, c') → lastPut ops k = some v) ∧
      ∀ k v, c.Exists k = false → c.Size = maxSize →
        ∃ e, c.Exists e = true ∧
          (∀ k', (c.Put k v).Exists k' = true ↔ k' = k ∨ (c.Exists k' = true ∧ k' ≠ e)) ∧
          ∀ k', c.Exists k' = true → k' ≠ e → lastUse ops e < lastUse ops k' := by
  intro c
  obtain ⟨hwf, hr⟩ := Run_spec maxSize ops
  obtain ⟨hputs, hrec⟩ := LRUCache.PutsAgree_ByRecency_Run maxSize ops
  have hamax : ((LRUCache.empty maxSize).Run ops).maxSize = maxSize :=
    LRUCache.maxSize_Run _ ops
  have hsize := hr.Size hwf
  refine ⟨hwf, hr, ?_, fun k v c' hget => hputs k v (hr.lookup_of_Get hwf hget),
    fun k v hk hfull => ?_⟩
  · have hle := LRUCache.length_Run_le (LRUCache.empty maxSize) ops (Nat.zero_le _)
    rw [hsize]
    exact hle
  · -- the abstract cache is full and lacks the key, so its `Put` evicts the least recent key
    obtain ⟨e, he, hput, hlast⟩ := hrec.Put_evicts v (by rw [← hr.Exists hwf]; exact hk)
      (by rw [← hsize, hfull, hamax]) (by rw [hamax]; exact hmax)
    have hexists : ∀ k', c.Exists k' = ((LRUCache.empty maxSize).Run ops).Exists k' :=
      hr.Exists hwf
    refine ⟨e, by rw [hexists]; exact he, fun k' => ?_, fun k' hk' hne => ?_⟩
    · rw [(hr.Put hwf k v).Exists (hwf.Put k v), hexists]
      exact hput k'
    · exact hlast k' (by rw [← hexists]; exact hk') hne

/-- Three `Put`s and a `Get`: the `Get` of `1` makes `2` the least recently used key. -/
def SampleCacheOps : List (LRUOp Nat Nat) :=
  [.Put 1 10, .Put 2 20, .Get 1, .Put 3 30]

/-- The third `Put` into a cache of two entries evicts `2`. -/
example : ((CLRUCache.empty 2).Run SampleCacheOps).cacheItemsList.map Prod.snd =
    [(3, 30), (1, 10)] := rfl

theorem lru_cache_refines_abstract_two :
    1 ≤ 2 ∧
    let c := (CLRUCache.empty 2).Run SampleCacheOps
    c.WF ∧ c.Refines ((LRUCache.empty 2).Run SampleCacheOps) ∧ c.Size ≤ 2 ∧
      (∀ k v c', c.Get k = .ok (v, c') → lastPut SampleCacheOps k = some v) ∧
      ∀ k v, c.Exists k = false → c.Size = 2 →
        ∃ e, c.Exists e = true ∧
          (∀ k', (c.Put k v).Exists k' = true ↔ k' = k ∨ (c.Exists k' = true ∧ k' ≠ e)) ∧
          ∀ k', c.Exists k' = true → k' ≠ e → lastUse SampleCacheOps e < lastUse SampleCacheOps k' :=
  ⟨by decide, lru_cache_refines_abstract 2 (by decide) SampleCacheOps⟩

end Runs

end Ravencoin
