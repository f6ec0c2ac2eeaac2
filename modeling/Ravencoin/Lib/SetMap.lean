import Ravencoin.Lib.KeyedSet

/-!
# Maps from keys to sets, as indexes of a relation

A `std::map<K, std::set<V>>` that drops a set when it becomes empty is an index of a relation
between values and keys: the set of a key holds the values related to it, and a key has a set
exactly when some value is related to it. Code keeps such a map next to the store it indexes,
inserting a value into the sets of its keys when it stores the value and erasing it from them
when it removes the value.

## Main definitions

* `SetMap κ α lt` — the map, as a `KeyedSet` of key-set pairs; a set is a list without
  duplicates, in an order the model does not fix.
* `SetMap.get` — the set of a key.
* `SetMap.insertAt` — `m[k].insert(a)`.
* `SetMap.eraseAt` — the erasure of `a` from the set of `k`, dropping the set if it becomes
  empty.
* `SetMap.Indexes m R` — the map indexes the relation `R`.

## Main results

* `SetMap.get_insertAt`, `SetMap.get_eraseAt` — what each update does to the sets.
* `SetMap.Indexes.insertAt`, `SetMap.Indexes.eraseAt` — an update adds or removes one pair of
  the relation.
* `SetMap.Indexes.insertAll`, `SetMap.Indexes.eraseAll` — the loops over the keys of one value.
-/

set_option autoImplicit false

universe u v

/-- A map from keys to sets of values. -/
abbrev SetMap (κ : Type u) (α : Type v) (lt : κ → κ → Bool) :=
  KeyedSet (fun e : κ × List α => e.1) lt

namespace SetMap

variable {κ : Type u} {α : Type v} [DecidableEq κ] [DecidableEq α] {lt : κ → κ → Bool}

/-- The set of a key. -/
def get (m : SetMap κ α lt) (k : κ) : Option (List α) := (m.find? k).map Prod.snd

/-- `m[k].insert(a)`: the set of `k`, created empty if needed, gets `a`. -/
def insertAt (m : SetMap κ α lt) (k : κ) (a : α) : SetMap κ α lt :=
  match m.find? k with
  | some (_, s) => (m.erase k).insert (k, s.insert a)
  | none => m.insert (k, [a])

/-- `it = m.find(k); if (it != m.end()) { it->second.erase(a); if (it->second.empty())
m.erase(it); }` -/
def eraseAt (m : SetMap κ α lt) (k : κ) (a : α) : SetMap κ α lt :=
  match m.find? k with
  | some (_, s) => if s.erase a = [] then m.erase k else (m.erase k).insert (k, s.erase a)
  | none => m

/-- The map indexes the relation `R` between values and keys: the set of a key, where there is
one, is nonempty, has no duplicate and holds exactly the values related to the key, and a key
without a set has no related value. -/
structure Indexes (m : SetMap κ α lt) (R : α → κ → Prop) : Prop where
  some_set : ∀ k s, get m k = some s → s ≠ [] ∧ s.Nodup ∧ ∀ a, a ∈ s ↔ R a k
  none_set : ∀ k, get m k = none → ∀ a, ¬ R a k

/-! ### The sets after an update -/

omit [DecidableEq α] in
theorem get_erase (m : SetMap κ α lt) (k k' : κ) :
    get (m.erase k) k' = if k' = k then none else get m k' := by
  rw [get, KeyedSet.find?_erase]
  split_ifs <;> rfl

omit [DecidableEq α] in
/-- A set stored at a key after its old one is erased replaces it. -/
theorem get_erase_insert (m : SetMap κ α lt) (k : κ) (s : List α) (k' : κ) :
    get ((m.erase k).insert (k, s)) k' = if k' = k then some s else get m k' := by
  rw [get, KeyedSet.find?_insert, KeyedSet.contains_erase]
  simp only [bne_self_eq_false, Bool.false_and, Bool.false_eq_true, if_false]
  by_cases hk : k' = k
  · subst hk
    simp
  · rw [if_neg (Ne.symm hk), if_neg hk, ← get, get_erase, if_neg hk]

omit [DecidableEq α] in
theorem get_insert_of_none (m : SetMap κ α lt) {k : κ} (hk : get m k = none) (s : List α)
    (k' : κ) : get (m.insert (k, s)) k' = if k' = k then some s else get m k' := by
  have hcontains : m.contains k = false := by
    rw [KeyedSet.contains_eq_isSome_find?]
    simpa [get] using hk
  rw [get, KeyedSet.find?_insert, if_neg (by simpa using hcontains)]
  by_cases hk' : k' = k
  · subst hk'
    simp
  · rw [if_neg (Ne.symm hk'), if_neg hk']
    rfl

theorem get_insertAt (m : SetMap κ α lt) (k : κ) (a : α) (k' : κ) :
    get (m.insertAt k a) k' = if k' = k then some (((get m k).getD []).insert a)
      else get m k' := by
  unfold insertAt
  cases hfind : m.find? k with
  | none =>
    have hk : get m k = none := by simp [get, hfind]
    rw [get_insert_of_none m hk, hk]
    rfl
  | some e =>
    obtain ⟨k₀, s⟩ := e
    have hk : get m k = some s := by simp [get, hfind]
    rw [get_erase_insert, hk]
    rfl

/-- The set of a key after the erasure of `a`: none where it would be empty. -/
def erasedSet (o : Option (List α)) (a : α) : Option (List α) :=
  match o with
  | some s => if s.erase a = [] then none else some (s.erase a)
  | none => none

theorem get_eraseAt (m : SetMap κ α lt) (k : κ) (a : α) (k' : κ) :
    get (m.eraseAt k a) k' = if k' = k then erasedSet (get m k) a else get m k' := by
  unfold eraseAt
  cases hfind : m.find? k with
  | none =>
    have hk : get m k = none := by simp [get, hfind]
    by_cases hk' : k' = k
    · subst hk'
      rw [if_pos rfl, hk]
      rfl
    · rw [if_neg hk']
  | some e =>
    obtain ⟨k₀, s⟩ := e
    have hk : get m k = some s := by simp [get, hfind]
    rw [hk]
    by_cases hempty : s.erase a = []
    · simp only [hempty, if_true, erasedSet]
      rw [get_erase]
    · simp only [hempty, if_false, erasedSet]
      rw [get_erase_insert]

/-! ### The relation after an update -/

omit [DecidableEq α] in
theorem Indexes_empty : Indexes (∅ : SetMap κ α lt) (fun _ _ => False) :=
  ⟨fun k s hs => by simp [get] at hs, fun _ _ _ h => h⟩

omit [DecidableEq α] in
theorem Indexes.congr {m : SetMap κ α lt} {R R' : α → κ → Prop} (h : m.Indexes R)
    (hR : ∀ a k, R a k ↔ R' a k) : m.Indexes R' where
  some_set k s hs := by
    obtain ⟨hne, hnd, hmem⟩ := h.some_set k s hs
    exact ⟨hne, hnd, fun a => (hmem a).trans (hR a k)⟩
  none_set k hs a hra := h.none_set k hs a ((hR a k).2 hra)

omit [DecidableEq α] in
/-- The values of the set of a key, or none, are the values related to it. -/
theorem Indexes.getD {m : SetMap κ α lt} {R : α → κ → Prop} (h : m.Indexes R) (k : κ) :
    ((get m k).getD []).Nodup ∧ ∀ b, b ∈ (get m k).getD [] ↔ R b k := by
  cases hs : get m k with
  | none => exact ⟨List.nodup_nil, fun b => by simpa using h.none_set k hs b⟩
  | some s =>
    obtain ⟨-, hnd, hmem⟩ := h.some_set k s hs
    exact ⟨hnd, hmem⟩

theorem Indexes.insertAt {m : SetMap κ α lt} {R : α → κ → Prop} (h : m.Indexes R) (k : κ)
    (a : α) : (m.insertAt k a).Indexes (fun b k' => R b k' ∨ (b = a ∧ k' = k)) where
  some_set k' s hs := by
    rw [get_insertAt] at hs
    split_ifs at hs with hk
    · -- the old set of `k`, or none, with `a` added
      subst hk
      cases hs
      obtain ⟨hnd, hmem⟩ := h.getD k'
      refine ⟨List.ne_nil_of_mem (List.mem_insert_self : a ∈ ((get m k').getD []).insert a),
        hnd.insert, fun b => ?_⟩
      rw [List.mem_insert_iff, hmem b]
      simp [or_comm]
    · obtain ⟨hne, hnd, hmem⟩ := h.some_set k' s hs
      exact ⟨hne, hnd, fun b => by rw [hmem b]; simp [hk]⟩
  none_set k' hs b hb := by
    rw [get_insertAt] at hs
    split_ifs at hs with hk
    rcases hb with hb | ⟨-, hkk⟩
    · exact h.none_set k' hs b hb
    · exact hk hkk

theorem Indexes.eraseAt {m : SetMap κ α lt} {R : α → κ → Prop} (h : m.Indexes R) (k : κ)
    (a : α) : (m.eraseAt k a).Indexes (fun b k' => R b k' ∧ ¬ (b = a ∧ k' = k)) := by
  -- the old set of `k` without `a` holds the related values other than `a`
  have herase : ∀ s, get m k = some s →
      (s.erase a).Nodup ∧ ∀ b, b ∈ s.erase a ↔ R b k ∧ ¬ (b = a ∧ k = k) := by
    intro s hs
    obtain ⟨-, hnd, hmem⟩ := h.some_set k s hs
    refine ⟨hnd.erase a, fun b => ?_⟩
    rw [hnd.mem_erase_iff, hmem b]
    simp [and_comm]
  constructor
  · intro k' s hs
    rw [get_eraseAt] at hs
    split_ifs at hs with hk
    · subst hk
      cases hold : get m k' with
      | none => rw [hold] at hs; cases hs
      | some s₀ =>
        rw [hold] at hs
        dsimp only [erasedSet] at hs
        split_ifs at hs with hempty
        cases hs
        exact ⟨hempty, (herase s₀ hold).1, (herase s₀ hold).2⟩
    · obtain ⟨hne, hnd, hmem⟩ := h.some_set k' s hs
      exact ⟨hne, hnd, fun b => by rw [hmem b]; simp [hk]⟩
  · intro k' hs b hb
    rw [get_eraseAt] at hs
    split_ifs at hs with hk
    · subst hk
      cases hold : get m k' with
      | none => exact h.none_set k' hold b hb.1
      | some s₀ =>
        rw [hold] at hs
        dsimp only [erasedSet] at hs
        split_ifs at hs with hempty
        have hmem := ((herase s₀ hold).2 b).2 hb
        rw [hempty] at hmem
        exact List.not_mem_nil hmem
    · exact h.none_set k' hs b hb.1

/-- Inserting one value into the sets of each of a list of keys. -/
theorem Indexes.insertAll {R : α → κ → Prop} (a : α) :
    ∀ (ks : List κ) (m : SetMap κ α lt), m.Indexes R →
      (ks.foldl (fun m k => m.insertAt k a) m).Indexes (fun b k' => R b k' ∨ (b = a ∧ k' ∈ ks))
  | [], m, h => h.congr fun b k => by simp
  | k :: ks, m, h => by
    refine ((h.insertAt k a).insertAll a ks _).congr fun b k' => ?_
    simp only [List.mem_cons]
    constructor
    · rintro ((hb | ⟨rfl, rfl⟩) | ⟨rfl, hk'⟩)
      · exact Or.inl hb
      · exact Or.inr ⟨rfl, Or.inl rfl⟩
      · exact Or.inr ⟨rfl, Or.inr hk'⟩
    · rintro (hb | ⟨rfl, rfl | hk'⟩)
      · exact Or.inl (Or.inl hb)
      · exact Or.inl (Or.inr ⟨rfl, rfl⟩)
      · exact Or.inr ⟨rfl, hk'⟩

/-- Erasing one value from the sets of each of a list of keys. -/
theorem Indexes.eraseAll {R : α → κ → Prop} (a : α) :
    ∀ (ks : List κ) (m : SetMap κ α lt), m.Indexes R →
      (ks.foldl (fun m k => m.eraseAt k a) m).Indexes (fun b k' => R b k' ∧ ¬ (b = a ∧ k' ∈ ks))
  | [], m, h => h.congr fun b k => by simp
  | k :: ks, m, h => by
    refine ((h.eraseAt k a).eraseAll a ks _).congr fun b k' => ?_
    simp only [List.mem_cons]
    constructor
    · rintro ⟨⟨hb, hk⟩, hks⟩
      refine ⟨hb, ?_⟩
      rintro ⟨rfl, rfl | hk'⟩
      · exact hk ⟨rfl, rfl⟩
      · exact hks ⟨rfl, hk'⟩
    · rintro ⟨hb, hnot⟩
      exact ⟨⟨hb, fun hk => hnot ⟨hk.1, Or.inl hk.2⟩⟩, fun hk => hnot ⟨hk.1, Or.inr hk.2⟩⟩

end SetMap
