import Mathlib.Logic.Function.Basic
import Mathlib.Data.List.Basic

/-!
# Erasures and insertions on a partial map, and their undo

A store of values by key, seen as a partial map `κ → Option ν`, changes by point updates: a key
is erased, or a value is inserted at a key. A run of erasures that records the values the keys
held is undone by inserting the recorded values again, and a run of insertions at keys that held
nothing is undone by erasing those keys. Both need the keys of the run to be distinct, so that no
step overwrites what an earlier step of the same run wrote.

## Main definitions

* `PartialMap.eraseAll M ks` — the keys of `ks` erased in turn.
* `PartialMap.insertAll M l` — the pairs of `l` inserted in turn.

## Main results

* `PartialMap.eraseAll_apply_of_mem`, `PartialMap.eraseAll_apply_of_not_mem`,
  `PartialMap.insertAll_apply_of_mem`, `PartialMap.insertAll_apply_of_not_mem` — the value at
  one key after a run.
* `PartialMap.insertAll_eraseAll` — inserting the recorded values undoes the erasures.
* `PartialMap.eraseAll_insertAll` — erasing the inserted keys undoes the insertions.
-/

set_option autoImplicit false

namespace PartialMap

variable {κ ν : Type*} [DecidableEq κ]

/-- The keys of `ks` erased in turn. -/
def eraseAll (M : κ → Option ν) (ks : List κ) : κ → Option ν :=
  ks.foldl (fun M k => Function.update M k none) M

/-- The pairs of `l` inserted in turn. -/
def insertAll (M : κ → Option ν) (l : List (κ × ν)) : κ → Option ν :=
  l.foldl (fun M p => Function.update M p.1 (some p.2)) M

@[simp] theorem eraseAll_nil (M : κ → Option ν) : eraseAll M [] = M := rfl

@[simp] theorem eraseAll_cons (M : κ → Option ν) (k : κ) (ks : List κ) :
    eraseAll M (k :: ks) = eraseAll (Function.update M k none) ks := rfl

@[simp] theorem insertAll_nil (M : κ → Option ν) : insertAll M [] = M := rfl

@[simp] theorem insertAll_cons (M : κ → Option ν) (p : κ × ν) (l : List (κ × ν)) :
    insertAll M (p :: l) = insertAll (Function.update M p.1 (some p.2)) l := rfl

/-! ### The value at one key -/

theorem eraseAll_apply_of_not_mem (M : κ → Option ν) {ks : List κ} {k : κ} (hk : k ∉ ks) :
    eraseAll M ks k = M k := by
  induction ks generalizing M with
  | nil => rfl
  | cons k' ks ih =>
    rw [List.mem_cons, not_or] at hk
    rw [eraseAll_cons, ih _ hk.2, Function.update_of_ne hk.1]

theorem eraseAll_apply_of_mem (M : κ → Option ν) {ks : List κ} {k : κ} (hk : k ∈ ks) :
    eraseAll M ks k = none := by
  induction ks generalizing M with
  | nil => cases hk
  | cons k' ks ih =>
    rw [eraseAll_cons]
    by_cases hks : k ∈ ks
    · exact ih _ hks
    · -- the last erasure of `k` is this one
      have hkk : k = k' := (List.mem_cons.1 hk).resolve_right hks
      rw [eraseAll_apply_of_not_mem _ hks, hkk, Function.update_self]

/-- An erasure run depends on the set of its keys only. -/
theorem eraseAll_congr (M : κ → Option ν) {ks ks' : List κ} (h : ∀ k, k ∈ ks ↔ k ∈ ks') :
    eraseAll M ks = eraseAll M ks' := by
  funext k
  by_cases hk : k ∈ ks
  · rw [eraseAll_apply_of_mem M hk, eraseAll_apply_of_mem M ((h k).1 hk)]
  · rw [eraseAll_apply_of_not_mem M hk, eraseAll_apply_of_not_mem M (mt (h k).2 hk)]

/-- An erasure run leaves only values the map held. -/
theorem eq_of_eraseAll_apply_eq_some {M : κ → Option ν} {ks : List κ} {k : κ} {v : ν}
    (h : eraseAll M ks k = some v) : M k = some v := by
  by_cases hk : k ∈ ks
  · rw [eraseAll_apply_of_mem M hk] at h
    cases h
  · rwa [eraseAll_apply_of_not_mem M hk] at h

theorem insertAll_apply_of_not_mem (M : κ → Option ν) {l : List (κ × ν)} {k : κ}
    (hk : k ∉ l.map Prod.fst) : insertAll M l k = M k := by
  induction l generalizing M with
  | nil => rfl
  | cons p l ih =>
    rw [List.map_cons, List.mem_cons, not_or] at hk
    rw [insertAll_cons, ih _ hk.2, Function.update_of_ne hk.1]

theorem insertAll_apply_of_mem (M : κ → Option ν) {l : List (κ × ν)}
    (hl : (l.map Prod.fst).Nodup) {k : κ} {v : ν} (hkv : (k, v) ∈ l) :
    insertAll M l k = some v := by
  induction l generalizing M with
  | nil => cases hkv
  | cons p l ih =>
    rw [List.map_cons, List.nodup_cons] at hl
    rw [insertAll_cons]
    rcases List.mem_cons.1 hkv with rfl | hkv
    · -- no later pair has the key `k`
      rw [insertAll_apply_of_not_mem _ hl.1, Function.update_self]
    · exact ih _ hl.2 hkv

/-- An insertion run leaves values of the run or values the map held. -/
theorem mem_or_eq_of_insertAll_apply_eq_some {M : κ → Option ν} {l : List (κ × ν)} {k : κ}
    {v : ν} (h : insertAll M l k = some v) : (k, v) ∈ l ∨ M k = some v := by
  induction l generalizing M with
  | nil => exact Or.inr h
  | cons p l ih =>
    rw [insertAll_cons] at h
    rcases ih h with hl | hM
    · exact Or.inl (List.mem_cons_of_mem p hl)
    · by_cases hk : k = p.1
      · rw [hk, Function.update_self, Option.some.injEq] at hM
        left
        rw [hk, ← hM]
        exact List.mem_cons_self
      · rw [Function.update_of_ne hk] at hM
        exact Or.inr hM

/-! ### Undo -/

/-- Inserting the values erased keys held puts them back. -/
theorem insertAll_eraseAll (M : κ → Option ν) {l : List (κ × ν)} (hl : (l.map Prod.fst).Nodup)
    (hM : ∀ p ∈ l, M p.1 = some p.2) : insertAll (eraseAll M (l.map Prod.fst)) l = M := by
  funext k
  by_cases hk : k ∈ l.map Prod.fst
  · obtain ⟨⟨k', v⟩, hp, rfl⟩ := List.mem_map.1 hk
    rw [insertAll_apply_of_mem _ hl hp, hM _ hp]
  · rw [insertAll_apply_of_not_mem _ hk, eraseAll_apply_of_not_mem _ hk]

/-- Erasing the keys inserted where the map held nothing puts it back. -/
theorem eraseAll_insertAll (M : κ → Option ν) {l : List (κ × ν)}
    (hM : ∀ p ∈ l, M p.1 = none) : eraseAll (insertAll M l) (l.map Prod.fst) = M := by
  funext k
  by_cases hk : k ∈ l.map Prod.fst
  · obtain ⟨p, hp, rfl⟩ := List.mem_map.1 hk
    rw [eraseAll_apply_of_mem _ hk, hM p hp]
  · rw [eraseAll_apply_of_not_mem _ hk, insertAll_apply_of_not_mem _ hk]

end PartialMap
