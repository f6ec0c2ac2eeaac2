import Mathlib.Data.List.Sort

/-!
# Sets ordered by a key

A `std::set<T>` whose `operator<` compares only a key of its elements behaves as a map from
keys to elements in which `insert` never replaces: inserting an element whose key is present
leaves the set as it was. Iteration visits the elements in increasing key order.

## Main definitions

* `KeyedSet key lt` — the elements in key order, no two with the same key.
* `KeyedSet.insert`, `KeyedSet.erase`, `KeyedSet.contains`, `KeyedSet.find?`.

## Main results

* `KeyedSet.find?_insert` — `insert` adds an element exactly when its key is absent.
* `KeyedSet.find?_erase` — `erase` removes exactly the element of the key.
* `KeyedSet.contains_eq_isSome_find?` — membership is lookup.
* `KeyedSet.length_erase_add_one` — erasing the key of a member removes one element.

## Design

The order of iteration matters to the code that walks a set and writes to a store in which
two elements may touch the same entry; the elements are therefore kept in the order of
`List.orderedInsert`, by a Boolean comparison `lt` on keys. No law of `lt` is needed for the
lookup lemmas: the key-distinctness invariant is a field of the structure.
-/

set_option autoImplicit false

universe u v

/-- A set of elements ordered by a key: its list in insertion order of `lt`, and no two
elements with the same key. -/
structure KeyedSet {α : Type u} {κ : Type v} (key : α → κ) (lt : κ → κ → Bool) where
  toList : List α
  nodup : (toList.map key).Nodup

namespace KeyedSet

variable {α : Type u} {κ : Type v} [DecidableEq κ] {key : α → κ} {lt : κ → κ → Bool}

instance : EmptyCollection (KeyedSet key lt) := ⟨⟨[], List.nodup_nil⟩⟩

/-- The element of a key, if any. -/
def find? (s : KeyedSet key lt) (k : κ) : Option α := s.toList.find? fun a => key a = k

/-- `std::set::count`: whether an element has the key. -/
def contains (s : KeyedSet key lt) (k : κ) : Bool := s.toList.any fun a => key a = k

omit [DecidableEq κ] in
theorem nodup_orderedInsert_of_notMem {l : List α} {a : α} (hl : (l.map key).Nodup)
    (ha : key a ∉ l.map key) :
    ((l.orderedInsert (fun x y => lt (key x) (key y) = true) a).map key).Nodup := by
  have hperm := (List.perm_orderedInsert (fun x y => lt (key x) (key y) = true) a l).map key
  rw [hperm.nodup_iff, List.map_cons, List.nodup_cons]
  exact ⟨ha, hl⟩

/-- `std::set::insert`: adds the element unless one with its key is present. -/
def insert (s : KeyedSet key lt) (a : α) : KeyedSet key lt :=
  if h : s.contains (key a) then s
  else
    ⟨s.toList.orderedInsert (fun x y => lt (key x) (key y) = true) a,
      nodup_orderedInsert_of_notMem s.nodup (by simpa [contains] using h)⟩

/-- `std::set::erase(key)`: removes the element of the key. -/
def erase (s : KeyedSet key lt) (k : κ) : KeyedSet key lt :=
  ⟨s.toList.filter fun a => key a ≠ k, (List.filter_sublist.map key).nodup s.nodup⟩

/-- The characterisation of lookup: the element found is the member with the key. -/
theorem find?_eq_some_iff (s : KeyedSet key lt) (k : κ) (a : α) :
    s.find? k = some a ↔ a ∈ s.toList ∧ key a = k := by
  constructor
  · intro h
    exact ⟨List.mem_of_find?_eq_some h, by simpa using List.find?_some h⟩
  · rintro ⟨hmem, rfl⟩
    obtain ⟨b, hb⟩ : ∃ b, s.find? (key a) = some b := by
      apply Option.isSome_iff_exists.1
      simp only [find?, List.find?_isSome, decide_eq_true_eq]
      exact ⟨a, hmem, rfl⟩
    have hbmem : b ∈ s.toList := List.mem_of_find?_eq_some hb
    have hbkey : key b = key a := by simpa using List.find?_some hb
    rw [hb, List.inj_on_of_nodup_map s.nodup hbmem hmem hbkey]

theorem contains_eq_isSome_find? (s : KeyedSet key lt) (k : κ) :
    s.contains k = (s.find? k).isSome := by
  simp only [contains, find?]
  rw [Bool.eq_iff_iff, List.any_eq_true, List.find?_isSome]

theorem contains_iff (s : KeyedSet key lt) (k : κ) :
    s.contains k = true ↔ ∃ a ∈ s.toList, key a = k := by
  simp [contains]

/-- `insert` adds the element exactly when its key is absent. -/
theorem find?_insert (s : KeyedSet key lt) (a : α) (k : κ) :
    (s.insert a).find? k =
      if s.contains (key a) then s.find? k else if key a = k then some a else s.find? k := by
  by_cases h : s.contains (key a)
  · simp [insert, h]
  · have habsent : ∀ b ∈ s.toList, key b ≠ key a := by
      intro b hb hba
      exact h ((contains_iff s _).2 ⟨b, hb, hba⟩)
    rw [if_neg h]
    apply Option.ext
    intro b
    rw [find?_eq_some_iff]
    simp only [insert, dif_neg h, List.mem_orderedInsert]
    split_ifs with hk
    · constructor
      · rintro ⟨rfl | hb, hbk⟩
        · rfl
        · exact absurd (hbk.trans hk.symm) (habsent b hb)
      · intro hab
        cases hab
        exact ⟨Or.inl rfl, hk⟩
    · rw [find?_eq_some_iff]
      constructor
      · rintro ⟨rfl | hb, hbk⟩
        · exact absurd hbk hk
        · exact ⟨hb, hbk⟩
      · rintro ⟨hb, hbk⟩
        exact ⟨Or.inr hb, hbk⟩

/-- `erase` removes exactly the element of the key. -/
theorem find?_erase (s : KeyedSet key lt) (k' k : κ) :
    (s.erase k').find? k = if k = k' then none else s.find? k := by
  apply Option.ext
  intro b
  rw [find?_eq_some_iff]
  simp only [erase, List.mem_filter, decide_eq_true_eq]
  split_ifs with hk
  · simp only [iff_false, not_and, and_imp]
    intro _ hne hbk
    exact hne (hbk.trans hk)
  · rw [find?_eq_some_iff]
    constructor
    · rintro ⟨⟨hb, -⟩, hbk⟩
      exact ⟨hb, hbk⟩
    · rintro ⟨hb, hbk⟩
      exact ⟨⟨hb, hbk ▸ hk⟩, hbk⟩

@[simp] theorem find?_empty (k : κ) : (∅ : KeyedSet key lt).find? k = none := rfl

@[simp] theorem contains_empty (k : κ) : (∅ : KeyedSet key lt).contains k = false := rfl

theorem contains_erase (s : KeyedSet key lt) (k' k : κ) :
    (s.erase k').contains k = (k != k' && s.contains k) := by
  rw [contains_eq_isSome_find?, find?_erase, contains_eq_isSome_find? s k]
  split_ifs with hk <;> simp [hk]

theorem length_filter_ne_add_one {l : List α} (hl : (l.map key).Nodup) {a : α} (ha : a ∈ l) :
    (l.filter fun b => key b ≠ key a).length + 1 = l.length := by
  induction l with
  | nil => cases ha
  | cons b l ih =>
    rw [List.map_cons, List.nodup_cons] at hl
    rcases List.mem_cons.1 ha with heq | ha'
    · -- the head is the member, and every later element has another key
      subst heq
      have hall : l.filter (fun c => key c ≠ key a) = l := by
        refine List.filter_eq_self.2 fun c hc => ?_
        have hne : key c ≠ key a := fun hk => hl.1 (hk ▸ List.mem_map_of_mem hc)
        simpa using hne
      rw [List.filter_cons_of_neg (by simp), hall, List.length_cons]
    · have hne : key b ≠ key a := fun hk => hl.1 (hk ▸ List.mem_map_of_mem ha')
      rw [List.filter_cons_of_pos (by simpa using hne), List.length_cons, List.length_cons,
        ← ih hl.2 ha']

/-- Erasing the key of a member removes that member only. -/
theorem length_erase_add_one (s : KeyedSet key lt) {a : α} (ha : a ∈ s.toList) :
    (s.erase (key a)).toList.length + 1 = s.toList.length :=
  length_filter_ne_add_one s.nodup ha

/-- The members after an `insert` of an element whose key is absent. -/
theorem mem_insert (s : KeyedSet key lt) {a : α} (h : s.contains (key a) = false) (b : α) :
    b ∈ (s.insert a).toList ↔ b = a ∨ b ∈ s.toList := by
  rw [insert, dif_neg (by simp [h])]
  exact List.mem_orderedInsert _

end KeyedSet
