import Mathlib.Data.List.Sort
import Mathlib.Data.List.GetD

/-!
# Medians of windows

The median of a list is the element at the middle index of the list sorted: at index
`length / 2`, the upper one of the two middle elements of a list of even length. It depends
only on the elements, not their order, and it is bounded below by counting: an element `m` is
at most the median as soon as `length - length / 2` of the elements are at least `m`.

From that count, sliding a window keeps the median from going down when the element that enters
is at least the old median: drop the oldest elements, keep at most one fewer, and add the new
one.

## Main definitions

* `Median.median` — the element at index `length / 2` of the sorted list.

## Main results

* `Median.median_perm` — the median of a permutation is the same.
* `Median.le_median_of_countP`, `Median.countP_median` — the median and counting.
* `Median.median_le_median_cons_take` — a window that drops at most its oldest element and takes
  in one at least its median has a median at least as large.
-/

set_option autoImplicit false

universe u

namespace Median

open List

variable {α : Type u} [LinearOrder α]

/-! ### Sorted lists and counting -/

/-- An element of a sorted list is at least `m` when at least as many of the list's elements are
at least `m` as stand from its index on. -/
theorem le_getElem_of_countP {s : List α} (hs : s.SortedLE) {i : Nat} (hi : i < s.length) {m : α}
    (hcount : s.length - i ≤ s.countP fun x => decide (m ≤ x)) : m ≤ s[i] := by
  by_contra hlt
  rw [not_le] at hlt
  -- the elements up to index `i` are at most `s[i]`, so below `m`
  have htake : (s.take (i + 1)).countP (fun x => decide (m ≤ x)) = 0 := by
    rw [countP_eq_zero]
    intro x hx hmx
    obtain ⟨j, hj, rfl⟩ := List.getElem_of_mem hx
    rw [List.getElem_take] at hmx
    have hji : j ≤ i := by
      rw [List.length_take] at hj
      omega
    have hjs : j < s.length := by omega
    have hle : s[j] ≤ s[i] := hs.getElem_le_getElem_of_le hji
    exact absurd (lt_of_le_of_lt hle hlt) (not_lt.2 (of_decide_eq_true hmx))
  have hdrop : (s.drop (i + 1)).countP (fun x => decide (m ≤ x)) ≤ (s.drop (i + 1)).length :=
    countP_le_length
  have hsplit : s.countP (fun x => decide (m ≤ x)) =
      (s.take (i + 1)).countP (fun x => decide (m ≤ x)) +
        (s.drop (i + 1)).countP (fun x => decide (m ≤ x)) := by
    rw [← countP_append, List.take_append_drop]
  rw [List.length_drop] at hdrop
  omega

/-- At least as many elements of a sorted list are at least its element at index `i` as stand
from `i` on. -/
theorem countP_getElem {s : List α} (hs : s.SortedLE) {i : Nat} (hi : i < s.length) :
    s.length - i ≤ s.countP fun x => decide (s[i] ≤ x) := by
  have hdrop : (s.drop i).countP (fun x => decide (s[i] ≤ x)) = (s.drop i).length := by
    rw [countP_eq_length]
    intro x hx
    obtain ⟨j, hj, rfl⟩ := List.getElem_of_mem hx
    rw [List.getElem_drop]
    exact decide_eq_true (hs.getElem_le_getElem_of_le (Nat.le_add_right i j))
  have hsplit : s.countP (fun x => decide (s[i] ≤ x)) =
      (s.take i).countP (fun x => decide (s[i] ≤ x)) +
        (s.drop i).countP (fun x => decide (s[i] ≤ x)) := by
    rw [← countP_append, List.take_append_drop]
  rw [List.length_drop] at hdrop
  omega

/-! ### The median -/

/-- The element at index `length / 2` of the sorted list, or `d` for the empty list. -/
def median (d : α) (l : List α) : α := (l.insertionSort (· ≤ ·)).getD (l.length / 2) d

theorem median_perm (d : α) {l₁ l₂ : List α} (h : l₁.Perm l₂) : median d l₁ = median d l₂ := by
  have hsort : l₁.insertionSort (· ≤ ·) = l₂.insertionSort (· ≤ ·) :=
    (((perm_insertionSort _ l₁).trans h).trans (perm_insertionSort _ l₂).symm).eq_of_sortedLE
      sortedLE_insertionSort sortedLE_insertionSort
  unfold median
  rw [hsort, h.length_eq]

theorem median_eq_getElem (d : α) {l : List α} (hl : l ≠ []) :
    ∃ h : l.length / 2 < (l.insertionSort (· ≤ ·)).length,
      median d l = (l.insertionSort (· ≤ ·))[l.length / 2] := by
  have hlen : l.length / 2 < (l.insertionSort (· ≤ ·)).length := by
    rw [length_insertionSort]
    have := List.length_pos_iff.2 hl
    omega
  exact ⟨hlen, by unfold median; rw [List.getD_eq_getElem _ _ hlen]⟩

/-- At least `length - length / 2` elements are at least the median. -/
theorem countP_median (d : α) {l : List α} (hl : l ≠ []) :
    l.length - l.length / 2 ≤ l.countP fun x => decide (median d l ≤ x) := by
  obtain ⟨hlen, hmed⟩ := median_eq_getElem d hl
  have := countP_getElem sortedLE_insertionSort hlen
  rw [length_insertionSort, (perm_insertionSort _ l).countP_eq, ← hmed] at this
  exact this

/-- `m` is at most the median when at least `length - length / 2` elements are at least `m`. -/
theorem le_median_of_countP (d : α) {l : List α} (hl : l ≠ []) {m : α}
    (hcount : l.length - l.length / 2 ≤ l.countP fun x => decide (m ≤ x)) : m ≤ median d l := by
  obtain ⟨hlen, hmed⟩ := median_eq_getElem d hl
  rw [hmed]
  apply le_getElem_of_countP sortedLE_insertionSort hlen
  rw [length_insertionSort, (perm_insertionSort _ l).countP_eq]
  exact hcount

/-- A window that keeps all but at most its last element and takes in, in front, an element at
least its median, has a median at least as large. -/
theorem median_le_median_cons_take (d : α) {l : List α} (hl : l ≠ []) {t : α}
    (ht : median d l ≤ t) {k : Nat} (hk : l.length ≤ k + 1) :
    median d l ≤ median d (t :: l.take k) := by
  set m := median d l with hm
  have hc := countP_median d hl
  rw [← hm] at hc
  -- counting the elements at least `m`: the dropped ones are at most `length - k`
  have hsplit : l.countP (fun x => decide (m ≤ x)) =
      (l.take k).countP (fun x => decide (m ≤ x)) + (l.drop k).countP (fun x => decide (m ≤ x)) := by
    rw [← countP_append, List.take_append_drop]
  have hdrop : (l.drop k).countP (fun x => decide (m ≤ x)) ≤ (l.drop k).length :=
    countP_le_length
  rw [List.length_drop] at hdrop
  apply le_median_of_countP d (List.cons_ne_nil _ _)
  rw [List.countP_cons, List.length_cons, List.length_take]
  simp only [ht, decide_true, if_true]
  omega

end Median
