import Mathlib.Data.List.Basic

/-!
# Generational filters: a window with no false negatives

A generational filter keeps, for every cell, the generation in which an entry last marked it,
`0` for a cell no entry has marked. Entries are counted in generations of `E`; the generations
are numbered `1, 2, 3, 1, …`, and starting a generation clears the cells that still carry its
number, marked three generations before. An entry is reported present when all its cells are
marked. Rolling Bloom filters store their data this way, with each entry's cells chosen by
hash functions.

This module states the filter over an arbitrary type of cells and proves its guarantee: from
any well-formed state, an entry is reported present after any `2 * E` further entries, whatever
their cells.

## Main definitions

* `GenFilter.State` — the tags of the cells, the current generation and the number of entries
  in it.
* `GenFilter.State.startEntry`, `GenFilter.State.mark` — counting an entry, starting a new
  generation after `E` of them, and marking its cells.
* `GenFilter.State.insert`, `GenFilter.State.contains`, `GenFilter.State.run`.
* `GenFilter.State.WF` — the generation is one of `1, 2, 3` and at most `E` entries are in it.
* `GenFilter.State.Window` — the invariant of an entry inserted some entries ago.

## Main results

* `GenFilter.State.WF.startEntry`, `GenFilter.State.WF.insert` — insertion keeps the state
  well formed.
* `GenFilter.State.Window.insert`, `GenFilter.State.Window.run` — the window invariant along
  further entries, while fewer than three generations have started.
* `GenFilter.State.contains_insert_run` — an entry is reported present after `2 * E` further
  entries.

## Implementation notes

The window invariant counts the generations started since the entry, `d`, with the entry the
`k`-th of its generation and `j` entries after it, so that `d * E + count = k + j`. Every cell of
the entry then carries one of the `d + 1` generations from the entry's on; clearing the next
generation cannot hit one of them while `d + 1 ≤ 2`, since the numbers of three consecutive
generations differ.
-/

set_option autoImplicit false

universe u

namespace GenFilter

/-- The generation after `g`: `g + 1`, and `1` after `3`. -/
def next (g : Nat) : Nat := if g + 1 = 4 then 1 else g + 1

/-- The generation `d` generations after `g`. -/
def after (g d : Nat) : Nat := (g - 1 + d) % 3 + 1

theorem next_after (g d : Nat) : next (after g d) = after g (d + 1) := by
  unfold next after
  split <;> omega

theorem next_mem {g : Nat} (h1 : 1 ≤ g) (h3 : g ≤ 3) : 1 ≤ next g ∧ next g ≤ 3 := by
  unfold next
  split <;> omega

theorem after_zero {g : Nat} (h1 : 1 ≤ g) (h3 : g ≤ 3) : after g 0 = g := by
  unfold after
  omega

theorem after_pos (g d : Nat) : 1 ≤ after g d := by
  unfold after
  omega

/-- Three consecutive generations have different numbers. -/
theorem after_ne_of_lt {g i d : Nat} (hi : i < d) (hd : d ≤ 2) : after g i ≠ after g d := by
  unfold after
  omega

variable {C : Type u} [DecidableEq C]

/-- A generational filter over the cells `C`. -/
structure State (C : Type u) where
  /-- The generation that last marked each cell, `0` for none. -/
  tag : C → Nat
  /-- The current generation. -/
  gen : Nat
  /-- The number of entries inserted in the current generation. -/
  count : Nat

namespace State

/-- The filter with no entries. -/
def empty : State C := ⟨fun _ => 0, 1, 0⟩

/-- Start the next generation: the cells that carry its number are cleared. -/
def newGeneration (s : State C) : State C where
  tag c := if s.tag c = next s.gen then 0 else s.tag c
  gen := next s.gen
  count := 0

variable (E : Nat)

/-- Count a new entry: a new generation starts after `E` entries. -/
def startEntry (s : State C) : State C :=
  let s := if s.count = E then s.newGeneration else s
  { s with count := s.count + 1 }

/-- Mark `cells` with the current generation. -/
def mark (s : State C) (cells : List C) : State C :=
  { s with tag := fun c => if c ∈ cells then s.gen else s.tag c }

/-- Insert an entry whose cells are `cells`. -/
def insert (s : State C) (cells : List C) : State C := (s.startEntry E).mark cells

/-- An entry is reported present when every one of its cells is marked. -/
def contains (s : State C) (cells : List C) : Bool := cells.all fun c => s.tag c != 0

/-- Insert entries one after another. -/
def run (s : State C) (entries : List (List C)) : State C := entries.foldl (insert E) s

@[simp]
theorem run_nil (s : State C) : s.run E [] = s := rfl

@[simp]
theorem run_cons (s : State C) (cells : List C) (entries : List (List C)) :
    s.run E (cells :: entries) = (s.insert E cells).run E entries := rfl

theorem insert_of_full (s : State C) (cells : List C) (h : s.count = E) :
    s.insert E cells = { tag := fun c => if c ∈ cells then next s.gen
                                        else if s.tag c = next s.gen then 0 else s.tag c,
                         gen := next s.gen, count := 1 } := by
  simp [insert, startEntry, mark, h, newGeneration]

theorem insert_of_ne (s : State C) (cells : List C) (h : s.count ≠ E) :
    s.insert E cells = { tag := fun c => if c ∈ cells then s.gen else s.tag c,
                         gen := s.gen, count := s.count + 1 } := by
  simp [insert, startEntry, mark, h]

/-! ### Well-formed states -/

/-- The generation is one of `1, 2, 3`, with at most `E` entries in it. -/
structure WF (s : State C) : Prop where
  gen_pos : 1 ≤ s.gen
  gen_le : s.gen ≤ 3
  count_le : s.count ≤ E

omit [DecidableEq C] in
theorem WF.empty : WF E (State.empty : State C) :=
  ⟨Nat.le_refl 1, (by decide : 1 ≤ 3), Nat.zero_le E⟩

/-- The entry with cells `X` was the `k`-th of the generation `gx`, `j` entries came after it,
and `d` generations have started since: every cell of the entry carries one of the
generations from the entry's on. -/
structure Window (X : List C) (gx k j d : Nat) (s : State C) : Prop where
  count_pos : 1 ≤ s.count
  count_le : s.count ≤ E
  elapsed : d * E + s.count = k + j
  gen_eq : s.gen = after gx d
  tags : ∀ c ∈ X, ∃ i ≤ d, s.tag c = after gx i

variable {E}

omit [DecidableEq C] in
theorem WF.startEntry {s : State C} (hs : WF E s) (hE : 1 ≤ E) : WF E (s.startEntry E) := by
  by_cases h : s.count = E
  · have hnext := next_mem hs.gen_pos hs.gen_le
    simp only [State.startEntry, h, if_true, newGeneration]
    exact ⟨hnext.1, hnext.2, hE⟩
  · have hlt : s.count + 1 ≤ E := by
      have := hs.count_le
      omega
    simp only [State.startEntry, h, if_false]
    exact ⟨hs.gen_pos, hs.gen_le, hlt⟩

theorem WF.insert {s : State C} (hs : WF E s) (hE : 1 ≤ E) (cells : List C) :
    WF E (s.insert E cells) :=
  have hstart := hs.startEntry hE
  ⟨hstart.gen_pos, hstart.gen_le, hstart.count_le⟩

theorem WF.run {s : State C} (hs : WF E s) (hE : 1 ≤ E) (entries : List (List C)) :
    WF E (s.run E entries) := by
  induction entries generalizing s with
  | nil => exact hs
  | cons cells entries ih => exact ih (hs.insert hE cells)

/-! ### The window of an entry -/

/-- Right after its insertion an entry is in its window. -/
theorem window_insert {s : State C} (hs : WF E s) (hE : 1 ≤ E) (X : List C) :
    Window E X (s.insert E X).gen (s.insert E X).count 0 0 (s.insert E X) := by
  have hwf := hs.insert hE X
  refine ⟨?_, hwf.count_le, by simp, (after_zero hwf.gen_pos hwf.gen_le).symm, ?_⟩
  · by_cases h : s.count = E
    · simp [insert_of_full E s X h]
    · simp [insert_of_ne E s X h]
  · intro c hc
    refine ⟨0, Nat.le_refl 0, ?_⟩
    rw [after_zero hwf.gen_pos hwf.gen_le]
    by_cases h : s.count = E
    · simp [insert_of_full E s X h, hc]
    · simp [insert_of_ne E s X h, hc]

/-- One more entry keeps the window while fewer than three generations have started. -/
theorem Window.insert {X : List C} {gx k j d : Nat} {s : State C} (hw : Window E X gx k j d s)
    (hE : 1 ≤ E) (hj : k + j + 1 ≤ 3 * E) (cells : List C) :
    ∃ d', Window E X gx k (j + 1) d' (s.insert E cells) := by
  by_cases h : s.count = E
  · -- a new generation starts; it is at most the second since the entry's
    have hd : d + 1 ≤ 2 := by
      have : (d + 1) * E < 3 * E := by
        have := hw.elapsed
        rw [Nat.succ_mul]
        omega
      have := Nat.lt_of_mul_lt_mul_right this
      omega
    refine ⟨d + 1, ?_⟩
    rw [insert_of_full E s cells h]
    refine ⟨Nat.le_refl 1, hE, ?_, ?_, ?_⟩
    · have := hw.elapsed
      show (d + 1) * E + 1 = k + (j + 1)
      rw [Nat.succ_mul]
      omega
    · simp only
      rw [hw.gen_eq, next_after]
    · intro c hc
      obtain ⟨i, hi, htag⟩ := hw.tags c hc
      have hkeep : s.tag c ≠ next s.gen := by
        rw [htag, hw.gen_eq, next_after]
        exact after_ne_of_lt (by omega) hd
      by_cases hcells : c ∈ cells
      · exact ⟨d + 1, Nat.le_refl _, by simp [hcells, hw.gen_eq, next_after]⟩
      · exact ⟨i, by omega, by simp only [hcells, hkeep, if_false]; exact htag⟩
  · refine ⟨d, ?_⟩
    rw [insert_of_ne E s cells h]
    refine ⟨by simp, ?_, ?_, hw.gen_eq, ?_⟩
    · have := hw.count_le
      simp only
      omega
    · have := hw.elapsed
      simp only
      omega
    · intro c hc
      by_cases hcells : c ∈ cells
      · exact ⟨d, Nat.le_refl d, by simp [hcells, hw.gen_eq]⟩
      · simpa [hcells] using hw.tags c hc

theorem Window.run {X : List C} {gx k : Nat} (hE : 1 ≤ E) (entries : List (List C)) :
    ∀ {j d : Nat} {s : State C}, Window E X gx k j d s → k + j + entries.length ≤ 3 * E →
      ∃ d', Window E X gx k (j + entries.length) d' (s.run E entries) := by
  induction entries with
  | nil => exact fun hw _ => ⟨_, hw⟩
  | cons cells entries ih =>
    intro j d s hw hlen
    simp only [List.length_cons] at hlen
    obtain ⟨d', hw'⟩ := hw.insert hE (by omega) cells
    obtain ⟨d'', hw''⟩ := ih hw' (by omega)
    exact ⟨d'', by simpa [Nat.add_assoc, Nat.add_comm 1] using hw''⟩

omit [DecidableEq C] in
/-- Within its window every cell of the entry is marked. -/
theorem Window.contains {X : List C} {gx k j d : Nat} {s : State C}
    (hw : Window E X gx k j d s) : s.contains X = true := by
  simp only [State.contains, List.all_eq_true, bne_iff_ne, ne_eq]
  intro c hc
  obtain ⟨i, -, htag⟩ := hw.tags c hc
  have := after_pos gx i
  omega

/-- From a well-formed state, an entry is reported present after any `2 * E` further
entries. -/
theorem contains_insert_run {s : State C} (hs : WF E s) (hE : 1 ≤ E) (X : List C)
    (entries : List (List C)) (hlen : entries.length ≤ 2 * E) :
    ((s.insert E X).run E entries).contains X = true := by
  have hk := (hs.insert hE X).count_le
  obtain ⟨d, hw⟩ := (window_insert hs hE X).run hE entries (by omega)
  exact hw.contains

end State

end GenFilter
