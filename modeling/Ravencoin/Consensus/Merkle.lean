import Mathlib.Data.Nat.Pairing
import Ravencoin.Lib.MerkleTree
import Ravencoin.Lib.Digits
import Ravencoin.Assets.Transactions

/-!
# The Merkle root and branch computation (`consensus/merkle.cpp`)

`MerkleComputation` computes the Merkle root of a list of leaves, whether two equal hashes were
paired on the way (`mutated`, the defence against CVE-2012-2459), and the branch of one leaf, in
constant space. It reads the leaves once, keeping in `inner[level]` the root of the complete
subtree of `2 ^ level` leaves for each set bit of the leaf count, and hashes a new subtree into
them as a binary counter carries. A final sweep pairs the last node of each odd level with itself
and folds the rest into the root. `ComputeMerkleRootFromBranch` climbs from a leaf along a
branch.

This module models the three functions over any type with a pair hash and proves that they
compute the tree of `MerkleTree`: for every list of at most `2 ^ 31` leaves the root is the root
of the level-by-level tree, the branch of each leaf is its path in that tree, and climbing that
branch from the leaf gives the root. For more leaves the sweep shifts `1` by `32` places, which
`uint32_t` leaves undefined.

## Main definitions

* `Ravencoin.MerkleState` — the state kept between two leaves.
* `Ravencoin.Propagate` — the loop that hashes a node into the nodes to its left.
* `Ravencoin.MerkleComputation`, `Ravencoin.ComputeMerkleRoot`, `Ravencoin.ComputeMerkleBranch`,
  `Ravencoin.ComputeMerkleRootFromBranch`.

## Main results

* `Ravencoin.Propagate_spec` — the carry loop stops at the lowest set bit of the count with the
  node that ends there, having compared the pairs it hashed and extended the branch.
* `Ravencoin.LeavesInv.step`, `Ravencoin.ProcessLeaves_spec` — after `k` leaves `inner` holds the
  node ending at leaf `k - 1` at each set bit of `k`; at `2 ^ 32` leaves the loop aborts.
* `Ravencoin.SweepLoop_spec` — the sweep ends at the root, or aborts for a tree of depth `32`.
* `Ravencoin.MerkleComputation_spec` — for every nonempty list, the root, the flag (two equal
  complete sibling nodes) and the branch, up to `2 ^ 31` leaves.
* `Ravencoin.ComputeMerkleRootFromBranch_path` — climbing a leaf's path reaches its ancestors.
* `Ravencoin.merkle_computation_refines_tree`, `Ravencoin.merkle_mutation_detects_collisions`.

## Implementation notes

The source computes over `uint256` with `CHash256` of the 64-byte concatenation and uses nothing
of either but equality, so the model takes any type with decidable equality, a pair hash and the
value of `uint256()`. `count` is a `uint32_t`; it is a natural number here, since it would wrap
to `0` only at `2 ^ 32` leaves, where the next shift `1 << 32` is undefined in both readings. An
undefined shift aborts. The pointer arguments only select which results are written, so the
model computes all three.
-/

set_option autoImplicit false

namespace Ravencoin

open Digits MerkleTree

/-! ### The model -/

/-- `((uint32_t)1) << level`: undefined from the width of `uint32_t` on. -/
def ShiftOne (level : Nat) : Except Halt Nat :=
  if level < 32 then pure (2 ^ level) else throw (.abort (str "1 << level with level >= 32"))

section Model

variable {α : Type} [DecidableEq α] (Hash : α → α → α)

/-- The state of `MerkleComputation` between two leaves: the leaves processed, the subtree
roots `inner`, the level of the one the branch leaf is in (`-1` before that leaf), the flag and
the branch so far. -/
structure MerkleState (α : Type) where
  count : Nat
  inner : Nat → α
  matchlevel : Int
  mutated : Bool
  branch : List α

/-- The loop that hashes `h` under the nodes to its left: while bit `level` of `count` is clear,
`inner[level]` and `h` are hashed into the node above, and the branch takes the sibling of the
branch leaf's ancestor. It is the `for` loop of each leaf, which also sets `mutated` when the two
are equal (`track`), and the inner `while` of the final sweep. `fuel` bounds the levels; the
shift fails first. -/
def Propagate (track : Bool) (count : Nat) (inner : Nat → α) (matchlevel : Int) :
    Nat → Nat → α → Bool → Bool → List α → Except Halt (Nat × α × Bool × Bool × List α)
  | 0, _, _, _, _, _ => throw (.abort (str "1 << level with level >= 32"))
  | fuel + 1, level, h, matchh, mutated, branch => do
    let bit ← ShiftOne level
    if count &&& bit ≠ 0 then pure (level, h, matchh, mutated, branch)
    else
      let (branch, matchh) : List α × Bool :=
        if matchh then (branch ++ [inner level], true)
        else if matchlevel = level then (branch ++ [h], true)
        else (branch, false)
      let mutated := if track then mutated || decide (inner level = h) else mutated
      Propagate track count inner matchlevel fuel (level + 1) (Hash (inner level) h) matchh
        mutated branch

/-- The first loop of `MerkleComputation`: each leaf is counted and propagated, and stored at
the level where the propagation stops. -/
def ProcessLeaves (branchpos : Nat) : List α → MerkleState α → Except Halt (MerkleState α)
  | [], st => pure st
  | leaf :: rest, st => do
    let matchh := decide (st.count = branchpos)
    let count := st.count + 1
    let (level, h, matchh, mutated, branch) ←
      Propagate Hash true count st.inner st.matchlevel 32 0 leaf matchh st.mutated st.branch
    ProcessLeaves branchpos rest
      { count := count
        inner := Function.update st.inner level h
        matchlevel := if matchh then level else st.matchlevel
        mutated := mutated
        branch := branch }

/-- `while (!(count & (1 << level))) level++`: the lowest set bit of `count`. -/
def LowestSetBit (count : Nat) : Nat → Nat → Except Halt Nat
  | 0, _ => throw (.abort (str "1 << level with level >= 32"))
  | fuel + 1, level => do
    let bit ← ShiftOne level
    if count &&& bit = 0 then LowestSetBit count fuel (level + 1) else pure level

/-- The final sweep: while `count` is not a single power of two at `level`, the node `h` is
paired with itself, `count` is raised to the value two nodes at this level would give, and the
result is propagated upwards. It returns the root and the branch. -/
def SweepLoop (inner : Nat → α) (matchlevel : Int) :
    Nat → Nat → Nat → α → Bool → List α → Except Halt (α × List α)
  | 0, _, _, _, _, _ => throw (.abort (str "1 << level with level >= 32"))
  | fuel + 1, count, level, h, matchh, branch => do
    let top ← ShiftOne level
    if count = top then pure (h, branch)
    else
      let branch := if matchh then branch ++ [h] else branch
      let h := Hash h h
      let count := count + top
      let (level, h, matchh, _, branch) ←
        Propagate Hash false count inner matchlevel 32 (level + 1) h matchh false branch
      SweepLoop inner matchlevel fuel count level h matchh branch

variable (zero : α)

/-- The state before the first leaf; `uint256 inner[32]` starts zeroed. -/
def MerkleState.init : MerkleState α := ⟨0, fun _ => zero, -1, false, []⟩

/-- `MerkleComputation`: the root, `mutated` and the branch of the leaf at `branchpos`. -/
def MerkleComputation (leaves : List α) (branchpos : Nat) : Except Halt (α × Bool × List α) :=
  if leaves = [] then pure (zero, false, [])
  else do
    let st ← ProcessLeaves Hash branchpos leaves (MerkleState.init zero)
    let level ← LowestSetBit st.count 32 0
    let h := st.inner level
    let matchh := decide (st.matchlevel = level)
    let (root, branch) ← SweepLoop Hash st.inner st.matchlevel 32 st.count level h matchh st.branch
    pure (root, st.mutated, branch)

/-- `ComputeMerkleRoot`: the root and `mutated`; the branch position is `-1` as a `uint32_t`. -/
def ComputeMerkleRoot (leaves : List α) : Except Halt (α × Bool) :=
  (MerkleComputation Hash zero leaves (2 ^ 32 - 1)).map fun r => (r.1, r.2.1)

/-- `ComputeMerkleBranch`. -/
def ComputeMerkleBranch (leaves : List α) (position : Nat) : Except Halt (List α) :=
  (MerkleComputation Hash zero leaves position).map fun r => r.2.2

/-- `ComputeMerkleRootFromBranch`: the leaf is hashed with each node of the branch, on the
right of it when the index is odd at that level. -/
def ComputeMerkleRootFromBranch (leaf : α) : List α → Nat → α
  | [], _ => leaf
  | b :: bs, nIndex =>
    ComputeMerkleRootFromBranch (if nIndex &&& 1 ≠ 0 then Hash b leaf else Hash leaf b) bs
      (nIndex >>> 1)

end Model

/-! ### One pass of each loop -/

section Steps

variable {α : Type} [DecidableEq α] (Hash : α → α → α)

theorem ShiftOne_of_lt {level : Nat} (h : level < 32) : ShiftOne level = pure (2 ^ level) :=
  if_pos h

/-- The carry loop stops at a set bit. -/
theorem Propagate_of_odd {track : Bool} {count : Nat} {inner : Nat → α} {matchlevel : Int}
    {fuel level : Nat} {h : α} {matchh mutated : Bool} {branch : List α} (hl : level < 32)
    (hbit : count / 2 ^ level % 2 = 1) :
    Propagate Hash track count inner matchlevel (fuel + 1) level h matchh mutated branch =
      .ok (level, h, matchh, mutated, branch) := by
  rw [Propagate, ShiftOne_of_lt hl, pure_bind, if_pos ((and_two_pow_ne_zero_iff_odd _ _).2 hbit)]
  rfl

/-- At a clear bit the carry loop hashes `inner level` with the node it carries, and the branch
takes the sibling of the branch leaf's ancestor. -/
theorem Propagate_of_even {track : Bool} {count : Nat} {inner : Nat → α} {matchlevel : Int}
    {fuel level : Nat} {h : α} {matchh mutated : Bool} {branch : List α} (hl : level < 32)
    (hbit : count / 2 ^ level % 2 = 0) :
    Propagate Hash track count inner matchlevel (fuel + 1) level h matchh mutated branch =
      Propagate Hash track count inner matchlevel fuel (level + 1) (Hash (inner level) h)
        (matchh || decide (matchlevel = level))
        (if track then mutated || decide (inner level = h) else mutated)
        (if matchh then branch ++ [inner level]
          else if matchlevel = level then branch ++ [h] else branch) := by
  have hclear : ¬ count &&& 2 ^ level ≠ 0 := fun hne =>
    absurd ((and_two_pow_ne_zero_iff_odd _ _).1 hne) (by omega)
  rw [Propagate, ShiftOne_of_lt hl, pure_bind, if_neg hclear]
  cases matchh <;> by_cases hml : matchlevel = level <;> simp [hml]

end Steps

/-! ### The carry loop against the tree -/

section Carry

variable {α : Type} (Hash : α → α → α) (leaves : List α) (zero : α)

/-- The node a carry brings to a clear bit, hashed with `inner level` on its left, is the node
of the level above that ends at the count. -/
theorem carry_node {count l : Nat} (hdvd : 2 ^ l ∣ count) (hpos : 0 < count)
    (hn : count < leaves.length + 2 ^ l) (hbit : count / 2 ^ l % 2 = 0) :
    Hash (node Hash leaves zero l (count / 2 ^ l - 2)) (node Hash leaves zero l (count / 2 ^ l - 1)) =
      node Hash leaves zero (l + 1) (count / 2 ^ (l + 1) - 1) := by
  rw [div_two_pow_succ, node_succ_of_even Hash leaves zero hbit (two_le_div_of_even hdvd hpos hbit)
    (div_sub_one_lt_width hdvd hpos hn)]

/-- The branch at a clear bit: when the branch leaf's ancestor is the node carried, its sibling
is `inner level` on the left; when it is `inner level`, its sibling is the node carried. -/
theorem carry_path {p count l : Nat} (hdvd : 2 ^ l ∣ count) (hpos : 0 < count)
    (hn : count < leaves.length + 2 ^ l) (hbit : count / 2 ^ l % 2 = 0) :
    (p / 2 ^ l = count / 2 ^ l - 1 →
      p / 2 ^ (l + 1) = count / 2 ^ (l + 1) - 1 ∧
        path Hash leaves zero p l ++ [node Hash leaves zero l (count / 2 ^ l - 2)] =
          path Hash leaves zero p (l + 1)) ∧
    (p / 2 ^ l = count / 2 ^ l - 2 →
      p / 2 ^ (l + 1) = count / 2 ^ (l + 1) - 1 ∧
        path Hash leaves zero p l ++ [node Hash leaves zero l (count / 2 ^ l - 1)] =
          path Hash leaves zero p (l + 1)) := by
  have hq := two_le_div_of_even hdvd hpos hbit
  have hw := div_sub_one_lt_width hdvd hpos hn
  rw [div_two_pow_succ count, div_two_pow_succ p, path_succ]
  generalize count / 2 ^ l = q at hq hw hbit ⊢
  constructor
  · intro hp
    rw [hp, pairedWith_of_odd (by omega), show q - 1 - 1 = q - 2 by omega]
    exact ⟨by omega, rfl⟩
  · intro hp
    rw [hp, pairedWith_of_even (by omega) (by omega), show q - 2 + 1 = q - 1 by omega]
    exact ⟨by omega, rfl⟩

/-- The levels from `l` on are level `l` and the levels from `l + 1` on. -/
theorem exists_level_succ_iff {l l' : Nat} (P : Nat → Prop) (hl : l < l') :
    (P l ∨ ∃ j, l + 1 ≤ j ∧ j < l' ∧ P j) ↔ ∃ j, l ≤ j ∧ j < l' ∧ P j := by
  constructor
  · rintro (h | ⟨j, hj, hj', h⟩)
    · exact ⟨l, Nat.le_refl l, hl, h⟩
    · exact ⟨j, by omega, hj', h⟩
  · rintro ⟨j, hj, hj', h⟩
    rcases Nat.eq_or_lt_of_le hj with rfl | hlt
    · exact Or.inl h
    · exact Or.inr ⟨j, hlt, hj', h⟩

/-- The complete sibling pairs after one more leaf: those before it, and the pairs that end at
the new count, one at each level below its lowest set bit. -/
theorem completePair_succ_iff {k l : Nat} (hlow : LowestBit (k + 1) l) :
    (∃ j i, Complete (k + 1) j (2 * i + 1) ∧
        node Hash leaves zero j (2 * i) = node Hash leaves zero j (2 * i + 1)) ↔
      (∃ j i, Complete k j (2 * i + 1) ∧
        node Hash leaves zero j (2 * i) = node Hash leaves zero j (2 * i + 1)) ∨
      ∃ j, j < l ∧ node Hash leaves zero j ((k + 1) / 2 ^ j - 2) =
        node Hash leaves zero j ((k + 1) / 2 ^ j - 1) := by
  unfold Complete
  constructor
  · rintro ⟨j, i, hc, he⟩
    rcases Nat.lt_or_ge ((2 * i + 1 + 1) * 2 ^ j) (k + 1) with hlt | hge
    · exact Or.inl ⟨j, i, by omega, he⟩
    · -- the pair ends at the new count
      have heq : (2 * i + 1 + 1) * 2 ^ j = k + 1 := by omega
      have hdiv : (k + 1) / 2 ^ j = 2 * i + 2 := by
        rw [← heq, Nat.mul_div_cancel _ (Nat.two_pow_pos j)]
      have hdvd : 2 ^ (j + 1) ∣ k + 1 := ⟨i + 1, by rw [← heq, end_right_child, Nat.mul_comm]⟩
      refine Or.inr ⟨j, hlow.lt_of_dvd_succ hdvd, ?_⟩
      rw [hdiv, show 2 * i + 2 - 2 = 2 * i by omega, show 2 * i + 2 - 1 = 2 * i + 1 by omega]
      exact he
  · rintro (⟨j, i, hc, he⟩ | ⟨j, hj, he⟩)
    · exact ⟨j, i, by omega, he⟩
    · obtain ⟨hdj, hev⟩ := (dvd_two_pow_succ_iff _ _).1 (hlow.dvd_of_le (Nat.succ_le_of_lt hj))
      have hq := two_le_div_of_even hdj (Nat.succ_pos k) hev
      have hcancel := Nat.div_mul_cancel hdj
      generalize (k + 1) / 2 ^ j = q at hq hev he hcancel
      refine ⟨j, q / 2 - 1, ?_, ?_⟩
      · rw [show 2 * (q / 2 - 1) + 1 + 1 = q by omega, hcancel]
      · rw [show 2 * (q / 2 - 1) = q - 2 by omega, show q - 2 + 1 = q - 1 by omega]
        exact he

variable [DecidableEq α]

/-- The carry loop from level `l` of a count whose bits below `l` are clear. It stops at the
lowest set bit `l'` of the count with the node that ends at the count; it has compared the
pairs of nodes that end at the count at the levels it passed (with `track`); and the branch
leaf's ancestor, once met as the node carried or as `inner j` at `j = matchlevel`, has its
siblings appended up to `l'`. -/
theorem Propagate_spec (track : Bool) {count : Nat} (inner : Nat → α) (matchlevel : Int)
    (p : Nat) (hpos : 0 < count) (hcount : count < 2 ^ 32) :
    ∀ fuel l matchh mutated branch, 32 ≤ fuel + l → 2 ^ l ∣ count →
      count < leaves.length + 2 ^ l →
      (∀ j, l ≤ j → 2 ^ j ∣ count → count / 2 ^ j % 2 = 0 →
        inner j = node Hash leaves zero j (count / 2 ^ j - 2)) →
      (matchh = true → p / 2 ^ l = count / 2 ^ l - 1 ∧ branch = path Hash leaves zero p l) →
      (matchh = false → ∀ j : Nat, l ≤ j → matchlevel = j → 2 ^ j ∣ count →
        count / 2 ^ j % 2 = 0 → p / 2 ^ j = count / 2 ^ j - 2 ∧ branch = path Hash leaves zero p j) →
      ∃ l' matchh' mutated' branch',
        Propagate Hash track count inner matchlevel fuel l
            (node Hash leaves zero l (count / 2 ^ l - 1)) matchh mutated branch =
          .ok (l', node Hash leaves zero l' (count / 2 ^ l' - 1), matchh', mutated', branch') ∧
        l ≤ l' ∧ LowestBit count l' ∧
        (mutated' = true ↔ mutated = true ∨ track = true ∧ ∃ j, l ≤ j ∧ j < l' ∧
          node Hash leaves zero j (count / 2 ^ j - 2) = node Hash leaves zero j (count / 2 ^ j - 1)) ∧
        (matchh' = true ↔ matchh = true ∨ ∃ j : Nat, l ≤ j ∧ j < l' ∧ matchlevel = j) ∧
        (matchh' = true → p / 2 ^ l' = count / 2 ^ l' - 1 ∧ branch' = path Hash leaves zero p l') ∧
        (matchh' = false → branch' = branch) := by
  intro fuel
  induction fuel with
  | zero =>
    intro l matchh mutated branch hfuel hdvd
    exact absurd (lt_of_two_pow_dvd hdvd hpos hcount) (by omega)
  | succ fuel ih =>
    intro l matchh mutated branch hfuel hdvd hn hinner hmatch hml
    have hl := lt_of_two_pow_dvd hdvd hpos hcount
    by_cases hbit : count / 2 ^ l % 2 = 1
    · -- bit `l` is set: the loop stops here
      refine ⟨l, matchh, mutated, branch, Propagate_of_odd Hash hl hbit, Nat.le_refl l,
        ⟨hdvd, hbit⟩, ?_, ?_, hmatch, fun _ => rfl⟩
      · exact ⟨Or.inl, fun h => h.elim id fun ⟨_, j, hj, hj', _⟩ => absurd hj' (by omega)⟩
      · exact ⟨Or.inl, fun h => h.elim id fun ⟨j, hj, hj', _⟩ => absurd hj' (by omega)⟩
    · have hbit0 : count / 2 ^ l % 2 = 0 := by omega
      have hdvd' : 2 ^ (l + 1) ∣ count := (dvd_two_pow_succ_iff count l).2 ⟨hdvd, hbit0⟩
      have hn' : count < leaves.length + 2 ^ (l + 1) :=
        Nat.lt_of_lt_of_le hn (Nat.add_le_add_left (Nat.pow_le_pow_right (by decide)
          (Nat.le_succ l)) _)
      have hpath := carry_path Hash leaves zero (p := p) hdvd hpos hn hbit0
      -- the branch after this level, in the two cases where it grows
      have hmatch' : (matchh || decide (matchlevel = l)) = true →
          p / 2 ^ (l + 1) = count / 2 ^ (l + 1) - 1 ∧
            (if matchh then branch ++ [node Hash leaves zero l (count / 2 ^ l - 2)]
              else if matchlevel = l then branch ++ [node Hash leaves zero l (count / 2 ^ l - 1)]
              else branch) = path Hash leaves zero p (l + 1) := by
        intro hm
        cases matchh
        · have hml' : matchlevel = l := by simpa using hm
          obtain ⟨hp, hbr⟩ := hml rfl l (Nat.le_refl l) hml' hdvd hbit0
          rw [if_neg (by decide), if_pos hml', hbr]
          exact hpath.2 hp
        · obtain ⟨hp, hbr⟩ := hmatch rfl
          rw [if_pos rfl, hbr]
          exact hpath.1 hp
      have hml' : (matchh || decide (matchlevel = l)) = false → ∀ j : Nat, l + 1 ≤ j →
          matchlevel = j → 2 ^ j ∣ count → count / 2 ^ j % 2 = 0 →
          p / 2 ^ j = count / 2 ^ j - 2 ∧
            (if matchh then branch ++ [node Hash leaves zero l (count / 2 ^ l - 2)]
              else if matchlevel = l then branch ++ [node Hash leaves zero l (count / 2 ^ l - 1)]
              else branch) = path Hash leaves zero p j := by
        intro hm j hj hmj hdj hej
        simp only [Bool.or_eq_false_iff, decide_eq_false_iff_not] at hm
        rw [if_neg (by simp [hm.1]), if_neg hm.2]
        exact hml hm.1 j (by omega) hmj hdj hej
      rw [Propagate_of_even Hash hl hbit0, hinner l (Nat.le_refl l) hdvd hbit0,
        carry_node Hash leaves zero hdvd hpos hn hbit0]
      obtain ⟨l', matchh', mutated', branch', hrun, hle, hlow, hmut, hmh, hbr, hnbr⟩ :=
        ih (l + 1) _ _ _ (by omega) hdvd' hn' (fun j hj => hinner j (by omega))
          hmatch' hml'
      refine ⟨l', matchh', mutated', branch', hrun, by omega, hlow, ?_, ?_, hbr, ?_⟩
      · rw [hmut]
        cases track <;> simp only [Bool.false_eq_true, false_and, or_false, if_true,
          if_false, Bool.or_eq_true, decide_eq_true_eq, true_and, or_assoc]
        exact or_congr_right (exists_level_succ_iff (fun j => node Hash leaves zero j
          (count / 2 ^ j - 2) = node Hash leaves zero j (count / 2 ^ j - 1)) hle)
      · rw [hmh, Bool.or_eq_true, decide_eq_true_eq, or_assoc]
        exact or_congr_right (exists_level_succ_iff (fun j : Nat => matchlevel = j) hle)
      · intro hf
        have hold : (matchh || decide (matchlevel = l)) = false := by
          cases hm : (matchh || decide (matchlevel = l))
          · rfl
          · exact absurd (hmh.2 (Or.inl hm)) (by rw [hf]; decide)
        rw [hnbr hf]
        simp only [Bool.or_eq_false_iff, decide_eq_false_iff_not] at hold
        simp [hold.1, hold.2]

end Carry

/-! ### The leaf loop -/

section Leaves

variable {α : Type} (Hash : α → α → α) (leaves : List α) (zero : α)

/-- What `MerkleComputation` knows after the first `k` leaves: `inner` holds, at each set bit of
`k`, the node that ends at leaf `k - 1`; `mutated` says whether two complete sibling nodes among
the first `k` leaves are equal; and once the branch leaf `p` is read, its ancestor is the node
stored at `matchlevel`, with the branch up to that level. -/
structure LeavesInv (p k : Nat) (st : MerkleState α) : Prop where
  count : st.count = k
  inner : ∀ j, k / 2 ^ j % 2 = 1 → st.inner j = node Hash leaves zero j (k / 2 ^ j - 1)
  mutated : st.mutated = true ↔ ∃ j i, Complete k j (2 * i + 1) ∧
    node Hash leaves zero j (2 * i) = node Hash leaves zero j (2 * i + 1)
  matched : p < k → ∃ m : Nat, st.matchlevel = m ∧ k / 2 ^ m % 2 = 1 ∧
    p / 2 ^ m = k / 2 ^ m - 1 ∧ st.branch = path Hash leaves zero p m
  unmatched : k ≤ p → st.matchlevel = -1 ∧ st.branch = []

theorem LeavesInv_init (p : Nat) : LeavesInv Hash leaves zero p 0 (MerkleState.init zero) where
  count := rfl
  inner j h := by simp at h
  mutated := by
    simp only [MerkleState.init, Bool.false_eq_true, false_iff, not_exists, not_and]
    intro j i hc
    unfold Complete at hc
    have := Nat.two_pow_pos j
    rw [Nat.succ_mul] at hc
    omega
  matched h := absurd h (Nat.not_lt_zero p)
  unmatched _ := ⟨rfl, rfl⟩

variable [DecidableEq α]

/-- The scan for the lowest set bit of a positive count below `2 ^ 32`. -/
theorem LowestSetBit_spec {count : Nat} (hpos : 0 < count) (hcount : count < 2 ^ 32) :
    ∀ fuel level, 32 ≤ fuel + level → 2 ^ level ∣ count →
      ∃ l, LowestSetBit count fuel level = .ok l ∧ LowestBit count l := by
  intro fuel
  induction fuel with
  | zero =>
    intro level hfuel hdvd
    exact absurd (lt_of_two_pow_dvd hdvd hpos hcount) (by omega)
  | succ fuel ih =>
    intro level hfuel hdvd
    have hl := lt_of_two_pow_dvd hdvd hpos hcount
    rw [LowestSetBit, ShiftOne_of_lt hl, pure_bind]
    by_cases hbit : count / 2 ^ level % 2 = 1
    · rw [if_neg ((and_two_pow_ne_zero_iff_odd _ _).2 hbit)]
      exact ⟨level, rfl, hdvd, hbit⟩
    · have hclear : count &&& 2 ^ level = 0 :=
        Decidable.of_not_not fun hne => hbit ((and_two_pow_ne_zero_iff_odd _ _).1 hne)
      rw [if_pos hclear]
      exact ih (level + 1) (by omega) ((dvd_two_pow_succ_iff count level).2 ⟨hdvd, by omega⟩)

/-- A count that `2 ^ 32` divides has no set bit the shift can reach: the carry loop runs into
the undefined shift. -/
theorem Propagate_of_two_pow_32_dvd {track : Bool} {count : Nat} {inner : Nat → α}
    {matchlevel : Int} (hdvd : 2 ^ 32 ∣ count) :
    ∀ fuel level h matchh mutated branch, level ≤ 32 →
      Propagate Hash track count inner matchlevel fuel level h matchh mutated branch =
        .error (.abort (str "1 << level with level >= 32")) := by
  intro fuel
  induction fuel with
  | zero => intro level h matchh mutated branch _; rfl
  | succ fuel ih =>
    intro level h matchh mutated branch hl
    rcases Nat.lt_or_ge level 32 with hlt | hge
    · have hbit : count / 2 ^ level % 2 = 0 :=
        ((dvd_two_pow_succ_iff count level).1
          (Nat.dvd_trans (Nat.pow_dvd_pow 2 (by omega)) hdvd)).2
      rw [Propagate_of_even Hash hlt hbit]
      exact ih _ _ _ _ _ (by omega)
    · rw [Propagate, ShiftOne, if_neg (by omega)]
      rfl

theorem ProcessLeaves_cons_of_ok {branchpos : Nat} {leaf : α} {rest : List α} {st : MerkleState α}
    {r : Nat × α × Bool × Bool × List α}
    (h : Propagate Hash true (st.count + 1) st.inner st.matchlevel 32 0 leaf
      (decide (st.count = branchpos)) st.mutated st.branch = .ok r) :
    ProcessLeaves Hash branchpos (leaf :: rest) st =
      ProcessLeaves Hash branchpos rest
        { count := st.count + 1
          inner := Function.update st.inner r.1 r.2.1
          matchlevel := if r.2.2.1 then r.1 else st.matchlevel
          mutated := r.2.2.2.1
          branch := r.2.2.2.2 } := by
  rw [ProcessLeaves, h]
  rfl

theorem ProcessLeaves_cons_of_error {branchpos : Nat} {leaf : α} {rest : List α}
    {st : MerkleState α} {e : Halt}
    (h : Propagate Hash true (st.count + 1) st.inner st.matchlevel 32 0 leaf
      (decide (st.count = branchpos)) st.mutated st.branch = .error e) :
    ProcessLeaves Hash branchpos (leaf :: rest) st = .error e := by
  rw [ProcessLeaves, h]
  rfl

/-- One leaf: the carry from level `0` stores the node that ends at the new count at its lowest
set bit, and the invariant moves from `k` to `k + 1` leaves. -/
theorem LeavesInv.step {p k : Nat} {st : MerkleState α} (hinv : LeavesInv Hash leaves zero p k st)
    (hk : k < leaves.length) (hlen : k + 1 < 2 ^ 32) :
    ∃ r, Propagate Hash true (st.count + 1) st.inner st.matchlevel 32 0
        (leaves.getD k zero) (decide (st.count = p)) st.mutated st.branch = .ok r ∧
      LeavesInv Hash leaves zero p (k + 1)
        { count := st.count + 1
          inner := Function.update st.inner r.1 r.2.1
          matchlevel := if r.2.2.1 then r.1 else st.matchlevel
          mutated := r.2.2.2.1
          branch := r.2.2.2.2 } := by
  obtain ⟨hcount, hinner, hmut, hmatched, hunmatched⟩ := hinv
  rw [hcount]
  have hleaf : leaves.getD k zero = node Hash leaves zero 0 ((k + 1) / 2 ^ 0 - 1) := by
    rw [Nat.pow_zero, Nat.div_one, Nat.add_sub_cancel]
    rfl
  -- the inner nodes the carry meets are the left siblings of the nodes it carries
  have hcarry : ∀ j, 0 ≤ j → 2 ^ j ∣ k + 1 → (k + 1) / 2 ^ j % 2 = 0 →
      st.inner j = node Hash leaves zero j ((k + 1) / 2 ^ j - 2) := by
    intro j _ hdj hev
    rw [Nat.succ_div_of_dvd hdj] at hev ⊢
    rw [hinner j (by omega), show k / 2 ^ j + 1 - 2 = k / 2 ^ j - 1 by omega]
  have hstart : decide (k = p) = true → p / 2 ^ 0 = (k + 1) / 2 ^ 0 - 1 ∧
      st.branch = path Hash leaves zero p 0 := by
    intro h
    have hkp : k = p := of_decide_eq_true h
    refine ⟨by simp [hkp], ?_⟩
    rw [(hunmatched (Nat.le_of_eq hkp)).2, path_zero]
  -- before the branch leaf's ancestor is carried, it is `inner m` at `m = matchlevel`
  have hwait : decide (k = p) = false → ∀ j : Nat, 0 ≤ j → st.matchlevel = j →
      2 ^ j ∣ k + 1 → (k + 1) / 2 ^ j % 2 = 0 →
      p / 2 ^ j = (k + 1) / 2 ^ j - 2 ∧ st.branch = path Hash leaves zero p j := by
    intro h j _ hmj hdj _
    have hkp : k ≠ p := of_decide_eq_false h
    have hpk : p < k := by
      refine Nat.lt_of_le_of_ne (Nat.le_of_not_lt fun hlt => ?_) (Ne.symm hkp)
      rw [(hunmatched (Nat.le_of_lt hlt)).1] at hmj
      omega
    obtain ⟨m, hm, _, hp, hbr⟩ := hmatched hpk
    have hmj' : m = j := by rw [hm] at hmj; exact_mod_cast hmj
    subst hmj'
    rw [Nat.succ_div_of_dvd hdj]
    exact ⟨by omega, hbr⟩
  obtain ⟨l', matchh', mutated', branch', hrun, -, hlow, hmut', hmh, hbr, hnbr⟩ :=
    Propagate_spec Hash leaves zero true st.inner st.matchlevel p (by omega : 0 < k + 1) hlen 32 0
      (decide (k = p)) st.mutated st.branch (by omega) (Nat.one_dvd _)
      (by rw [Nat.pow_zero]; omega) hcarry hstart hwait
  rw [hleaf]
  refine ⟨_, hrun, rfl, ?_, ?_, ?_, ?_⟩
  · -- `inner` at the set bits of `k + 1`
    intro j hj
    dsimp only
    rcases Nat.lt_trichotomy j l' with hlt | rfl | hgt
    · exact absurd (hlow.even_of_lt hlt) (by omega)
    · rw [Function.update_self]
    · have hnd := hlow.not_dvd_of_lt hgt
      rw [Function.update_of_ne (by omega), Nat.succ_div_of_not_dvd hnd]
      rw [Nat.succ_div_of_not_dvd hnd] at hj
      exact hinner j hj
  · -- `mutated` over the complete pairs of the first `k + 1` leaves
    dsimp only
    rw [hmut', completePair_succ_iff Hash leaves zero hlow, ← hmut]
    simp only [true_and, Nat.zero_le]
  · -- the branch once the branch leaf is read
    intro hp
    dsimp only
    cases hm' : matchh'
    · rw [hm'] at hmh
      simp only [Bool.false_eq_true, false_iff, not_or, decide_eq_true_eq, not_exists,
        not_and, Nat.zero_le, true_implies] at hmh
      obtain ⟨m, hm, hodd, hpm, hbrm⟩ := hmatched (by omega)
      have hml : l' ≤ m := Nat.le_of_not_lt fun hlt => hmh.2 m hlt hm
      have hne : l' ≠ m := by
        rintro rfl
        have := hlow.odd
        rw [Nat.succ_div_of_dvd hlow.dvd] at this
        omega
      have hnd := hlow.not_dvd_of_lt (Nat.lt_of_le_of_ne hml hne)
      rw [if_neg (by decide), hnbr hm']
      refine ⟨m, hm, ?_⟩
      rw [Nat.succ_div_of_not_dvd hnd]
      exact ⟨hodd, hpm, hbrm⟩
    · rw [if_pos rfl]
      exact ⟨l', rfl, hlow.odd, hbr hm'⟩
  · -- before the branch leaf nothing is recorded
    intro hp
    dsimp only
    obtain ⟨hml, hbr0⟩ := hunmatched (by omega)
    have hm' : matchh' = false := by
      cases hm : matchh'
      · rfl
      · obtain hkp | ⟨j, -, -, hj⟩ := hmh.1 hm
        · exact absurd (of_decide_eq_true hkp) (by omega)
        · rw [hml] at hj
          omega
    rw [hm', if_neg (by decide), hnbr hm']
    exact ⟨hml, hbr0⟩

/-- The leaf loop from leaf `k` on, over fewer than `2 ^ 32` leaves, ends with the invariant at
all the leaves. -/
theorem ProcessLeaves_spec {p : Nat} (hlen : leaves.length < 2 ^ 32) :
    ∀ rest k (st : MerkleState α), LeavesInv Hash leaves zero p k st → k ≤ leaves.length →
      leaves.drop k = rest →
      ∃ st', ProcessLeaves Hash p rest st = .ok st' ∧
        LeavesInv Hash leaves zero p leaves.length st' := by
  intro rest
  induction rest with
  | nil =>
    intro k st hinv hk hdrop
    have hk' : k = leaves.length := Nat.le_antisymm hk (List.drop_eq_nil_iff.1 hdrop)
    subst hk'
    exact ⟨st, rfl, hinv⟩
  | cons leaf rest ih =>
    intro k st hinv hk hdrop
    have hlt : k < leaves.length := Nat.lt_of_not_le fun hge => by
      rw [List.drop_eq_nil_of_le hge] at hdrop
      cases hdrop
    rw [List.drop_eq_getElem_cons hlt, List.cons.injEq] at hdrop
    obtain ⟨hleaf, hrest⟩ := hdrop
    obtain ⟨r, hrun, hinv'⟩ := hinv.step Hash leaves zero hlt (by omega)
    rw [List.getD_eq_getElem?_getD, List.getElem?_eq_getElem hlt, Option.getD_some, hleaf] at hrun
    rw [ProcessLeaves_cons_of_ok Hash hrun]
    exact ih (k + 1) _ hinv' hlt hrest

/-- At `2 ^ 32` leaves the count has no bit the shift can reach, and the leaf loop aborts. -/
theorem ProcessLeaves_error {p : Nat} (hlen : 2 ^ 32 ≤ leaves.length) :
    ∀ rest k (st : MerkleState α), LeavesInv Hash leaves zero p k st → k < 2 ^ 32 →
      leaves.drop k = rest →
      ProcessLeaves Hash p rest st = .error (.abort (str "1 << level with level >= 32")) := by
  intro rest
  induction rest with
  | nil =>
    intro k st _ hk hdrop
    exact absurd (List.drop_eq_nil_iff.1 hdrop) (by omega)
  | cons leaf rest ih =>
    intro k st hinv hk hdrop
    have hlt : k < leaves.length := by omega
    rw [List.drop_eq_getElem_cons hlt, List.cons.injEq] at hdrop
    obtain ⟨hleaf, hrest⟩ := hdrop
    rcases Nat.lt_or_ge (k + 1) (2 ^ 32) with hnext | hlast
    · obtain ⟨r, hrun, hinv'⟩ := hinv.step Hash leaves zero hlt hnext
      rw [List.getD_eq_getElem?_getD, List.getElem?_eq_getElem hlt, Option.getD_some, hleaf] at hrun
      rw [ProcessLeaves_cons_of_ok Hash hrun]
      exact ih (k + 1) _ hinv' hnext hrest
    · -- leaf `2 ^ 32 - 1` makes the count `2 ^ 32`
      have hcount : st.count + 1 = 2 ^ 32 := by rw [hinv.count]; omega
      apply ProcessLeaves_cons_of_error Hash
      rw [hcount]
      exact Propagate_of_two_pow_32_dvd Hash (Nat.dvd_refl _) 32 0 _ _ _ _ (by omega)

end Leaves

/-! ### The final sweep -/

section Sweep

variable {α : Type} (Hash : α → α → α) (leaves : List α) (zero : α)

/-- What the final sweep knows at `level`: the count is the nodes of the level as whole blocks,
an odd number of them; the leaf count has no set bit above the level's; `inner` still holds the
leaf loop's nodes; and the branch leaf's ancestor is either the node carried, with the branch up
to `level`, or `inner m` at `m = matchlevel` above `level`, or the branch leaf is past the
end. -/
structure SweepInv (p : Nat) (inner : Nat → α) (matchlevel : Int) (count level : Nat)
    (matchh : Bool) (branch : List α) : Prop where
  count : count = width leaves.length level * 2 ^ level
  odd : width leaves.length level % 2 = 1
  level_lt : level < 32
  level_le : level ≤ Nat.clog 2 leaves.length
  above : ∀ j, level < j → ¬ 2 ^ j ∣ leaves.length
  inner : ∀ j, leaves.length / 2 ^ j % 2 = 1 →
    inner j = node Hash leaves zero j (leaves.length / 2 ^ j - 1)
  matched : matchh = true → p < leaves.length ∧
    p / 2 ^ level = width leaves.length level - 1 ∧ branch = path Hash leaves zero p level
  unmatched : matchh = false → (leaves.length ≤ p ∧ matchlevel = -1 ∧ branch = []) ∨
    (p < leaves.length ∧ ∃ m : Nat, matchlevel = m ∧ level < m ∧
      leaves.length / 2 ^ m % 2 = 1 ∧ p / 2 ^ m = leaves.length / 2 ^ m - 1 ∧
      branch = path Hash leaves zero p m)

/-- The sweep starts at the lowest set bit of the leaf count with the leaf loop's state. -/
theorem SweepInv.start {p l : Nat} {st : MerkleState α}
    (hinv : LeavesInv Hash leaves zero p leaves.length st) (hlow : LowestBit leaves.length l)
    (hlen : leaves.length < 2 ^ 32) :
    SweepInv Hash leaves zero p st.inner st.matchlevel leaves.length l
        (decide (st.matchlevel = l)) st.branch ∧
      st.inner l = node Hash leaves zero l (width leaves.length l - 1) := by
  have hn : 0 < leaves.length := Nat.lt_of_lt_of_le (Nat.two_pow_pos l) hlow.two_pow_le
  have hw : width leaves.length l = leaves.length / 2 ^ l :=
    width_eq_div_of_dvd hlow.dvd (Nat.le_refl _) (Nat.lt_add_of_pos_right (Nat.two_pow_pos l))
  refine ⟨⟨by rw [hw, Nat.div_mul_cancel hlow.dvd], hw ▸ hlow.odd,
    lt_of_two_pow_dvd hlow.dvd hn hlen,
    (Nat.pow_le_pow_iff_right (by decide)).1
      (Nat.le_trans hlow.two_pow_le (Nat.le_pow_clog (by decide) _)),
    fun j hj => hlow.not_dvd_of_lt hj, hinv.inner, ?_, ?_⟩, by rw [hw]; exact hinv.inner l hlow.odd⟩
  · intro hm
    have hml : st.matchlevel = l := of_decide_eq_true hm
    have hp : p < leaves.length := Nat.lt_of_not_le fun hge => by
      rw [(hinv.unmatched hge).1] at hml
      omega
    obtain ⟨m, hm', _, hpm, hbr⟩ := hinv.matched hp
    have hml' : m = l := by rw [hm'] at hml; exact_mod_cast hml
    subst hml'
    exact ⟨hp, by rw [hw]; exact hpm, hbr⟩
  · intro hm
    rcases Nat.lt_or_ge p leaves.length with hp | hge
    · obtain ⟨m, hm', hodd, hpm, hbr⟩ := hinv.matched hp
      have hne : m ≠ l := fun h => by
        subst h
        exact absurd hm' (of_decide_eq_false hm)
      have hlm : l ≤ m := Nat.le_of_not_lt fun hlt => by
        have := hlow.even_of_lt hlt
        omega
      exact Or.inr ⟨hp, m, hm', Nat.lt_of_le_of_ne hlm (Ne.symm hne), hodd, hpm, hbr⟩
    · exact Or.inl ⟨hge, hinv.unmatched hge⟩

variable {Hash leaves zero}

/-- A round of the sweep below the top: the count is raised to the blocks of the level above. -/
theorem SweepInv.count_succ {p : Nat} {inner : Nat → α} {matchlevel : Int} {count level : Nat} {matchh : Bool}
    {branch : List α} (hinv : SweepInv Hash leaves zero p inner matchlevel count level matchh branch) :
    count + 2 ^ level = width leaves.length (level + 1) * 2 ^ (level + 1) := by
  rw [hinv.count, ← Nat.succ_mul, width_succ_mul_of_odd hinv.odd]

/-- Below the top, the sweep's level is below the depth of the tree. -/
theorem SweepInv.lt_clog {p : Nat} {inner : Nat → α} {matchlevel : Int} {count level : Nat} {matchh : Bool}
    {branch : List α} (hinv : SweepInv Hash leaves zero p inner matchlevel count level matchh branch)
    (htop : width leaves.length level ≠ 1) : level < Nat.clog 2 leaves.length := by
  refine Nat.lt_of_not_le fun hle => htop ?_
  have hw1 := width_le_one_iff.2 ((Nat.clog_le_iff_le_pow (by decide)).1 hle)
  have := hinv.odd
  omega

/-- The sweep runs over at least one leaf. -/
theorem SweepInv.length_pos {p : Nat} {inner : Nat → α} {matchlevel : Int} {count level : Nat}
    {matchh : Bool} {branch : List α}
    (hinv : SweepInv Hash leaves zero p inner matchlevel count level matchh branch) :
    0 < leaves.length := by
  have hw : 0 < width leaves.length level := by
    have := hinv.odd
    omega
  have := lt_width_iff.1 hw
  rwa [Nat.zero_mul] at this

variable [DecidableEq α]

theorem SweepLoop_of_top {inner : Nat → α} {matchlevel : Int} {fuel count level : Nat} {h : α}
    {matchh : Bool} {branch : List α} (hl : level < 32) (hc : count = 2 ^ level) :
    SweepLoop Hash inner matchlevel (fuel + 1) count level h matchh branch = .ok (h, branch) := by
  rw [SweepLoop, ShiftOne_of_lt hl, pure_bind, if_pos hc]
  rfl

theorem SweepLoop_of_ok {inner : Nat → α} {matchlevel : Int} {fuel count level : Nat} {h : α}
    {matchh : Bool} {branch : List α} {r : Nat × α × Bool × Bool × List α} (hl : level < 32)
    (hc : count ≠ 2 ^ level)
    (hp : Propagate Hash false (count + 2 ^ level) inner matchlevel 32 (level + 1) (Hash h h) matchh
      false (if matchh then branch ++ [h] else branch) = .ok r) :
    SweepLoop Hash inner matchlevel (fuel + 1) count level h matchh branch =
      SweepLoop Hash inner matchlevel fuel (count + 2 ^ level) r.1 r.2.1 r.2.2.1 r.2.2.2.2 := by
  rw [SweepLoop, ShiftOne_of_lt hl, pure_bind, if_neg hc]
  dsimp only
  rw [hp]
  rfl

theorem SweepLoop_of_error {inner : Nat → α} {matchlevel : Int} {fuel count level : Nat} {h : α}
    {matchh : Bool} {branch : List α} {e : Halt} (hl : level < 32) (hc : count ≠ 2 ^ level)
    (hp : Propagate Hash false (count + 2 ^ level) inner matchlevel 32 (level + 1) (Hash h h) matchh
      false (if matchh then branch ++ [h] else branch) = .error e) :
    SweepLoop Hash inner matchlevel (fuel + 1) count level h matchh branch = .error e := by
  rw [SweepLoop, ShiftOne_of_lt hl, pure_bind, if_neg hc]
  dsimp only
  rw [hp]
  rfl

end Sweep

section SweepStep

variable {α : Type} [DecidableEq α] {Hash : α → α → α} {leaves : List α} {zero : α}
variable {p : Nat} {inner : Nat → α} {matchlevel : Int} {count level : Nat} {matchh : Bool}
  {branch : List α}

/-- One round of the sweep below the top, while the raised count stays below `2 ^ 32`: the node
is paired with itself, the carry stops at the next odd level, and the invariant holds there. -/
theorem SweepInv.step (hinv : SweepInv Hash leaves zero p inner matchlevel count level matchh branch)
    (htop : width leaves.length level ≠ 1) (hfit : count + 2 ^ level < 2 ^ 32) :
    ∃ l' matchh' mutated' branch',
      Propagate Hash false (count + 2 ^ level) inner matchlevel 32 (level + 1)
          (Hash (node Hash leaves zero level (width leaves.length level - 1))
            (node Hash leaves zero level (width leaves.length level - 1))) matchh false
          (if matchh then branch ++ [node Hash leaves zero level (width leaves.length level - 1)]
            else branch) =
        .ok (l', node Hash leaves zero l' (width leaves.length l' - 1), matchh', mutated', branch') ∧
      level < l' ∧ SweepInv Hash leaves zero p inner matchlevel (count + 2 ^ level) l' matchh' branch' := by
  have hc1 := hinv.count_succ
  have hlc := hinv.lt_clog htop
  generalize hC : count + 2 ^ level = C at hfit hc1 ⊢
  have hn := hinv.length_pos
  have hpos : 0 < C := by rw [hc1]; exact Nat.mul_pos (width_pos hn) (Nat.two_pow_pos _)
  have hdvd : 2 ^ (level + 1) ∣ C := ⟨_, by rw [hc1, Nat.mul_comm]⟩
  have hdw : ∀ j, level + 1 ≤ j → 2 ^ j ∣ C → C / 2 ^ j = width leaves.length j :=
    fun j hj hd => div_eq_width_of_mul hc1 hj hd
  have hwsucc : width leaves.length (level + 1) = (width leaves.length level + 1) / 2 := rfl
  have hodd := hinv.odd
  -- the carried node and the nodes it meets, in the terms of the carry loop
  have hh : Hash (node Hash leaves zero level (width leaves.length level - 1))
      (node Hash leaves zero level (width leaves.length level - 1)) =
      node Hash leaves zero (level + 1) (C / 2 ^ (level + 1) - 1) := by
    rw [hdw _ (Nat.le_refl _) hdvd, node_succ_last_of_odd Hash leaves zero hodd]
  have hinner : ∀ j, level + 1 ≤ j → 2 ^ j ∣ C → C / 2 ^ j % 2 = 0 →
      inner j = node Hash leaves zero j (C / 2 ^ j - 2) := by
    intro j hj hd hev
    have hwj := width_eq_of_not_dvd (hinv.above j (by omega))
    rw [hdw j hj hd, hwj] at hev ⊢
    rw [hinv.inner j (by omega), show leaves.length / 2 ^ j + 1 - 2 = leaves.length / 2 ^ j - 1 by omega]
  have hmatch : matchh = true → p / 2 ^ (level + 1) = C / 2 ^ (level + 1) - 1 ∧
      (if matchh then branch ++ [node Hash leaves zero level (width leaves.length level - 1)]
        else branch) = path Hash leaves zero p (level + 1) := by
    intro hm
    obtain ⟨-, hpl, hbr⟩ := hinv.matched hm
    rw [if_pos hm, hbr, path_succ, hpl,
      pairedWith_of_even_of_not_lt (by omega) (by omega), div_two_pow_succ, hpl,
      hdw _ (Nat.le_refl _) hdvd, hwsucc]
    exact ⟨by omega, rfl⟩
  have hml : matchh = false → ∀ j : Nat, level + 1 ≤ j → matchlevel = j → 2 ^ j ∣ C →
      C / 2 ^ j % 2 = 0 → p / 2 ^ j = C / 2 ^ j - 2 ∧
      (if matchh then branch ++ [node Hash leaves zero level (width leaves.length level - 1)]
        else branch) = path Hash leaves zero p j := by
    intro hm j hj hmj hd _
    rcases hinv.unmatched hm with ⟨-, hml1, -⟩ | ⟨-, m, hmm, -, -, hpm, hbr⟩
    · rw [hml1] at hmj
      omega
    · have hmj' : m = j := by rw [hmm] at hmj; exact_mod_cast hmj
      subst hmj'
      have hwj := width_eq_of_not_dvd (hinv.above m (by omega))
      rw [if_neg (by simp [hm]), hdw m hj hd, hwj]
      exact ⟨by omega, hbr⟩
  rw [hh]
  obtain ⟨l', matchh', mutated', branch', hrun, hle, hlow, -, hmh, hbr, hnbr⟩ :=
    Propagate_spec Hash leaves zero false inner matchlevel p hpos hfit 32 (level + 1) matchh false _
      (by omega) hdvd (hc1 ▸ width_mul_lt _ _) hinner hmatch hml
  have hdw' := hdw l' hle hlow.dvd
  rw [hdw'] at hrun
  have hoddl' : width leaves.length l' % 2 = 1 := hdw' ▸ hlow.odd
  refine ⟨l', matchh', mutated', branch', hrun, by omega,
    ⟨by rw [← hdw', Nat.div_mul_cancel hlow.dvd], hoddl', lt_of_two_pow_dvd hlow.dvd hpos hfit,
      ?_, fun j hj => hinv.above j (by omega), hinv.inner, ?_, ?_⟩⟩
  · -- the carry stops at the root's level at the latest: above it every level has one node
    refine Nat.le_of_not_lt fun hgt => ?_
    have hev := hlow.even_of_lt (show l' - 1 < l' by omega)
    rw [hdw (l' - 1) (by omega) (hlow.dvd_of_le (by omega))] at hev
    have h1 := width_le_one_iff.2 (Nat.le_trans (Nat.le_pow_clog (by decide) leaves.length)
      (Nat.pow_le_pow_right (by decide) (show Nat.clog 2 leaves.length ≤ l' - 1 by omega)))
    have h0 := @width_pos leaves.length (l' - 1) (by omega)
    omega
  · intro hm'
    obtain ⟨hpl, hbrl⟩ := hbr hm'
    refine ⟨?_, hdw' ▸ hpl, hbrl⟩
    cases hm : matchh
    · rcases (hmh.1 hm').resolve_left (by simp [hm]) with ⟨j, -, -, hj⟩
      rcases hinv.unmatched hm with ⟨-, hml1, -⟩ | ⟨hp, -⟩
      · rw [hml1] at hj
        omega
      · exact hp
    · exact (hinv.matched hm).1
  · intro hm'
    have hno : matchh = false ∧ ∀ j : Nat, level + 1 ≤ j → j < l' → matchlevel ≠ j := by
      constructor
      · cases hm : matchh
        · rfl
        · exact absurd (hmh.2 (Or.inl hm)) (by simp [hm'])
      · intro j hj hj' hmj
        exact absurd (hmh.2 (Or.inr ⟨j, hj, hj', hmj⟩)) (by simp [hm'])
    rw [hnbr hm', if_neg (by simp [hno.1])]
    rcases hinv.unmatched hno.1 with hpast | ⟨hp, m, hmm, hlm, hodd', hpm, hbr'⟩
    · exact Or.inl hpast
    · have hlm' : l' ≤ m := Nat.le_of_not_lt fun hlt => hno.2 m (by omega) hlt hmm
      have hne : l' ≠ m := by
        rintro rfl
        have hwl := width_eq_of_not_dvd (hinv.above l' (by omega))
        omega
      exact Or.inr ⟨hp, m, hmm, Nat.lt_of_le_of_ne hlm' hne, hodd', hpm, hbr'⟩

/-- Past `2 ^ 31` leaves the raised count reaches `2 ^ 32` below the top: the carry runs into the
undefined shift. -/
theorem SweepInv.abort (hinv : SweepInv Hash leaves zero p inner matchlevel count level matchh branch)
    (hlen : leaves.length < 2 ^ 32) (htop : width leaves.length level ≠ 1)
    (hfit : ¬ count + 2 ^ level < 2 ^ 32) :
    Propagate Hash false (count + 2 ^ level) inner matchlevel 32 (level + 1)
        (Hash (node Hash leaves zero level (width leaves.length level - 1))
          (node Hash leaves zero level (width leaves.length level - 1))) matchh false
        (if matchh then branch ++ [node Hash leaves zero level (width leaves.length level - 1)]
          else branch) =
      .error (.abort (str "1 << level with level >= 32")) ∧ ¬ Nat.clog 2 leaves.length < 32 := by
  have hc1 := hinv.count_succ
  have hlc := hinv.lt_clog htop
  have hclog : Nat.clog 2 leaves.length ≤ 32 :=
    (Nat.clog_le_iff_le_pow (by decide)).2 (Nat.le_of_lt hlen)
  have hlt := hc1 ▸ width_mul_lt leaves.length (level + 1)
  have hP : 2 ^ (level + 1) ≤ 2 ^ Nat.clog 2 leaves.length := Nat.pow_le_pow_right (by decide) hlc
  have hC : count + 2 ^ level = 2 ^ 32 :=
    eq_of_dvd_of_lt_add (Nat.pow_dvd_pow 2 (show level + 1 ≤ 32 by omega))
      (show 2 ^ (level + 1) ∣ count + 2 ^ level from ⟨_, by rw [hc1, Nat.mul_comm]⟩)
      (by omega) (by omega)
  refine ⟨?_, fun h32 => ?_⟩
  · rw [hC]
    exact Propagate_of_two_pow_32_dvd Hash (Nat.dvd_refl _) 32 _ _ _ _ _ (by omega)
  · have hn := (Nat.clog_le_iff_le_pow (by decide)).1 (show Nat.clog 2 leaves.length ≤ 31 by omega)
    have : 2 ^ Nat.clog 2 leaves.length ≤ 2 ^ 31 := Nat.pow_le_pow_right (by decide) (by omega)
    omega

/-- The final sweep from a state of its invariant ends at the root, with the branch of the branch
leaf when it is one of the leaves, unless the tree is `32` levels deep, where a round runs into
the undefined shift. The induction is on the fuel; each round climbs at least one level, and
the rounds stop at the root or below level `32`. -/
theorem SweepLoop_spec (hlen : leaves.length < 2 ^ 32) :
    ∀ fuel count level matchh branch,
      SweepInv Hash leaves zero p inner matchlevel count level matchh branch →
      min (Nat.clog 2 leaves.length) 31 < fuel + level →
      SweepLoop Hash inner matchlevel fuel count level
          (node Hash leaves zero level (width leaves.length level - 1)) matchh branch =
        if Nat.clog 2 leaves.length < 32 then
          .ok (node Hash leaves zero (Nat.clog 2 leaves.length) 0,
            if p < leaves.length then path Hash leaves zero p (Nat.clog 2 leaves.length) else [])
        else .error (.abort (str "1 << level with level >= 32")) := by
  intro fuel
  induction fuel with
  | zero =>
    intro count level matchh branch hinv hfuel
    have := hinv.level_lt
    exact absurd hinv.level_le (by omega)
  | succ fuel ih =>
    intro count level matchh branch hinv hfuel
    by_cases htop : width leaves.length level = 1
    · -- one node is left: it is the root
      have hclog : Nat.clog 2 leaves.length = level :=
        Nat.le_antisymm ((Nat.clog_le_iff_le_pow (by decide)).2 (width_le_one_iff.1 htop.le))
          hinv.level_le
      rw [SweepLoop_of_top hinv.level_lt (by rw [hinv.count, htop, Nat.one_mul]),
        if_pos (hclog ▸ hinv.level_lt), hclog, htop]
      cases hm : matchh
      · rcases hinv.unmatched hm with ⟨hge, -, hbr⟩ | ⟨-, m, -, hlm, hodd, -, -⟩
        · rw [if_neg (by omega), hbr]
        · -- a set bit of the leaf count above the root's level is impossible
          have hdiv : 1 ≤ leaves.length / 2 ^ m := by
            generalize leaves.length / 2 ^ m = q at hodd
            omega
          have h1 := (Nat.le_div_iff_mul_le (Nat.two_pow_pos m)).1 hdiv
          rw [Nat.one_mul] at h1
          have h2 := Nat.le_pow_clog (by decide : 1 < 2) leaves.length
          have h3 : 2 ^ (level + 1) ≤ 2 ^ m := Nat.pow_le_pow_right (by decide) hlm
          rw [hclog] at h2
          rw [Nat.pow_succ] at h3
          have := Nat.two_pow_pos level
          omega
      · obtain ⟨hp, -, hbr⟩ := hinv.matched hm
        rw [if_pos hp, hbr]
    · have hne : count ≠ 2 ^ level := fun hc => htop (by
        rw [hinv.count] at hc
        exact Nat.eq_of_mul_eq_mul_right (Nat.two_pow_pos level) (hc.trans (Nat.one_mul _).symm))
      by_cases hfit : count + 2 ^ level < 2 ^ 32
      · obtain ⟨l', matchh', mutated', branch', hrun, hlt, hinv'⟩ := hinv.step htop hfit
        rw [SweepLoop_of_ok hinv.level_lt hne hrun]
        exact ih _ _ _ _ hinv' (by omega)
      · obtain ⟨herr, hdeep⟩ := hinv.abort hlen htop hfit
        rw [SweepLoop_of_error hinv.level_lt hne herr, if_neg hdeep]

end SweepStep

/-! ### The whole computation -/

section Computation

variable {α : Type} [DecidableEq α] (Hash : α → α → α) (zero : α)

/-- `MerkleComputation` below `2 ^ 32` leaves: the leaf loop, the scan for the lowest set bit and
the sweep, each by its run lemma. -/
theorem MerkleComputation_of_lt {leaves : List α} (hne : leaves ≠ []) (hlen : leaves.length < 2 ^ 32)
    (p : Nat) :
    ∃ mutated, (mutated = true ↔ CompleteEqualPair Hash leaves zero) ∧
      MerkleComputation Hash zero leaves p =
        if Nat.clog 2 leaves.length < 32 then
          .ok (node Hash leaves zero (Nat.clog 2 leaves.length) 0, mutated,
            if p < leaves.length then path Hash leaves zero p (Nat.clog 2 leaves.length) else [])
        else .error (.abort (str "1 << level with level >= 32")) := by
  have hn : 0 < leaves.length := List.length_pos_iff.2 hne
  obtain ⟨st, hleaves, hinv⟩ := ProcessLeaves_spec Hash leaves zero hlen leaves 0 _
    (LeavesInv_init Hash leaves zero p) (Nat.zero_le _) (List.drop_zero)
  obtain ⟨l, hscan, hlow⟩ := LowestSetBit_spec hn hlen 32 0 (by omega) (Nat.one_dvd _)
  obtain ⟨hsweep, hstart⟩ := SweepInv.start Hash leaves zero hinv hlow hlen
  refine ⟨st.mutated, hinv.mutated, ?_⟩
  have hrun := SweepLoop_spec hlen 32 _ _ _ _ hsweep (by omega)
  rw [← hstart] at hrun
  rw [MerkleComputation, if_neg hne, hleaves]
  simp only [bind, Except.bind]
  rw [hinv.count, hscan]
  simp only
  by_cases hdepth : Nat.clog 2 leaves.length < 32
  · rw [if_pos hdepth] at hrun ⊢
    rw [hrun]
    rfl
  · rw [if_neg hdepth] at hrun ⊢
    rw [hrun]

/-- `MerkleComputation` from `2 ^ 32` leaves on: the count reaches `2 ^ 32` in the leaf loop. -/
theorem MerkleComputation_of_ge {leaves : List α} (hlen : 2 ^ 32 ≤ leaves.length) (p : Nat) :
    MerkleComputation Hash zero leaves p = .error (.abort (str "1 << level with level >= 32")) := by
  have hne : leaves ≠ [] := fun h => by rw [h, List.length_nil] at hlen; omega
  rw [MerkleComputation, if_neg hne,
    ProcessLeaves_error Hash leaves zero hlen leaves 0 _ (LeavesInv_init Hash leaves zero p)
      (by omega) List.drop_zero]
  rfl

/-- The depth of the tree is at most `31` exactly when there are at most `2 ^ 31` leaves. -/
theorem clog_lt_32_iff (n : Nat) : Nat.clog 2 n < 32 ↔ n ≤ 2 ^ 31 := by
  rw [Nat.lt_succ_iff, Nat.clog_le_iff_le_pow (by decide)]

/-- `MerkleComputation` computes the level-by-level tree for every nonempty list of at most
`2 ^ 31` leaves: its root, whether two complete sibling nodes are equal, and the branch of the
leaf at `p` (none past the end); past `2 ^ 31` leaves it executes an undefined shift. -/
theorem MerkleComputation_spec {leaves : List α} (hne : leaves ≠ []) (p : Nat) :
    ∃ mutated, (mutated = true ↔ CompleteEqualPair Hash leaves zero) ∧
      MerkleComputation Hash zero leaves p =
        if leaves.length ≤ 2 ^ 31 then
          .ok (root Hash zero leaves, mutated,
            if p < leaves.length then branch Hash zero leaves p else [])
        else .error (.abort (str "1 << level with level >= 32")) := by
  rcases Nat.lt_or_ge leaves.length (2 ^ 32) with hlen | hlen
  · obtain ⟨mutated, hmut, hrun⟩ := MerkleComputation_of_lt Hash zero hne hlen p
    refine ⟨mutated, hmut, ?_⟩
    rw [hrun, root_eq_node Hash leaves zero hne]
    by_cases hdepth : leaves.length ≤ 2 ^ 31
    · rw [if_pos ((clog_lt_32_iff _).2 hdepth), if_pos hdepth]
      by_cases hp : p < leaves.length
      · rw [if_pos hp, if_pos hp, branch_eq Hash leaves zero hp]
      · rw [if_neg hp, if_neg hp]
    · rw [if_neg (mt (clog_lt_32_iff _).1 hdepth), if_neg hdepth]
  · classical
    refine ⟨decide (CompleteEqualPair Hash leaves zero), decide_eq_true_iff, ?_⟩
    rw [MerkleComputation_of_ge Hash zero hlen p, if_neg (by omega)]

end Computation

/-! ### Climbing a branch -/

section Climb

variable {α : Type} (Hash : α → α → α)

/-- The last node of a branch is hashed last, on the side the index's bit at its level says. -/
theorem ComputeMerkleRootFromBranch_append (leaf : α) (bs : List α) (b : α) (nIndex : Nat) :
    ComputeMerkleRootFromBranch Hash leaf (bs ++ [b]) nIndex =
      if (nIndex >>> bs.length) &&& 1 ≠ 0 then Hash b (ComputeMerkleRootFromBranch Hash leaf bs nIndex)
      else Hash (ComputeMerkleRootFromBranch Hash leaf bs nIndex) b := by
  induction bs generalizing leaf nIndex with
  | nil => rfl
  | cons c bs ih =>
    rw [List.cons_append, ComputeMerkleRootFromBranch, ih, ComputeMerkleRootFromBranch,
      List.length_cons, ← Nat.shiftRight_add, Nat.add_comm 1 bs.length]

variable (leaves : List α) (zero : α)

theorem length_path (p m : Nat) : (path Hash leaves zero p m).length = m := by
  simp [path]

/-- Climbing the first `m` nodes of a leaf's path from the leaf gives its ancestor at level
`m`. -/
theorem ComputeMerkleRootFromBranch_path {p : Nat} (hp : p < leaves.length) (m : Nat) :
    ComputeMerkleRootFromBranch Hash (node Hash leaves zero 0 p) (path Hash leaves zero p m) p =
      node Hash leaves zero m (p / 2 ^ m) := by
  induction m with
  | zero => rw [path_zero, Nat.pow_zero, Nat.div_one]; rfl
  | succ m ih =>
    have hq := div_pow_lt_width leaves hp (j := m)
    rw [path_succ, ComputeMerkleRootFromBranch_append, ih, length_path, Nat.shiftRight_eq_div_pow,
      Nat.and_one_is_mod, div_two_pow_succ, ← node_succ_pairedWith Hash leaves zero hq]
    by_cases hodd : p / 2 ^ m % 2 = 1
    · rw [if_pos (by omega), if_pos hodd]
    · rw [if_neg (by omega), if_neg hodd]

end Climb

/-! ### The tree the computation refines -/

section Refinement

variable {α : Type} [DecidableEq α] (Hash : α → α → α) (zero : α)

/-- A root `ComputeMerkleRoot` returns for a nonempty list is the tree's root, and its flag says
whether two complete sibling nodes are equal. -/
theorem ComputeMerkleRoot_eq_ok {leaves : List α} {r : α} {m : Bool} (hne : leaves ≠ [])
    (h : ComputeMerkleRoot Hash zero leaves = .ok (r, m)) :
    r = root Hash zero leaves ∧ (m = true ↔ CompleteEqualPair Hash leaves zero) := by
  obtain ⟨mutated, hmut, hspec⟩ := MerkleComputation_spec Hash zero hne (2 ^ 32 - 1)
  rw [ComputeMerkleRoot, hspec] at h
  by_cases hlen : leaves.length ≤ 2 ^ 31
  · rw [if_pos hlen] at h
    cases h
    exact ⟨rfl, hmut⟩
  · rw [if_neg hlen] at h
    cases h

theorem merkle_computation_refines_tree (leaves : List α) (hlen : leaves.length ≤ 2 ^ 31) :
    (ComputeMerkleRoot Hash zero leaves).map Prod.fst = .ok (root Hash zero leaves) ∧
    (∀ i, i < leaves.length →
      ComputeMerkleBranch Hash zero leaves i = .ok (branch Hash zero leaves i)) ∧
    ∀ i (hi : i < leaves.length),
      (ComputeMerkleBranch Hash zero leaves i).map
          (fun b => ComputeMerkleRootFromBranch Hash leaves[i] b i) =
        (ComputeMerkleRoot Hash zero leaves).map Prod.fst := by
  by_cases hne : leaves = []
  · subst hne
    exact ⟨rfl, fun i hi => absurd hi (Nat.not_lt_zero i),
      fun i hi => absurd hi (Nat.not_lt_zero i)⟩
  have hroot : (ComputeMerkleRoot Hash zero leaves).map Prod.fst = .ok (root Hash zero leaves) := by
    obtain ⟨mutated, -, hspec⟩ := MerkleComputation_spec Hash zero hne (2 ^ 32 - 1)
    rw [ComputeMerkleRoot, hspec, if_pos hlen]
    rfl
  have hbranch : ∀ i, i < leaves.length →
      ComputeMerkleBranch Hash zero leaves i = .ok (branch Hash zero leaves i) := by
    intro i hi
    obtain ⟨mutated, -, hspec⟩ := MerkleComputation_spec Hash zero hne i
    rw [ComputeMerkleBranch, hspec, if_pos hlen, if_pos hi]
    rfl
  refine ⟨hroot, hbranch, fun i hi => ?_⟩
  -- climbing the branch from the leaf reaches the root's level at position `0`
  have hleaf : leaves[i] = node Hash leaves zero 0 i := by
    simp [node, List.getD_eq_getElem?_getD, List.getElem?_eq_getElem hi]
  have htop : i / 2 ^ Nat.clog 2 leaves.length = 0 :=
    Nat.div_eq_of_lt (Nat.lt_of_lt_of_le hi (Nat.le_pow_clog (by decide) _))
  rw [hroot, hbranch i hi, hleaf, branch_eq Hash leaves zero hi]
  show Except.ok _ = _
  dsimp only
  rw [ComputeMerkleRootFromBranch_path Hash leaves zero hi, htop, root_eq_node Hash leaves zero hne]

/-- The computation of a three-leaf tree with a sample pair hash. -/
theorem merkle_computation_refines_tree_three :
    ([1, 2, 3] : List Nat).length ≤ 2 ^ 31 ∧
    ((ComputeMerkleRoot (fun a b => 3 * a + b + 1) 0 [1, 2, 3]).map Prod.fst =
        .ok (root (fun a b => 3 * a + b + 1) 0 [1, 2, 3]) ∧
      (∀ i, i < ([1, 2, 3] : List Nat).length →
        ComputeMerkleBranch (fun a b => 3 * a + b + 1) 0 [1, 2, 3] i =
          .ok (branch (fun a b => 3 * a + b + 1) 0 [1, 2, 3] i)) ∧
      ∀ i (hi : i < ([1, 2, 3] : List Nat).length),
        (ComputeMerkleBranch (fun a b => 3 * a + b + 1) 0 [1, 2, 3] i).map
            (fun b => ComputeMerkleRootFromBranch (fun a b => 3 * a + b + 1) [1, 2, 3][i] b i) =
          (ComputeMerkleRoot (fun a b => 3 * a + b + 1) 0 [1, 2, 3]).map Prod.fst) :=
  ⟨by decide, merkle_computation_refines_tree (fun a b => 3 * a + b + 1) 0 [1, 2, 3] (by decide)⟩

end Refinement

/-! ### Mutation detection -/

section Mutation

variable {α : Type} [DecidableEq α] (Hash : α → α → α) (zero : α)

theorem merkle_mutation_detects_collisions (hinj : ∀ a b c d, Hash a b = Hash c d → a = c ∧ b = d) :
    (∀ (leaves leaves' : List α) (r : α) (m m' : Bool), leaves ≠ [] → leaves' ≠ [] →
      leaves ≠ leaves' → Nat.clog 2 leaves.length = Nat.clog 2 leaves'.length →
      ComputeMerkleRoot Hash zero leaves = .ok (r, m) →
      ComputeMerkleRoot Hash zero leaves' = .ok (r, m') → m = true ∨ m' = true) ∧
    ∀ (leaves : List α) (r : α) (m : Bool), ComputeMerkleRoot Hash zero leaves = .ok (r, m) →
      (m = true ↔ PresentEqualPair Hash leaves zero) := by
  refine ⟨fun leaves leaves' r m m' hne hne' hdiff hdepth h h' => ?_, fun leaves r m h => ?_⟩
  · obtain ⟨hr, hm⟩ := ComputeMerkleRoot_eq_ok Hash zero hne h
    obtain ⟨hr', hm'⟩ := ComputeMerkleRoot_eq_ok Hash zero hne' h'
    rcases eq_or_PresentEqualPair_of_root_eq leaves zero leaves' hinj hne hne' hdepth
        (hr.symm.trans hr') with heq | hpair | hpair
    · exact absurd heq hdiff
    · exact Or.inl (hm.2 (CompleteEqualPair_of_PresentEqualPair leaves zero hinj hpair))
    · exact Or.inr (hm'.2 (CompleteEqualPair_of_PresentEqualPair leaves' zero hinj hpair))
  · by_cases hne : leaves = []
    · -- the empty list: no flag and no pair
      subst hne
      cases h
      simp only [Bool.false_eq_true, false_iff]
      rintro ⟨j, i, hi, -⟩
      have := lt_width_iff.1 hi
      rw [List.length_nil] at this
      omega
    · rw [(ComputeMerkleRoot_eq_ok Hash zero hne h).2,
        PresentEqualPair_iff_CompleteEqualPair leaves zero hinj]

/-- The pair hash `Nat.pair` is injective, and the property holds for it. -/
theorem merkle_mutation_detects_collisions_pair :
    (∀ a b c d, Nat.pair a b = Nat.pair c d → a = c ∧ b = d) ∧
    ((∀ (leaves leaves' : List Nat) (r : Nat) (m m' : Bool), leaves ≠ [] → leaves' ≠ [] →
      leaves ≠ leaves' → Nat.clog 2 leaves.length = Nat.clog 2 leaves'.length →
      ComputeMerkleRoot Nat.pair 0 leaves = .ok (r, m) →
      ComputeMerkleRoot Nat.pair 0 leaves' = .ok (r, m') → m = true ∨ m' = true) ∧
    ∀ (leaves : List Nat) (r : Nat) (m : Bool), ComputeMerkleRoot Nat.pair 0 leaves = .ok (r, m) →
      (m = true ↔ PresentEqualPair Nat.pair leaves 0)) :=
  ⟨fun _ _ _ _ h => Nat.pair_eq_pair.1 h,
    merkle_mutation_detects_collisions Nat.pair 0 fun _ _ _ _ h => Nat.pair_eq_pair.1 h⟩

/-- A single leaf is its own root, with no mutation. -/
theorem ComputeMerkleRoot_singleton (leaf : α) :
    ComputeMerkleRoot Hash zero [leaf] = .ok (leaf, false) := by
  obtain ⟨mutated, hmut, hspec⟩ := MerkleComputation_spec Hash zero (List.cons_ne_nil leaf []) (2 ^ 32 - 1)
  have hm : mutated = false := by
    cases hmm : mutated
    · rfl
    · obtain ⟨j, i, hc, -⟩ := hmut.1 hmm
      unfold Complete at hc
      rw [List.length_singleton] at hc
      have := Nat.mul_le_mul (show 2 ≤ 2 * i + 1 + 1 by omega) (Nat.one_le_two_pow : 1 ≤ 2 ^ j)
      omega
  rw [ComputeMerkleRoot, hspec, if_pos (by rw [List.length_singleton]; decide), hm]
  rfl

/-- The empty list and the list of the one leaf `uint256()` have one depth under `⌈log₂ 0⌉ = 0`
and one root, `uint256()`, and neither computation reports a mutation, whatever the hash. -/
theorem ComputeMerkleRoot_nil_singleton_collide :
    ([] : List α) ≠ [zero] ∧ Nat.clog 2 ([] : List α).length = Nat.clog 2 [zero].length ∧
      ComputeMerkleRoot Hash zero [] = .ok (zero, false) ∧
      ComputeMerkleRoot Hash zero [zero] = .ok (zero, false) :=
  ⟨(List.cons_ne_nil zero []).symm, rfl, rfl, ComputeMerkleRoot_singleton Hash zero zero⟩

/-- Under the injective pair hash `Nat.pair` the lists [] and [0] collide unflagged. -/
theorem merkle_mutation_misses_empty_list :
    (∀ a b c d, Nat.pair a b = Nat.pair c d → a = c ∧ b = d) ∧
    ([] : List Nat) ≠ [0] ∧ Nat.clog 2 ([] : List Nat).length = Nat.clog 2 [0].length ∧
      ComputeMerkleRoot Nat.pair 0 [] = .ok (0, false) ∧
      ComputeMerkleRoot Nat.pair 0 [0] = .ok (0, false) :=
  ⟨fun _ _ _ _ h => Nat.pair_eq_pair.1 h, ComputeMerkleRoot_nil_singleton_collide Nat.pair 0⟩

end Mutation

end Ravencoin
