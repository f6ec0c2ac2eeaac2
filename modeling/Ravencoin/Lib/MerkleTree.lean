import Mathlib.Data.Nat.Log
import Mathlib.Algebra.Group.Nat.Defs

/-!
# Merkle trees whose odd levels pair their last node with itself

A Merkle tree over a list of leaves is built level by level: adjacent nodes are hashed in pairs,
and when a level has an odd number of nodes its last node is hashed with itself. The root is the
one node left; an empty list has a default root. The path of a leaf is the list of the nodes
paired with its ancestors, from the leaf up.

This module defines the tree twice, as the list of each level built from the one below and as
the node at a level and a position, and proves that the two agree: the root is the node at
level `⌈log₂ n⌉`, and the path lists the nodes paired with each ancestor. When the pair hash is
injective, equal nodes of a level go back to equal sibling nodes whose leaves are all present,
and two lists of leaves with one root and one depth are equal unless one of them has two equal
sibling nodes.

## Main definitions

* `MerkleTree.width` — the number of nodes of a level.
* `MerkleTree.node` — the node at a level and a position.
* `MerkleTree.level`, `MerkleTree.root`, `MerkleTree.branch` — the tree level by level, its root
  and the path of a leaf.
* `MerkleTree.path` — the first nodes of the path of a leaf, by position.
* `MerkleTree.Complete` — a node whose leaves are all present.
* `MerkleTree.PresentEqualPair`, `MerkleTree.CompleteEqualPair` — two equal sibling nodes.

## Main results

* `MerkleTree.lt_width_iff` — a position is within level `j` when its first leaf is.
* `MerkleTree.width_eq_of_bounds`, `MerkleTree.width_eq_of_not_dvd` — the width is `⌈n / 2 ^ j⌉`.
* `MerkleTree.node_succ_of_even`, `MerkleTree.node_succ_last_of_odd`,
  `MerkleTree.node_succ_pairedWith` — a node from the two below it, by position.
* `MerkleTree.root_eq_node`, `MerkleTree.branch_eq` — the level-by-level tree is the tree of
  nodes.
* `MerkleTree.CompleteEqualPair_of_PresentEqualPair` — for an injective hash, equal siblings go
  back to equal complete siblings.
* `MerkleTree.eq_or_PresentEqualPair_of_root_eq` — for an injective hash, one root and one depth
  make the leaves equal, or one tree has equal siblings.
-/

set_option autoImplicit false

universe u

namespace MerkleTree

variable {α : Type u} (H : α → α → α)

/-! ### Widths of the levels -/

/-- The number of nodes at level `j` over `n` leaves: each level halves the one below, rounding
up for the node paired with itself. -/
def width (n : Nat) : Nat → Nat
  | 0 => n
  | j + 1 => (width n j + 1) / 2

/-- Position `i` is present at level `j` exactly when its first leaf is. -/
theorem lt_width_iff {n i j : Nat} : i < width n j ↔ i * 2 ^ j < n := by
  induction j generalizing i with
  | zero => simp [width]
  | succ j ih =>
    rw [width, Nat.pow_succ, Nat.mul_comm (2 ^ j) 2, ← Nat.mul_assoc, Nat.mul_comm i 2, ← ih]
    omega

theorem width_le_one_iff {n j : Nat} : width n j ≤ 1 ↔ n ≤ 2 ^ j := by
  have h := (@lt_width_iff n 1 j).not
  rw [Nat.one_mul] at h
  omega

theorem width_pos {n j : Nat} (hn : 0 < n) : 0 < width n j :=
  lt_width_iff.2 (by rw [Nat.zero_mul]; exact hn)

/-- Past `⌈log₂ n⌉` levels one node is left. -/
theorem width_clog {n : Nat} (hn : 0 < n) : width n (Nat.clog 2 n) = 1 := by
  have hle := width_le_one_iff.2 (Nat.le_pow_clog (by decide) n)
  have hpos := @width_pos n (Nat.clog 2 n) hn
  omega

/-- Below `⌈log₂ n⌉` levels at least two nodes are left. -/
theorem one_lt_width {n j : Nat} (hj : j < Nat.clog 2 n) : 1 < width n j := by
  have hlt := (Nat.lt_clog_iff_pow_lt (by decide)).1 hj
  have := @width_le_one_iff n j
  omega

/-- Level `j` covers the leaves: `width n j` blocks of `2 ^ j` reach past the last leaf. -/
theorem le_width_mul (n j : Nat) : n ≤ width n j * 2 ^ j :=
  Nat.le_of_not_lt fun h => Nat.lt_irrefl _ (lt_width_iff.2 h)

/-- The last block of level `j` starts before the last leaf. -/
theorem width_mul_lt (n j : Nat) : width n j * 2 ^ j < n + 2 ^ j := by
  rcases Nat.eq_zero_or_pos (width n j) with h0 | hw
  · rw [h0, Nat.zero_mul]
    exact Nat.lt_add_left n (Nat.two_pow_pos j)
  · have hlast := lt_width_iff.1 (Nat.sub_lt hw Nat.one_pos)
    rw [Nat.sub_mul, Nat.one_mul] at hlast
    have := Nat.le_mul_of_pos_left (2 ^ j) hw
    omega

/-- The width is the number of blocks of `2 ^ j` that covers the leaves with less than one block
to spare: `⌈n / 2 ^ j⌉`. -/
theorem width_eq_of_bounds {n j w : Nat} (hlo : n ≤ w * 2 ^ j) (hhi : w * 2 ^ j < n + 2 ^ j) :
    width n j = w := by
  have hle : width n j ≤ w := Nat.le_of_not_lt fun h => by
    have := lt_width_iff.1 h
    omega
  rcases Nat.eq_zero_or_pos w with rfl | hw
  · omega
  · have := Nat.le_mul_of_pos_left (2 ^ j) hw
    have : w - 1 < width n j := lt_width_iff.2 (by rw [Nat.sub_mul, Nat.one_mul]; omega)
    omega

/-- A multiple of `2 ^ j` within one block past the last leaf counts the nodes of level `j`. -/
theorem width_eq_div_of_dvd {n j c : Nat} (hd : 2 ^ j ∣ c) (hlo : n ≤ c) (hhi : c < n + 2 ^ j) :
    width n j = c / 2 ^ j :=
  width_eq_of_bounds (by rwa [Nat.div_mul_cancel hd]) (by rwa [Nat.div_mul_cancel hd])

/-- When `2 ^ j` does not divide `n`, the last node of level `j` is incomplete. -/
theorem width_eq_of_not_dvd {n j : Nat} (hd : ¬ 2 ^ j ∣ n) : width n j = n / 2 ^ j + 1 := by
  have hmod : n % 2 ^ j ≠ 0 := fun h => hd (Nat.dvd_of_mod_eq_zero h)
  have hsplit := Nat.div_add_mod' n (2 ^ j)
  have hlt := Nat.mod_lt n (Nat.two_pow_pos j)
  apply width_eq_of_bounds <;> rw [Nat.succ_mul] <;> omega

/-- The block of `2 ^ j` leaves that ends at a multiple of `2 ^ j` within one block past the last
leaf is a node of level `j`. -/
theorem div_sub_one_lt_width {n j c : Nat} (hd : 2 ^ j ∣ c) (hc : 0 < c) (hn : c < n + 2 ^ j) :
    c / 2 ^ j - 1 < width n j := by
  apply lt_width_iff.2
  rw [Nat.sub_mul, Nat.one_mul, Nat.div_mul_cancel hd]
  have := Nat.le_of_dvd hc hd
  omega

/-- Whole blocks of level `i` that a power of two of a higher level `j` divides count the nodes
of level `j`. -/
theorem div_eq_width_of_mul {n i j c : Nat} (hc : c = width n i * 2 ^ i) (hij : i ≤ j)
    (hd : 2 ^ j ∣ c) : c / 2 ^ j = width n j := by
  have hlo : n ≤ c := hc ▸ le_width_mul n i
  have hhi : c < n + 2 ^ j :=
    Nat.lt_of_lt_of_le (hc ▸ width_mul_lt n i) (Nat.add_le_add_left (Nat.pow_le_pow_right (by decide) hij) n)
  exact (width_eq_div_of_dvd hd hlo hhi).symm

/-- An odd level gains the node paired with itself: its blocks and one more make whole blocks
of the level above. -/
theorem width_succ_mul_of_odd {n j : Nat} (hw : width n j % 2 = 1) :
    (width n j + 1) * 2 ^ j = width n (j + 1) * 2 ^ (j + 1) := by
  have h2 : (width n j + 1) / 2 * 2 = width n j + 1 := Nat.div_mul_cancel (by omega)
  rw [width, Nat.pow_succ, Nat.mul_comm (2 ^ j) 2, ← Nat.mul_assoc, h2]

/-! ### Nodes -/

/-- The node at level `j` and position `i` over `leaves`: a leaf at level `0`, and above it the
hash of its two children, the left child twice when the right one is past the end of its level.
`dflt` stands for a leaf past the end. -/
def node (leaves : List α) (dflt : α) : Nat → Nat → α
  | 0, i => leaves.getD i dflt
  | j + 1, i =>
    H (node leaves dflt j (2 * i))
      (if 2 * i + 1 < width leaves.length j then node leaves dflt j (2 * i + 1)
        else node leaves dflt j (2 * i))

variable (leaves : List α) (dflt : α)

theorem node_succ_of_lt {j i : Nat} (h : 2 * i + 1 < width leaves.length j) :
    node H leaves dflt (j + 1) i =
      H (node H leaves dflt j (2 * i)) (node H leaves dflt j (2 * i + 1)) := by
  rw [node, if_pos h]

theorem node_succ_of_not_lt {j i : Nat} (h : ¬ 2 * i + 1 < width leaves.length j) :
    node H leaves dflt (j + 1) i =
      H (node H leaves dflt j (2 * i)) (node H leaves dflt j (2 * i)) := by
  rw [node, if_neg h]

/-- The parent of an even number `q` of nodes: the hash of the last two. -/
theorem node_succ_of_even {j q : Nat} (hq : q % 2 = 0) (h2 : 2 ≤ q)
    (hw : q - 1 < width leaves.length j) :
    node H leaves dflt (j + 1) (q / 2 - 1) =
      H (node H leaves dflt j (q - 2)) (node H leaves dflt j (q - 1)) := by
  have hl : 2 * (q / 2 - 1) = q - 2 := by omega
  have hr : 2 * (q / 2 - 1) + 1 = q - 1 := by omega
  rw [node_succ_of_lt H leaves dflt (by rw [hr]; exact hw), hr, hl]

/-- The last node of a level above an odd one: the last node below hashed with itself. -/
theorem node_succ_last_of_odd {j : Nat} (hw : width leaves.length j % 2 = 1) :
    node H leaves dflt (j + 1) (width leaves.length (j + 1) - 1) =
      H (node H leaves dflt j (width leaves.length j - 1))
        (node H leaves dflt j (width leaves.length j - 1)) := by
  have hi : 2 * (width leaves.length (j + 1) - 1) = width leaves.length j - 1 := by
    rw [width]
    omega
  rw [node_succ_of_not_lt H leaves dflt (by rw [hi]; omega), hi]

/-- The nodes of level `j`, from left to right. -/
def nodes (j : Nat) : List α :=
  (List.range (width leaves.length j)).map (node H leaves dflt j)

theorem length_nodes (j : Nat) : (nodes H leaves dflt j).length = width leaves.length j := by
  simp [nodes]

theorem getD_nodes {j i : Nat} (d : α) (hi : i < width leaves.length j) :
    (nodes H leaves dflt j).getD i d = node H leaves dflt j i := by
  simp [nodes, List.getD_eq_getElem?_getD, hi]

theorem nodes_zero : nodes H leaves dflt 0 = leaves := by
  apply List.ext_getElem
  · simp [nodes, width]
  · intro i h1 h2
    simp [nodes, node, List.getD_eq_getElem?_getD, h2]

/-! ### The tree level by level -/

/-- One level up: adjacent nodes are hashed in pairs, the last one of an odd number with
itself. -/
def level : List α → List α
  | a :: b :: rest => H a b :: level rest
  | [a] => [H a a]
  | [] => []

theorem length_level (l : List α) : (level H l).length = (l.length + 1) / 2 := by
  induction l using level.induct with
  | case1 a b rest ih =>
    simp only [level, List.length_cons, ih]
    omega
  | case2 a => simp [level]
  | case3 => simp [level]

/-- Node `i` of the level above: the nodes `2 * i` and `2 * i + 1` below, or node `2 * i`
twice. -/
theorem getD_level (l : List α) (d : α) {i : Nat} (hi : 2 * i < l.length) :
    (level H l).getD i d =
      H (l.getD (2 * i) d) (if 2 * i + 1 < l.length then l.getD (2 * i + 1) d else l.getD (2 * i) d) := by
  induction l using level.induct generalizing i with
  | case1 a b rest ih =>
    cases i with
    | zero => simp [level]
    | succ i =>
      have hrest : 2 * i < rest.length := by
        simp only [List.length_cons] at hi
        omega
      have hdrop : ∀ k, (a :: b :: rest).getD (k + 2) d = rest.getD k d := fun _ => rfl
      rw [level, List.getD_cons_succ, ih hrest, show 2 * (i + 1) = 2 * i + 2 by omega,
        show 2 * i + 2 + 1 = 2 * i + 1 + 2 by omega, hdrop, hdrop]
      -- the right child is present in both lists or in neither
      by_cases hc : 2 * i + 1 < rest.length
      · rw [if_pos hc, if_pos (by simp only [List.length_cons]; omega)]
      · rw [if_neg hc, if_neg (by simp only [List.length_cons]; omega)]
  | case2 a =>
    have hi0 : i = 0 := by simp at hi; omega
    subst hi0
    simp [level]
  | case3 => simp at hi

/-- Building a level from the nodes below gives the nodes of that level. -/
theorem level_nodes (j : Nat) : level H (nodes H leaves dflt j) = nodes H leaves dflt (j + 1) := by
  apply List.ext_getElem
  · rw [length_level, length_nodes, length_nodes, width]
  · intro i h1 h2
    rw [length_nodes] at h2
    have hi : 2 * i < width leaves.length j := by
      rw [width] at h2
      omega
    have hlen : 2 * i < (nodes H leaves dflt j).length := by
      rw [length_nodes]
      exact hi
    rw [List.getElem_eq_getD dflt, List.getElem_eq_getD dflt, getD_level _ _ _ hlen, length_nodes,
      getD_nodes H leaves dflt dflt h2, getD_nodes H leaves dflt dflt hi, node]
    split_ifs with h
    · rw [getD_nodes H leaves dflt dflt h]
    · rfl

/-- The root level by level, with at most `fuel` levels built; `dflt` for no leaves. -/
def rootAux (dflt : α) : Nat → List α → α
  | _, [] => dflt
  | _, [a] => a
  | 0, a :: _ :: _ => a
  | fuel + 1, a :: b :: rest => rootAux dflt fuel (level H (a :: b :: rest))

/-- The root of the tree over `leaves`: levels are built while more than one node is left. -/
def root (leaves : List α) : α := rootAux H dflt leaves.length leaves

theorem nodes_eq_singleton {j : Nat} (hw : width leaves.length j = 1) :
    nodes H leaves dflt j = [node H leaves dflt j 0] := by
  simp [nodes, hw]

theorem exists_nodes_eq_cons_cons {j : Nat} (hw : 1 < width leaves.length j) :
    ∃ a b rest, nodes H leaves dflt j = a :: b :: rest := by
  have hlen := length_nodes H leaves dflt j
  match hl : nodes H leaves dflt j with
  | a :: b :: rest => exact ⟨a, b, rest, rfl⟩
  | [] => simp [hl] at hlen; omega
  | [_] => simp [hl] at hlen; omega

/-- Building levels from level `j` on reaches the node at level `⌈log₂ n⌉`; the induction is on
the fuel, which covers the levels left. -/
theorem rootAux_nodes (hn : 0 < leaves.length) (fuel : Nat) :
    ∀ j, j ≤ Nat.clog 2 leaves.length → Nat.clog 2 leaves.length ≤ fuel + j →
      rootAux H dflt fuel (nodes H leaves dflt j) =
        node H leaves dflt (Nat.clog 2 leaves.length) 0 := by
  induction fuel with
  | zero =>
    intro j hj hfuel
    have hjc : j = Nat.clog 2 leaves.length := by omega
    subst hjc
    -- one node is left
    rw [nodes_eq_singleton H leaves dflt (width_clog hn)]
    rfl
  | succ fuel ih =>
    intro j hj hfuel
    by_cases hjc : j = Nat.clog 2 leaves.length
    · subst hjc
      rw [nodes_eq_singleton H leaves dflt (width_clog hn)]
      rfl
    · -- at least two nodes are left: one more level
      obtain ⟨a, b, rest, hl⟩ :=
        exists_nodes_eq_cons_cons H leaves dflt
          (one_lt_width (show j < Nat.clog 2 leaves.length by omega))
      have hnext := ih (j + 1) (by omega) (by omega)
      rw [← level_nodes, hl] at hnext
      rw [hl, rootAux]
      exact hnext

/-- The root is the node at level `⌈log₂ n⌉`. -/
theorem root_eq_node (hne : leaves ≠ []) :
    root H dflt leaves = node H leaves dflt (Nat.clog 2 leaves.length) 0 := by
  have hn : 0 < leaves.length := List.length_pos_iff.2 hne
  have hfuel : Nat.clog 2 leaves.length ≤ leaves.length :=
    Nat.clog_le_of_le_pow Nat.lt_two_pow_self.le
  have := rootAux_nodes H leaves dflt hn leaves.length 0 (Nat.zero_le _) (by omega)
  rwa [nodes_zero] at this

/-! ### Paths -/

/-- The position paired with position `q` of a level of `w` nodes: its sibling, or itself when
it is the last of an odd number. -/
def pairedWith (w q : Nat) : Nat := if q % 2 = 1 then q - 1 else if q + 1 < w then q + 1 else q

theorem pairedWith_lt {w q : Nat} (hq : q < w) : pairedWith w q < w := by
  unfold pairedWith
  split_ifs <;> omega

theorem pairedWith_of_odd {w q : Nat} (hq : q % 2 = 1) : pairedWith w q = q - 1 := if_pos hq

theorem pairedWith_of_even {w q : Nat} (hq : q % 2 = 0) (hw : q + 1 < w) :
    pairedWith w q = q + 1 := by
  rw [pairedWith, if_neg (by omega), if_pos hw]

theorem pairedWith_of_even_of_not_lt {w q : Nat} (hq : q % 2 = 0) (hw : ¬ q + 1 < w) :
    pairedWith w q = q := by
  rw [pairedWith, if_neg (by omega), if_neg hw]

/-- A node is the hash of the node at `q` below and the one paired with it, in the order of
their positions. -/
theorem node_succ_pairedWith {j q : Nat} (hq : q < width leaves.length j) :
    (if q % 2 = 1 then
        H (node H leaves dflt j (pairedWith (width leaves.length j) q)) (node H leaves dflt j q)
      else
        H (node H leaves dflt j q) (node H leaves dflt j (pairedWith (width leaves.length j) q))) =
      node H leaves dflt (j + 1) (q / 2) := by
  by_cases hodd : q % 2 = 1
  · rw [if_pos hodd, pairedWith_of_odd hodd,
      node_succ_of_lt H leaves dflt (show 2 * (q / 2) + 1 < width leaves.length j by omega),
      show 2 * (q / 2) = q - 1 by omega, show q - 1 + 1 = q by omega]
  · have heven : q % 2 = 0 := by omega
    have hq2 : 2 * (q / 2) = q := by omega
    rw [if_neg hodd]
    by_cases hw : q + 1 < width leaves.length j
    · rw [pairedWith_of_even heven hw, node_succ_of_lt H leaves dflt (by rw [hq2]; exact hw), hq2]
    · rw [pairedWith_of_even_of_not_lt heven hw,
        node_succ_of_not_lt H leaves dflt (by rw [hq2]; exact hw), hq2]

/-- The first `m` nodes of the path of the leaf at `p`: the node paired with its ancestor at
each level below `m`. -/
def path (p m : Nat) : List α :=
  (List.range m).map fun k => node H leaves dflt k (pairedWith (width leaves.length k) (p / 2 ^ k))

theorem path_zero (p : Nat) : path H leaves dflt p 0 = [] := rfl

theorem path_succ (p m : Nat) :
    path H leaves dflt p (m + 1) =
      path H leaves dflt p m ++
        [node H leaves dflt m (pairedWith (width leaves.length m) (p / 2 ^ m))] := by
  simp only [path, List.range_succ, List.map_append, List.map_cons, List.map_nil]

/-- The path of the leaf at `idx`, level by level: the node paired with its ancestor at each
level of more than one node, with at most `fuel` levels. -/
def branchAux (dflt : α) : Nat → List α → Nat → List α
  | 0, _, _ => []
  | fuel + 1, l, idx =>
    if l.length ≤ 1 then []
    else l.getD (pairedWith l.length idx) dflt :: branchAux dflt fuel (level H l) (idx / 2)

/-- The path of the leaf at `idx` in the tree over `leaves`. -/
def branch (leaves : List α) (idx : Nat) : List α := branchAux H dflt leaves.length leaves idx

/-- The ancestor at level `j` of the leaf at `p` is present. -/
theorem div_pow_lt_width {p j : Nat} (hp : p < leaves.length) :
    p / 2 ^ j < width leaves.length j :=
  lt_width_iff.2 (Nat.lt_of_le_of_lt (Nat.div_mul_le_self p (2 ^ j)) hp)

/-- The path from level `j` on, by the nodes; the induction is on the fuel. -/
theorem branchAux_nodes {p : Nat} (hp : p < leaves.length) (fuel : Nat) :
    ∀ j, j ≤ Nat.clog 2 leaves.length → Nat.clog 2 leaves.length ≤ fuel + j →
      branchAux H dflt fuel (nodes H leaves dflt j) (p / 2 ^ j) =
        (List.range' j (Nat.clog 2 leaves.length - j)).map fun k =>
          node H leaves dflt k (pairedWith (width leaves.length k) (p / 2 ^ k)) := by
  have hn : 0 < leaves.length := by omega
  induction fuel with
  | zero =>
    intro j hj hfuel
    have hjc : j = Nat.clog 2 leaves.length := by omega
    subst hjc
    simp [branchAux]
  | succ fuel ih =>
    intro j hj hfuel
    by_cases hjc : j = Nat.clog 2 leaves.length
    · subst hjc
      -- one node is left: the path ends
      rw [branchAux, if_pos (by rw [length_nodes, width_clog hn]), Nat.sub_self]
      rfl
    · have hw := one_lt_width (show j < Nat.clog 2 leaves.length by omega)
      have hq := div_pow_lt_width leaves hp (j := j)
      rw [branchAux, if_neg (by rw [length_nodes]; omega), length_nodes,
        getD_nodes H leaves dflt dflt (pairedWith_lt hq), level_nodes, Nat.div_div_eq_div_mul,
        ← Nat.pow_succ, ih (j + 1) (by omega) (by omega),
        show Nat.clog 2 leaves.length - j = (Nat.clog 2 leaves.length - (j + 1)) + 1 by omega,
        List.range'_succ, List.map_cons]

/-- The path of a leaf lists the node paired with its ancestor at each level below the root. -/
theorem branch_eq {p : Nat} (hp : p < leaves.length) :
    branch H dflt leaves p = path H leaves dflt p (Nat.clog 2 leaves.length) := by
  have hfuel : Nat.clog 2 leaves.length ≤ leaves.length :=
    Nat.clog_le_of_le_pow Nat.lt_two_pow_self.le
  have := branchAux_nodes H leaves dflt hp leaves.length 0 (Nat.zero_le _) (by omega)
  rw [nodes_zero, Nat.pow_zero, Nat.div_one, Nat.sub_zero, ← List.range_eq_range'] at this
  exact this

/-! ### Equal siblings -/

/-- A node all of whose leaves are present: no level below it pairs a node with itself. -/
def Complete (n j i : Nat) : Prop := (i + 1) * 2 ^ j ≤ n

/-- Two equal sibling nodes, both present at their level. -/
def PresentEqualPair : Prop :=
  ∃ j i, 2 * i + 1 < width leaves.length j ∧ node H leaves dflt j (2 * i) = node H leaves dflt j (2 * i + 1)

/-- Two equal sibling nodes whose leaves are all present. -/
def CompleteEqualPair : Prop :=
  ∃ j i, Complete leaves.length j (2 * i + 1) ∧
    node H leaves dflt j (2 * i) = node H leaves dflt j (2 * i + 1)

theorem lt_width_of_Complete {n j i : Nat} (h : Complete n j i) : i < width n j := by
  apply lt_width_iff.2
  have := Nat.two_pow_pos j
  unfold Complete at h
  rw [Nat.succ_mul] at h
  omega

/-- The leaves up to the end of the right child are those up to the end of its parent. -/
theorem end_right_child (i j : Nat) : (2 * i + 1 + 1) * 2 ^ j = (i + 1) * 2 ^ (j + 1) := by
  rw [show 2 * i + 1 + 1 = (i + 1) * 2 by omega, Nat.pow_succ, Nat.mul_assoc, Nat.mul_comm 2]

/-- The right child of a complete node is complete. -/
theorem Complete_right_child {n j i : Nat} (h : Complete n (j + 1) i) : Complete n j (2 * i + 1) := by
  unfold Complete at h ⊢
  rw [end_right_child]
  exact h

theorem PresentEqualPair_of_CompleteEqualPair (h : CompleteEqualPair H leaves dflt) :
    PresentEqualPair H leaves dflt := by
  obtain ⟨j, i, hc, heq⟩ := h
  exact ⟨j, i, lt_width_of_Complete hc, heq⟩

section Injective

variable {H} (hinj : ∀ a b c d, H a b = H c d → a = c ∧ b = d)
include hinj

/-- A complete node equal to a present node that is not complete: descending along the right
edge of both, the two first part where the incomplete one pairs a node with itself, and there
the complete one has two equal children. The induction is on the level. -/
theorem CompleteEqualPair_of_eq_incomplete {j a b : Nat} (ha : Complete leaves.length j a)
    (hb : b < width leaves.length j) (hnb : ¬ Complete leaves.length j b)
    (heq : node H leaves dflt j a = node H leaves dflt j b) : CompleteEqualPair H leaves dflt := by
  induction j generalizing a b with
  | zero =>
    -- every present leaf is complete
    have hcomplete : Complete leaves.length 0 b := by
      unfold Complete
      simp only [width] at hb
      rw [Nat.pow_zero, Nat.mul_one]
      omega
    exact absurd hcomplete hnb
  | succ j ih =>
    have ha1 := Complete_right_child ha
    rw [node_succ_of_lt H leaves dflt (lt_width_of_Complete ha1)] at heq
    by_cases hb1 : 2 * b + 1 < width leaves.length j
    · rw [node_succ_of_lt H leaves dflt hb1] at heq
      obtain ⟨-, hright⟩ := hinj _ _ _ _ heq
      -- the right children: complete, and present but not complete
      have hnb1 : ¬ Complete leaves.length j (2 * b + 1) := by
        unfold Complete at hnb ⊢
        rw [end_right_child]
        exact hnb
      exact ih ha1 hb1 hnb1 hright
    · rw [node_succ_of_not_lt H leaves dflt hb1] at heq
      obtain ⟨hleft, hright⟩ := hinj _ _ _ _ heq
      exact ⟨j, a, ha1, hleft.trans hright.symm⟩

/-- Equal siblings go back to equal complete siblings. -/
theorem CompleteEqualPair_of_PresentEqualPair (h : PresentEqualPair H leaves dflt) :
    CompleteEqualPair H leaves dflt := by
  obtain ⟨j, i, hi, heq⟩ := h
  by_cases hc : Complete leaves.length j (2 * i + 1)
  · exact ⟨j, i, hc, heq⟩
  · -- the left sibling is complete, being followed by a present node
    have hleft : Complete leaves.length j (2 * i) := by
      unfold Complete
      have := lt_width_iff.1 hi
      omega
    exact CompleteEqualPair_of_eq_incomplete leaves dflt hinj hleft hi hc heq

theorem PresentEqualPair_iff_CompleteEqualPair :
    PresentEqualPair H leaves dflt ↔ CompleteEqualPair H leaves dflt :=
  ⟨CompleteEqualPair_of_PresentEqualPair leaves dflt hinj,
    PresentEqualPair_of_CompleteEqualPair H leaves dflt⟩

end Injective

/-! ### Equal roots -/

section Roots

variable (leaves' : List α)

/-- Level `j` of two trees: the same number of nodes, and the same nodes. -/
def LevelsAgree (j : Nat) : Prop :=
  width leaves.length j = width leaves'.length j ∧
    ∀ i < width leaves.length j, node H leaves dflt j i = node H leaves' dflt j i

variable {H} (hinj : ∀ a b c d, H a b = H c d → a = c ∧ b = d)
include hinj

/-- Equal levels above give equal levels below, unless the one with more nodes below has its
last two equal: the other paired its last node with itself. -/
theorem LevelsAgree_of_succ {j : Nat} (h : LevelsAgree H leaves dflt leaves' (j + 1)) :
    LevelsAgree H leaves dflt leaves' j ∨ PresentEqualPair H leaves dflt ∨
      PresentEqualPair H leaves' dflt := by
  obtain ⟨hw, hnode⟩ := h
  simp only [width] at hw hnode
  -- the children of each node above are equal in the two trees
  have hchild : ∀ i, 2 * i < width leaves.length j →
      node H leaves dflt j (2 * i) = node H leaves' dflt j (2 * i) ∧
      (if 2 * i + 1 < width leaves.length j then node H leaves dflt j (2 * i + 1)
        else node H leaves dflt j (2 * i)) =
      (if 2 * i + 1 < width leaves'.length j then node H leaves' dflt j (2 * i + 1)
        else node H leaves' dflt j (2 * i)) := by
    intro i hi
    have := hnode i (by omega)
    rw [node, node] at this
    exact hinj _ _ _ _ this
  by_cases hwj : width leaves.length j = width leaves'.length j
  · left
    refine ⟨hwj, fun k hk => ?_⟩
    obtain ⟨i, rfl | rfl⟩ : ∃ i, k = 2 * i ∨ k = 2 * i + 1 := ⟨k / 2, by omega⟩
    · exact (hchild i hk).1
    · have := (hchild i (by omega)).2
      rwa [if_pos hk, if_pos (by omega)] at this
  · right
    -- the last node above has a right child in one tree only
    have hpos := @width_pos leaves.length (j + 1)
    by_cases hlt : width leaves.length j < width leaves'.length j
    · right
      have hlast := hchild ((width leaves.length j - 1) / 2) (by omega)
      rw [if_neg (by omega), if_pos (by omega)] at hlast
      refine ⟨j, (width leaves.length j - 1) / 2, by omega, ?_⟩
      exact hlast.1.symm.trans hlast.2
    · left
      have hlast := hchild ((width leaves'.length j - 1) / 2) (by omega)
      rw [if_pos (by omega), if_neg (by omega)] at hlast
      refine ⟨j, (width leaves'.length j - 1) / 2, by omega, ?_⟩
      exact hlast.1.trans hlast.2.symm

/-- Two trees of one depth with one root have equal leaves, or one of them has two equal
siblings. The induction is down the levels from the root. -/
theorem eq_or_PresentEqualPair_of_root_eq (hne : leaves ≠ []) (hne' : leaves' ≠ [])
    (hdepth : Nat.clog 2 leaves.length = Nat.clog 2 leaves'.length)
    (hroot : root H dflt leaves = root H dflt leaves') :
    leaves = leaves' ∨ PresentEqualPair H leaves dflt ∨ PresentEqualPair H leaves' dflt := by
  have hn := List.length_pos_iff.2 hne
  have hn' := List.length_pos_iff.2 hne'
  have hdown : ∀ k ≤ Nat.clog 2 leaves.length,
      LevelsAgree H leaves dflt leaves' (Nat.clog 2 leaves.length - k) ∨
        PresentEqualPair H leaves dflt ∨ PresentEqualPair H leaves' dflt := by
    intro k
    induction k with
    | zero =>
      intro _
      left
      -- the roots: one node each, the same
      refine ⟨by rw [Nat.sub_zero, width_clog hn, hdepth, width_clog hn'], fun i hi => ?_⟩
      rw [Nat.sub_zero, width_clog hn] at hi
      have hi0 : i = 0 := by omega
      subst hi0
      rw [root_eq_node H leaves dflt hne, root_eq_node H leaves' dflt hne', ← hdepth] at hroot
      rw [Nat.sub_zero]
      exact hroot
    | succ k ih =>
      intro hk
      rcases ih (by omega) with hagree | hpair
      · rw [show Nat.clog 2 leaves.length - k = Nat.clog 2 leaves.length - (k + 1) + 1 by omega]
          at hagree
        exact LevelsAgree_of_succ leaves dflt leaves' hinj hagree
      · exact Or.inr hpair
  rcases hdown (Nat.clog 2 leaves.length) (Nat.le_refl _) with hagree | hpair
  · left
    rw [Nat.sub_self] at hagree
    obtain ⟨hw, hnode⟩ := hagree
    simp only [width, node] at hw hnode
    apply List.ext_getElem hw
    intro i h1 h2
    rw [List.getElem_eq_getD dflt, List.getElem_eq_getD dflt]
    exact hnode i h1
  · exact Or.inr hpair

end Roots

end MerkleTree
