import Ravencoin.VersionBits.Basic
import Ravencoin.Assets.Transactions

/-!
# Skip pointers of the block index (`chain.cpp`)

Every block index entry has, besides its parent, a skip pointer `pskip` to an earlier ancestor,
set by `BuildSkip` when the block is added: the ancestor of the parent at `GetSkipHeight` of the
block's height, a height found by clearing low set bits. `GetAncestor` walks back from a block,
following the skip pointer when it does not jump below the target height and is not beaten by
the parent's own skip pointer, and the parent link otherwise.

This module models the skip heights, `GetAncestor` with its walk and `BuildSkip`, and proves
that in a block index whose skip pointers `BuildSkip` set, `GetAncestor` returns exactly the
block the walk along parent links of `Ravencoin.BlockTree` reaches: the skip pointers only
shorten the walk.

## Main definitions

* `Ravencoin.InvertLowestOne`, `Ravencoin.GetSkipHeight`.
* `Ravencoin.SkipTree` — the block index with skip pointers.
* `Ravencoin.SkipTree.SkipWalk`, `Ravencoin.SkipTree.GetAncestor`, `Ravencoin.SkipTree.BuildSkip`.
* `Ravencoin.SkipTree.SkipsBuilt` — every skip pointer is what `BuildSkip` sets.

## Main results

* `Ravencoin.GetSkipHeight_lt` — a skip goes strictly back.
* `Ravencoin.SkipTree.SkipWalk_spec` — the walk reaches the ancestor along parent links when the
  skip pointers it meets point at the right ancestors.
* `Ravencoin.SkipTree.SkipOk_of_SkipsBuilt` — `BuildSkip` sets every skip pointer right.
* `Ravencoin.SkipTree.GetAncestor_follows_pprev` — `GetAncestor` with skip pointers is
  `BlockTree.GetAncestor`.

## Implementation notes

Heights are natural numbers, as in `Ravencoin.BlockTree`; the one comparison of the walk whose
`int` arithmetic can go below zero (`heightSkipPrev < heightSkip - 2`) is made on `Int`. The
walk is defined by well-founded recursion on `heightWalk`, which every step lowers, so that Lean
checks that the source's loop terminates. A failed `assert(pindexWalk->pprev)` aborts.
-/

set_option autoImplicit false

universe u

namespace Ravencoin

/-! ### Skip heights -/

/-- `InvertLowestOne`: turn the lowest `1` bit of a number into a `0`. -/
def InvertLowestOne (n : Nat) : Nat := n &&& (n - 1)

/-- `GetSkipHeight`: the height the skip pointer of a block at `height` jumps back to. -/
def GetSkipHeight (height : Nat) : Nat :=
  if height < 2 then 0
  else if height &&& 1 ≠ 0 then InvertLowestOne (InvertLowestOne (height - 1)) + 1
  else InvertLowestOne height

theorem InvertLowestOne_le (n : Nat) : InvertLowestOne n ≤ n - 1 :=
  Nat.and_le_right

theorem InvertLowestOne_le_self (n : Nat) : InvertLowestOne n ≤ n :=
  Nat.and_le_left

/-- A skip goes strictly back. -/
theorem GetSkipHeight_lt {n : Nat} (hn : 1 ≤ n) : GetSkipHeight n < n := by
  unfold GetSkipHeight
  split_ifs with hsmall hodd
  · omega
  · -- odd heights: two low bits of `n - 1` cleared, then one added back
    have h1 := InvertLowestOne_le (n - 1)
    have h2 := InvertLowestOne_le_self (InvertLowestOne (n - 1))
    omega
  · have := InvertLowestOne_le n
    omega

example : GetSkipHeight 6 = 4 ∧ GetSkipHeight 7 = 1 := by decide

/-! ### The walk -/

/-- The block index with the skip pointer of every block. -/
structure SkipTree (B : Type u) extends BlockTree B where
  pskip : B → Option B

namespace SkipTree

variable {B : Type u} (T : SkipTree B)

/-- The test of the loop of `CBlockIndex::GetAncestor(height)` at `heightWalk` for following the
skip pointer: it lands on `height`, or above it and the parent's skip pointer does not land
between `height` and two below the skip height. -/
def FollowSkip (height heightWalk : Nat) : Bool :=
  let heightSkip := GetSkipHeight heightWalk
  let heightSkipPrev := GetSkipHeight (heightWalk - 1)
  decide (heightSkip = height ∨ (heightSkip > height ∧
    ¬((heightSkipPrev : Int) < (heightSkip : Int) - 2 ∧ heightSkipPrev ≥ height)))

/-- The loop of `CBlockIndex::GetAncestor(height)` from `pindexWalk` at `heightWalk`: follow the
skip pointer when there is one and the test says so, else go to the parent. -/
def SkipWalk (height : Nat) (heightWalk : Nat) (pindexWalk : B) : Except Halt B :=
  if _hgt : heightWalk > height then
    match T.pskip pindexWalk, FollowSkip height heightWalk with
    | some pskip, true => SkipWalk height (GetSkipHeight heightWalk) pskip
    | _, _ =>
      match T.pprev pindexWalk with
      | some pprev => SkipWalk height (heightWalk - 1) pprev
      | none => .error (.abort (str "assert(pindexWalk->pprev)"))
  else .ok pindexWalk
termination_by heightWalk
decreasing_by
  · exact GetSkipHeight_lt (by omega)
  · omega

/-- `CBlockIndex::GetAncestor(height)`: the null block outside `0 .. nHeight`, else the end of
the walk. -/
def GetAncestor (b : B) (height : Int) : Except Halt (Option B) :=
  if height > T.nHeight b ∨ height < 0 then .ok none
  else some <$> T.SkipWalk height.toNat (T.nHeight b) b

/-- `CBlockIndex::BuildSkip()`: the parent's ancestor at the skip height; a block without a
parent keeps the null skip pointer it was constructed with. -/
def BuildSkip (b : B) : Except Halt (Option B) :=
  match T.pprev b with
  | some pprev => T.GetAncestor pprev (GetSkipHeight (T.nHeight b))
  | none => .ok none

/-- Every skip pointer is the one `BuildSkip` sets. -/
def SkipsBuilt : Prop := ∀ b, T.BuildSkip b = .ok (T.pskip b)

/-- The skip pointer of `b` points at its ancestor at the skip height, found along parent
links. -/
def SkipOk (b : B) : Prop :=
  T.pskip b = (T.pprev b).bind fun p => T.toBlockTree.GetAncestor p (GetSkipHeight (T.nHeight b))

/-! ### One lemma per branch of the walk -/

theorem FollowSkip_ge {height heightWalk : Nat} (h : FollowSkip height heightWalk = true) :
    height ≤ GetSkipHeight heightWalk := by
  unfold FollowSkip at h
  have := of_decide_eq_true h
  omega

/-- At or below the target height the walk stops where it is. -/
theorem SkipWalk_stop {height heightWalk : Nat} (w : B) (hle : ¬heightWalk > height) :
    T.SkipWalk height heightWalk w = .ok w := by
  rw [SkipWalk.eq_def, dif_neg hle]

/-- The skip step. -/
theorem SkipWalk_skip {height heightWalk : Nat} {w s : B} (hgt : heightWalk > height)
    (hs : T.pskip w = some s) (hf : FollowSkip height heightWalk = true) :
    T.SkipWalk height heightWalk w = T.SkipWalk height (GetSkipHeight heightWalk) s := by
  rw [SkipWalk.eq_def, dif_pos hgt]
  simp only [hs, hf]

/-- The parent step, taken when there is no skip pointer or the test refuses it. -/
theorem SkipWalk_prev {height heightWalk : Nat} {w p : B} (hgt : heightWalk > height)
    (hno : ∀ s, T.pskip w = some s → FollowSkip height heightWalk = false)
    (hp : T.pprev w = some p) :
    T.SkipWalk height heightWalk w = T.SkipWalk height (heightWalk - 1) p := by
  rw [SkipWalk.eq_def, dif_pos hgt]
  cases hs : T.pskip w with
  | none => simp only [hp]
  | some s => simp only [hno s hs, hp]

/-! ### The walk reaches the ancestor along parent links -/

/-- A block above the target height has a parent, one lower. -/
theorem exists_pprev_of_pos {w : B} (hw : 0 < T.nHeight w) :
    ∃ p, T.pprev w = some p ∧ T.nHeight p + 1 = T.nHeight w := by
  cases hp : T.pprev w with
  | none =>
    have := T.height_root w hp
    omega
  | some p => exact ⟨p, rfl, (T.height_pprev w p hp).symm⟩

/-- Under a right skip pointer, the skip lands on the ancestor at the skip height. -/
theorem pskip_ancestor {w s : B} (hok : T.SkipOk w) (hs : T.pskip w = some s)
    (hw : 0 < T.nHeight w) :
    T.toBlockTree.AncestorAt (T.nHeight w - GetSkipHeight (T.nHeight w)) w = some s ∧
      T.nHeight s = GetSkipHeight (T.nHeight w) := by
  obtain ⟨p, hp, hph⟩ := T.exists_pprev_of_pos hw
  have hlt := GetSkipHeight_lt hw
  unfold SkipOk at hok
  rw [hp, Option.bind_some, hs] at hok
  -- the skip pointer is the ancestor of the parent at the skip height
  have hanc : T.toBlockTree.AncestorAt (T.nHeight p - GetSkipHeight (T.nHeight w)) p = some s := by
    unfold BlockTree.GetAncestor at hok
    rw [if_neg (by omega)] at hok
    simpa using hok.symm
  refine ⟨?_, ?_⟩
  · have hsteps : T.nHeight w - GetSkipHeight (T.nHeight w) =
        (T.nHeight p - GetSkipHeight (T.nHeight w)) + 1 := by omega
    rw [hsteps, BlockTree.AncestorAt, hp, Option.bind_some]
    exact hanc
  · have := T.toBlockTree.AncestorAt_height hanc
    omega

/-- The parent step of the walk, from the walk one lower. -/
theorem SkipWalk_prev_spec {height n : Nat} {w : B}
    (IH : ∀ m < n, ∀ (w : B), T.nHeight w = m → height ≤ m → (∀ w', T.nHeight w' ≤ m → T.SkipOk w') →
      ∃ a, T.SkipWalk height m w = .ok a ∧ T.toBlockTree.AncestorAt (m - height) w = some a)
    (hgt : n > height) (hwn : T.nHeight w = n) (hok : ∀ w', T.nHeight w' ≤ n → T.SkipOk w')
    (hno : ∀ s, T.pskip w = some s → FollowSkip height n = false) :
    ∃ a, T.SkipWalk height n w = .ok a ∧ T.toBlockTree.AncestorAt (n - height) w = some a := by
  obtain ⟨p, hp, hph⟩ := T.exists_pprev_of_pos (show 0 < T.nHeight w by omega)
  obtain ⟨a, ha, hanc⟩ := IH (n - 1) (by omega) p (by omega) (by omega)
    (fun w' hw' => hok w' (by omega))
  refine ⟨a, by rw [T.SkipWalk_prev hgt hno hp]; exact ha, ?_⟩
  rw [show n - height = (n - 1 - height) + 1 by omega, BlockTree.AncestorAt, hp, Option.bind_some]
  exact hanc

/-- The walk from `pindexWalk` at its own height ends at its ancestor at `height`, when every
skip pointer at or below that height is right. The induction is on `heightWalk`, which every
step lowers. -/
theorem SkipWalk_spec (height : Nat) :
    ∀ (heightWalk : Nat) (w : B), T.nHeight w = heightWalk → height ≤ heightWalk →
      (∀ w', T.nHeight w' ≤ heightWalk → T.SkipOk w') →
      ∃ a, T.SkipWalk height heightWalk w = .ok a ∧
        T.toBlockTree.AncestorAt (heightWalk - height) w = some a := by
  intro heightWalk
  induction heightWalk using Nat.strong_induction_on with
  | _ n IH =>
  intro w hwn hle hok
  by_cases hgt : n > height
  · have hpos : 0 < T.nHeight w := by omega
    cases hs : T.pskip w with
    | some s =>
      cases hf : FollowSkip height n with
      | true =>
        -- the skip pointer is followed: it lands at the skip height, still at or above `height`
        obtain ⟨hsanc, hsh⟩ := T.pskip_ancestor (hok w hwn.le) hs hpos
        rw [hwn] at hsanc hsh
        have hlt := GetSkipHeight_lt (show 1 ≤ n by omega)
        have hge := FollowSkip_ge hf
        obtain ⟨a, ha, hanc⟩ := IH (GetSkipHeight n) hlt s hsh hge
          (fun w' hw' => hok w' (by omega))
        refine ⟨a, by rw [T.SkipWalk_skip hgt hs hf]; exact ha, ?_⟩
        rw [show n - height = (GetSkipHeight n - height) + (n - GetSkipHeight n) by omega,
          BlockTree.AncestorAt_add, hsanc, Option.bind_some]
        exact hanc
      | false => exact T.SkipWalk_prev_spec IH hgt hwn hok (fun s' hs' => hf)
    | none => exact T.SkipWalk_prev_spec IH hgt hwn hok (fun s' hs' => by cases hs.symm.trans hs')
  · refine ⟨w, T.SkipWalk_stop w hgt, ?_⟩
    rw [show n - height = 0 by omega]
    rfl

/-- `BuildSkip` sets every skip pointer right. The induction is on the height: the skip pointer
of a block is set by a walk from its parent, which meets only lower blocks. -/
theorem SkipOk_of_SkipsBuilt (hbuilt : T.SkipsBuilt) : ∀ b, T.SkipOk b := by
  suffices h : ∀ n b, T.nHeight b = n → T.SkipOk b from fun b => h _ b rfl
  intro n
  induction n using Nat.strong_induction_on with
  | _ n IH =>
  intro b hbn
  have hb := hbuilt b
  unfold BuildSkip at hb
  unfold SkipOk
  cases hp : T.pprev b with
  | none =>
    rw [hp] at hb
    simp only [Except.ok.injEq] at hb
    simp only [← hb, Option.bind_none]
  | some p =>
    rw [hp] at hb
    dsimp only at hb
    unfold GetAncestor at hb
    have hph := T.height_pprev b p hp
    have hlt := GetSkipHeight_lt (show 1 ≤ T.nHeight b by omega)
    have hin : ¬((GetSkipHeight (T.nHeight b) : Int) > T.nHeight p ∨
        (GetSkipHeight (T.nHeight b) : Int) < 0) := by omega
    -- the walk from the parent meets blocks below `b` only
    obtain ⟨a, ha, hanc⟩ := T.SkipWalk_spec (GetSkipHeight (T.nHeight b)) (T.nHeight p) p rfl
      (by omega) (fun w' hw' => IH (T.nHeight w') (by omega) w' rfl)
    rw [if_neg hin, Int.toNat_natCast, ha] at hb
    have hskip : T.pskip b = some a := by
      simpa using hb.symm
    rw [hskip, Option.bind_some]
    unfold BlockTree.GetAncestor
    rw [if_neg hin, Int.toNat_natCast, hanc]

/-- Conversely, right skip pointers are the ones `BuildSkip` sets. -/
theorem SkipsBuilt_of_SkipOk (hok : ∀ b, T.SkipOk b) : T.SkipsBuilt := by
  intro b
  have hb := hok b
  unfold SkipOk at hb
  unfold BuildSkip
  cases hp : T.pprev b with
  | none =>
    rw [hp, Option.bind_none] at hb
    rw [hb]
  | some p =>
    rw [hp, Option.bind_some] at hb
    dsimp only
    have hph := T.height_pprev b p hp
    have hlt := GetSkipHeight_lt (show 1 ≤ T.nHeight b by omega)
    have hin : ¬((GetSkipHeight (T.nHeight b) : Int) > T.nHeight p ∨
        (GetSkipHeight (T.nHeight b) : Int) < 0) := by omega
    obtain ⟨a, ha, hanc⟩ := T.SkipWalk_spec (GetSkipHeight (T.nHeight b)) (T.nHeight p) p rfl
      (by omega) (fun w' _ => hok w')
    unfold GetAncestor
    rw [if_neg hin, Int.toNat_natCast, ha, hb]
    unfold BlockTree.GetAncestor
    rw [if_neg hin, Int.toNat_natCast, hanc]
    rfl

end SkipTree

/-- In a block index whose skip pointers `BuildSkip` set, a skip goes strictly back, and
`GetAncestor` returns the ancestor along parent links, or the null block outside `0 .. nHeight`:
it never aborts. -/
theorem SkipTree.GetAncestor_follows_pprev {B : Type u} (T : SkipTree B) (hbuilt : T.SkipsBuilt) :
    (∀ n, 1 ≤ n → GetSkipHeight n < n) ∧
      ∀ (b : B) (height : Int), T.GetAncestor b height = .ok (T.toBlockTree.GetAncestor b height) := by
  refine ⟨fun n hn => GetSkipHeight_lt hn, fun b height => ?_⟩
  have hok := T.SkipOk_of_SkipsBuilt hbuilt
  unfold SkipTree.GetAncestor BlockTree.GetAncestor
  split_ifs with hout
  · rfl
  · obtain ⟨a, ha, hanc⟩ := T.SkipWalk_spec height.toNat (T.nHeight b) b rfl (by omega)
      (fun w' _ => hok w')
    rw [ha, hanc]
    rfl

/-- The chain of heights `0, 1, 2, …`, each block named by its height, with every skip pointer
at the skip height. -/
def HeightChain : SkipTree Nat where
  pprev n := if n = 0 then none else some (n - 1)
  nHeight n := n
  nTime _ := 0
  nVersion _ := 0
  height_pprev b b' h := by
    split_ifs at h with hb
    cases h
    omega
  height_root b h := by
    split_ifs at h with hb
    exact hb
  pskip n := if n = 0 then none else some (GetSkipHeight n)

theorem HeightChain_AncestorAt : ∀ (k n : Nat), k ≤ n →
    HeightChain.toBlockTree.AncestorAt k n = some (n - k)
  | 0, n, _ => rfl
  | k + 1, n, hk => by
    have hn : n ≠ 0 := by omega
    show (if n = 0 then none else some (n - 1)).bind _ = _
    rw [if_neg hn, Option.bind_some, HeightChain_AncestorAt k (n - 1) (by omega)]
    congr 1
    omega

theorem HeightChain_SkipOk (n : Nat) : HeightChain.SkipOk n := by
  unfold SkipTree.SkipOk
  show (if n = 0 then none else some (GetSkipHeight n)) =
    (if n = 0 then none else some (n - 1)).bind fun p =>
      HeightChain.toBlockTree.GetAncestor p (GetSkipHeight n)
  by_cases hn : n = 0
  · rw [if_pos hn, if_pos hn]
    rfl
  · rw [if_neg hn, if_neg hn, Option.bind_some]
    have hlt := GetSkipHeight_lt (show 1 ≤ n by omega)
    unfold BlockTree.GetAncestor
    -- the heights of this chain are the blocks themselves
    show some (GetSkipHeight n) =
      if (GetSkipHeight n : Int) > (n - 1 : Nat) ∨ (GetSkipHeight n : Int) < 0 then none
      else HeightChain.toBlockTree.AncestorAt ((n - 1) - (GetSkipHeight n : Int).toNat) (n - 1)
    rw [if_neg (by omega), Int.toNat_natCast,
      HeightChain_AncestorAt _ _ (show n - 1 - GetSkipHeight n ≤ n - 1 by omega)]
    congr 1
    omega

theorem GetAncestor_follows_pprev_HeightChain :
    HeightChain.SkipsBuilt ∧ (∀ n, 1 ≤ n → GetSkipHeight n < n) ∧
      ∀ (b : Nat) (height : Int),
        HeightChain.GetAncestor b height = .ok (HeightChain.toBlockTree.GetAncestor b height) :=
  have hbuilt := HeightChain.SkipsBuilt_of_SkipOk HeightChain_SkipOk
  ⟨hbuilt, SkipTree.GetAncestor_follows_pprev HeightChain hbuilt⟩

end Ravencoin
