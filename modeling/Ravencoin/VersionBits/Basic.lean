import Mathlib.Data.List.Sort
import Ravencoin.Lib.Memo

/-!
# Version bits: the block index and the threshold state machine

BIP9-style deployments are tracked per retarget period: the state of every block of a period is
computed at the last block of the period before, from the state of the period before that, the
median time past of that block, and how many blocks of the period signalled. This module models
the block index (`CBlockIndex` with its parent link, height, time and version), the ancestor
and median-time queries the state machine reads, and `AbstractThresholdConditionChecker` with
`GetStateFor`, `GetStateSinceHeightFor` and `GetStateStatisticsFor`, whose cache is a map from
period-ending blocks (or the null block) to states.

## Main definitions

* `BlockTree` — the block index: parent links whose heights go down by one.
* `BlockTree.GetAncestor`, `BlockTree.GetMedianTimePast`.
* `ThresholdState`, `AbstractThresholdConditionChecker`.
* `AbstractThresholdConditionChecker.StateNext` — the transition of one period (the switch of
  `GetStateFor`).
* `AbstractThresholdConditionChecker.GetStateFor` — the cached walk back and forward, as an
  instance of `Memo.WalkBack` and `Memo.WalkForward`.
* `AbstractThresholdConditionChecker.GetStateSinceHeightFor`.
* `VersionBitsConditionChecker` — the checker of one deployment.

## Main results

* `BlockTree.AncestorAt_add`, `BlockTree.GetAncestor_GetAncestor` — ancestors of ancestors.
* `BlockTree.GetAncestor_height`, `BlockTree.GetAncestor_pred_exists` — what `GetAncestor`
  returns.
* `BlockTree.GetMedianTimePast_ancestor_le` — median time past is monotone along a chain when it
  is along parent links.

## Implementation notes

`GetAncestor` follows parent links; the source also follows skip pointers, which only shorten
the walk to the same block (`Ravencoin.SkipTree.GetAncestor_follows_pprev`). `Period` and `Threshold` are natural numbers, as the deployment
parameters they read are unsigned. The source's loops over the parent chain run on fuel, and the
fuel given is enough (`Ravencoin.VersionBits.Refinement`).
-/

set_option autoImplicit false

universe u

namespace Ravencoin

/-! ### The block index -/

/-- The block index: each block's parent, height, time and version. Heights go down by one along
parent links and a block without a parent is at height `0`. -/
structure BlockTree (B : Type u) where
  pprev : B → Option B
  nHeight : B → Nat
  nTime : B → Int
  nVersion : B → UInt32
  height_pprev : ∀ b b', pprev b = some b' → nHeight b = nHeight b' + 1
  height_root : ∀ b, pprev b = none → nHeight b = 0

namespace BlockTree

variable {B : Type u} (T : BlockTree B)

/-- The block `n` parent links back from `b`. -/
def AncestorAt : Nat → B → Option B
  | 0, b => some b
  | n + 1, b => (T.pprev b).bind (AncestorAt n)

/-- The ancestor of `b` at height `height`, or the null block when there is none. -/
def GetAncestor (b : B) (height : Int) : Option B :=
  if height > T.nHeight b ∨ height < 0 then none
  else T.AncestorAt (T.nHeight b - height.toNat) b

/-- `nMedianTimeSpan`: how many blocks the median time past looks at. -/
def nMedianTimeSpan : Nat := 11

/-- The times of up to `n` blocks, from `pindex` back along parent links. -/
def BlockTimes : Nat → Option B → List Int
  | 0, _ => []
  | _ + 1, none => []
  | n + 1, some b => T.nTime b :: BlockTimes n (T.pprev b)

/-- The median of the times of the last `nMedianTimeSpan` blocks up to `b`. -/
def GetMedianTimePast (b : B) : Int :=
  -- the source fills its array from the end backwards, then sorts it
  let pmedian := (T.BlockTimes nMedianTimeSpan (some b)).reverse.insertionSort (· ≤ ·)
  pmedian.getD (pmedian.length / 2) 0

/-- The median time past never decreases from a block's parent to the block. -/
def MedianTimeMonotone : Prop :=
  ∀ b b', T.pprev b = some b' → T.GetMedianTimePast b' ≤ T.GetMedianTimePast b

/-- The fuel of the walks back of the state machine: one more than the steps from `pindexPrev`
back to the null block. -/
def WalkFuel (pindexPrev : Option B) : Nat :=
  (pindexPrev.elim 0 fun b => T.nHeight b + 1) + 1

/-! ### Ancestors -/

theorem AncestorAt_height {n : Nat} {b a : B} (h : T.AncestorAt n b = some a) :
    T.nHeight a + n = T.nHeight b := by
  induction n generalizing b with
  | zero =>
    simp only [AncestorAt, Option.some.injEq] at h
    subst h
    rfl
  | succ n ih =>
    simp only [AncestorAt] at h
    obtain ⟨b', hb', ha⟩ := Option.bind_eq_some_iff.1 h
    have := T.height_pprev b b' hb'
    have := ih ha
    omega

theorem AncestorAt_isSome {n : Nat} {b : B} (h : n ≤ T.nHeight b) :
    (T.AncestorAt n b).isSome := by
  induction n generalizing b with
  | zero => rfl
  | succ n ih =>
    simp only [AncestorAt]
    -- a block above height `0` has a parent, one lower
    cases hb : T.pprev b with
    | none =>
      have := T.height_root b hb
      omega
    | some b' =>
      have := T.height_pprev b b' hb
      exact ih (by omega)

/-- Walking back `n + m` links is walking back `m` links and then `n`. -/
theorem AncestorAt_add (n m : Nat) (b : B) :
    T.AncestorAt (n + m) b = (T.AncestorAt m b).bind (T.AncestorAt n) := by
  induction m generalizing b with
  | zero => rfl
  | succ m ih =>
    rw [← Nat.add_assoc, AncestorAt, AncestorAt, Option.bind_assoc]
    simp only [ih]

theorem GetAncestor_eq_none_iff {b : B} {height : Int} :
    T.GetAncestor b height = none ↔ height > T.nHeight b ∨ height < 0 := by
  unfold GetAncestor
  split_ifs with h
  · simp [h]
  · have : (T.AncestorAt (T.nHeight b - height.toNat) b).isSome := T.AncestorAt_isSome (by omega)
    simp only [h, iff_false]
    exact Option.ne_none_iff_isSome.2 this

theorem GetAncestor_isSome {b : B} {height : Int} (h0 : 0 ≤ height)
    (hh : height ≤ T.nHeight b) : (T.GetAncestor b height).isSome := by
  rw [← Option.ne_none_iff_isSome, Ne, GetAncestor_eq_none_iff]
  omega

theorem GetAncestor_height {b a : B} {height : Int} (h : T.GetAncestor b height = some a) :
    (T.nHeight a : Int) = height := by
  unfold GetAncestor at h
  split_ifs at h with hh
  have := T.AncestorAt_height h
  omega

theorem GetAncestor_height_le {b a : B} {height : Int} (h : T.GetAncestor b height = some a) :
    T.nHeight a ≤ T.nHeight b := by
  unfold GetAncestor at h
  split_ifs at h
  have := T.AncestorAt_height h
  omega

/-- The ancestor at height `y` of the ancestor at height `x ≥ y` is the ancestor at height
`y`. -/
theorem GetAncestor_GetAncestor {b a : B} {x y : Int} (h : T.GetAncestor b x = some a)
    (hyx : y ≤ x) : T.GetAncestor a y = T.GetAncestor b y := by
  have hxa := T.GetAncestor_height h
  unfold GetAncestor at h ⊢
  split_ifs at h ⊢ with h1 h2 h3 <;> try omega
  · rfl
  · -- both walks reach height `y`: first down to `x`, then from `x` down to `y`
    have hsplit : T.nHeight b - y.toNat = (T.nHeight a - y.toNat) + (T.nHeight b - x.toNat) := by
      omega
    rw [hsplit, AncestorAt_add, h]
    rfl

/-- Below height `0` there is only the null block. -/
theorem GetAncestor_neg_one (b : B) : T.GetAncestor b (((0 : Nat) : Int) - 1) = none := by
  rw [GetAncestor_eq_none_iff]
  omega

/-- A chain has a block at every height from `0` to its top. -/
theorem GetAncestor_pred_exists (b : B) {N : Nat} (h1 : 1 ≤ N) (hN : N ≤ T.nHeight b + 1) :
    ∃ q, T.GetAncestor b ((N : Int) - 1) = some q ∧ T.nHeight q + 1 = N := by
  have hs : (T.GetAncestor b ((N : Int) - 1)).isSome := T.GetAncestor_isSome (by omega) (by omega)
  obtain ⟨q, hq⟩ := Option.isSome_iff_exists.1 hs
  have := T.GetAncestor_height hq
  exact ⟨q, hq, by omega⟩

/-! ### Median time past -/

section Monotone

variable {T}

/-- Median time past is monotone along a chain when it is along parent links. -/
theorem GetMedianTimePast_ancestor_le (hmono : T.MedianTimeMonotone) {n : Nat} {b a : B}
    (h : T.AncestorAt n b = some a) : T.GetMedianTimePast a ≤ T.GetMedianTimePast b := by
  induction n generalizing b with
  | zero =>
    simp only [AncestorAt, Option.some.injEq] at h
    subst h
    exact le_rfl
  | succ n ih =>
    simp only [AncestorAt] at h
    obtain ⟨b', hb', ha⟩ := Option.bind_eq_some_iff.1 h
    exact (ih ha).trans (hmono b b' hb')

theorem GetMedianTimePast_GetAncestor_le (hmono : T.MedianTimeMonotone) {b a : B}
    {height : Int} (h : T.GetAncestor b height = some a) :
    T.GetMedianTimePast a ≤ T.GetMedianTimePast b := by
  unfold GetAncestor at h
  split_ifs at h
  exact GetMedianTimePast_ancestor_le hmono h

end Monotone

end BlockTree

/-! ### The threshold state machine -/

/-- `ThresholdState`: the states of a deployment. -/
inductive ThresholdState
  | THRESHOLD_DEFINED
  | THRESHOLD_STARTED
  | THRESHOLD_LOCKED_IN
  | THRESHOLD_ACTIVE
  | THRESHOLD_FAILED
  deriving DecidableEq, Repr

open ThresholdState

/-- `ThresholdConditionCache`: states by the block before the period they hold for, the null
block included. -/
abbrev ThresholdConditionCache (B : Type u) := Memo.Cache B ThresholdState

/-- `AbstractThresholdConditionChecker`: what a deployment supplies, the consensus parameters
applied. -/
structure AbstractThresholdConditionChecker (B : Type u) where
  Condition : B → Bool
  BeginTime : Int
  EndTime : Int
  Period : Nat
  Threshold : Nat

namespace AbstractThresholdConditionChecker

variable {B : Type u} (checker : AbstractThresholdConditionChecker B) (T : BlockTree B)

/-- How many of `n` blocks, from `pindexCount` back, meet the condition. -/
def CountSignals : Nat → Option B → Nat
  | 0, _ => 0
  | _ + 1, none => 0
  | n + 1, some b => (if checker.Condition b then 1 else 0) + CountSignals n (T.pprev b)

/-- The state of the period after `pindexPrev`, from the state of the period that
`pindexPrev` ends (the switch of the walk forward of `GetStateFor`). -/
def StateNext (state : ThresholdState) (pindexPrev : B) : ThresholdState :=
  match state with
  | THRESHOLD_DEFINED =>
    if T.GetMedianTimePast pindexPrev ≥ checker.EndTime then THRESHOLD_FAILED
    else if T.GetMedianTimePast pindexPrev ≥ checker.BeginTime then THRESHOLD_STARTED
    else THRESHOLD_DEFINED
  | THRESHOLD_STARTED =>
    if T.GetMedianTimePast pindexPrev ≥ checker.EndTime then THRESHOLD_FAILED
    -- count the signalling blocks of the period `pindexPrev` ends
    else if checker.CountSignals T checker.Period (some pindexPrev) ≥ checker.Threshold then
      THRESHOLD_LOCKED_IN
    else THRESHOLD_STARTED
  -- always progresses into ACTIVE
  | THRESHOLD_LOCKED_IN => THRESHOLD_ACTIVE
  -- terminal states
  | THRESHOLD_FAILED => THRESHOLD_FAILED
  | THRESHOLD_ACTIVE => THRESHOLD_ACTIVE

/-- The last block of the period before the one `pindexPrev`'s child is in: the block whose
state stands for every block of that period. -/
def PeriodParent (pindexPrev : Option B) : Option B :=
  pindexPrev.bind fun b =>
    T.GetAncestor b ((T.nHeight b : Int) - ((T.nHeight b + 1) % checker.Period : Nat))

/-- The last block of the period before the one `pindexPrev` ends. -/
def PreviousPeriodParent (pindexPrev : B) : Option B :=
  T.GetAncestor pindexPrev ((T.nHeight pindexPrev : Int) - checker.Period)

/-- Where the walk back of `GetStateFor` may stop without a cached state: every block whose
median time past is before the start time is in state DEFINED. -/
def StartShortcut (pindexPrev : B) : Option ThresholdState :=
  if T.GetMedianTimePast pindexPrev < checker.BeginTime then some THRESHOLD_DEFINED else none

/-- `BIP9Stats`: the signalling statistics of the current period. -/
structure BIP9Stats where
  period : Int
  threshold : Int
  elapsed : Int
  count : Int
  possible : Bool
  deriving DecidableEq, Repr

/-- `GetStateStatisticsFor`: how many blocks of `pindex`'s period, up to `pindex`, signal, and
whether the threshold can still be reached. `none` stands for the null dereference of the source
when `pindex` is in the first period, where the end of the previous period is the null block. -/
def GetStateStatisticsFor (pindex : Option B) : Option BIP9Stats :=
  let stats : BIP9Stats :=
    ⟨checker.Period, checker.Threshold, 0, 0, false⟩
  match pindex with
  | none => some stats
  | some pindex =>
    -- find the beginning of the period
    match checker.PeriodParent T (some pindex) with
    | none => none
    | some pindexEndOfPrevPeriod =>
      let elapsed := T.nHeight pindex - T.nHeight pindexEndOfPrevPeriod
      -- the loop of the source counts from `pindex` back to the end of the previous period,
      -- `elapsed` blocks
      let count := checker.CountSignals T elapsed (some pindex)
      some { stats with
        elapsed := elapsed
        count := count
        possible := decide ((checker.Period : Int) - checker.Threshold ≥ (elapsed : Int) - count) }

variable [DecidableEq B]

/-- `GetStateFor`: the state of the block after `pindexPrev`. Walk back in steps of a period
from the end of the period before to a block whose state is cached, the null block (DEFINED by
definition) or a block before the start time (DEFINED, cached); then walk forward, computing and
caching the state of each block passed. -/
def GetStateFor (pindexPrev : Option B) (cache : ThresholdConditionCache B) :
    ThresholdState × ThresholdConditionCache B :=
  let fuel := T.WalkFuel pindexPrev
  let pindexPrev := checker.PeriodParent T pindexPrev
  let (pindexPrev, cache, vToCompute) :=
    Memo.WalkBack (checker.PreviousPeriodParent T) THRESHOLD_DEFINED (checker.StartShortcut T)
      fuel pindexPrev cache []
  -- at this point the state of `pindexPrev` is cached
  Memo.WalkForward (checker.StateNext T) vToCompute
    ((cache.lookup pindexPrev).getD THRESHOLD_DEFINED) cache

/-- `GetStateFor` is the library's cached computation. -/
theorem GetStateFor_eq_Run (pindexPrev : Option B) (cache : ThresholdConditionCache B) :
    checker.GetStateFor T pindexPrev cache =
      Memo.Run (checker.PreviousPeriodParent T) THRESHOLD_DEFINED (checker.StartShortcut T)
        (checker.StateNext T) (T.WalkFuel pindexPrev) (checker.PeriodParent T pindexPrev)
        cache := rfl

/-- The loop of `GetStateSinceHeightFor`: step back a period while the period before has the
same state. -/
def SinceLoop (initialState : ThresholdState) :
    Nat → B → Option B → ThresholdConditionCache B → B × ThresholdConditionCache B
  | 0, pindexPrev, _, cache => (pindexPrev, cache)
  | _ + 1, pindexPrev, none, cache => (pindexPrev, cache)
  | fuel + 1, pindexPrev, some previousPeriodParent, cache =>
    let (state, cache) := checker.GetStateFor T (some previousPeriodParent) cache
    if state = initialState then
      SinceLoop initialState fuel previousPeriodParent
        (checker.PreviousPeriodParent T previousPeriodParent) cache
    else (pindexPrev, cache)

/-- `GetStateSinceHeightFor`: the first height of the run of periods, ending at the one of
`pindexPrev`'s child, that share its state. `none` stands for the null dereference of the
source, which the state DEFINED of the null block keeps from happening. -/
def GetStateSinceHeightFor (pindexPrev : Option B) (cache : ThresholdConditionCache B) :
    Option Nat × ThresholdConditionCache B :=
  let (initialState, cache) := checker.GetStateFor T pindexPrev cache
  -- the genesis block is by definition in state DEFINED
  if initialState = THRESHOLD_DEFINED then (some 0, cache)
  else
    match checker.PeriodParent T pindexPrev with
    | none => (none, cache)
    | some pindexPrev =>
      let (pindexPrev, cache) :=
        checker.SinceLoop T initialState (T.nHeight pindexPrev + 1) pindexPrev
          (checker.PreviousPeriodParent T pindexPrev) cache
      -- adjust the result, which points to the parent block
      (some (T.nHeight pindexPrev + 1), cache)

end AbstractThresholdConditionChecker

/-! ### The version bits deployments -/

/-- `BIP9Deployment`: the bit a deployment signals on and its start and timeout times. -/
structure BIP9Deployment where
  bit : Nat
  nStartTime : Int
  nTimeout : Int

/-- `VERSIONBITS_TOP_BITS`. -/
def VERSIONBITS_TOP_BITS : UInt32 := 0x20000000

/-- `VERSIONBITS_TOP_MASK`. -/
def VERSIONBITS_TOP_MASK : UInt32 := 0xE0000000

/-- The mask of a deployment's bit. -/
def BIP9Deployment.Mask (d : BIP9Deployment) : UInt32 := (1 : UInt32) <<< d.bit.toUInt32

/-- `VersionBitsConditionChecker`: the checker of a deployment, with the consensus parameters
`nRuleChangeActivationThreshold` and `nMinerConfirmationWindow`. -/
def VersionBitsConditionChecker {B : Type u} (T : BlockTree B) (d : BIP9Deployment)
    (nRuleChangeActivationThreshold nMinerConfirmationWindow : Nat) :
    AbstractThresholdConditionChecker B where
  Condition pindex :=
    (T.nVersion pindex &&& VERSIONBITS_TOP_MASK) == VERSIONBITS_TOP_BITS &&
      (T.nVersion pindex &&& d.Mask) != 0
  BeginTime := d.nStartTime
  EndTime := d.nTimeout
  Period := nMinerConfirmationWindow
  Threshold := nRuleChangeActivationThreshold

end Ravencoin
