import Mathlib.Logic.Relation
import Ravencoin.VersionBits.Basic

/-!
# Version bits: the cached state machine refines the recursion over periods

BIP9 defines the state of each period of a chain by recursion from genesis: the state of the
first period is DEFINED and each later one follows from the one before by the transition
`StateNext`, read at the last block of the period before. `PeriodState` states that recursion
with no cache and no shortcut. `GetStateFor` computes it with a cache shared by every query and
with a shortcut: it stops walking back at the first period-ending block whose median time past is
before the start time. This module proves that the two agree for every cache filled by earlier
queries, when the start time is not after the timeout and median time past does not decrease
along the chain, that states along a chain only move forward, and that
`GetStateSinceHeightFor` returns where the run of periods sharing a state begins.

When the timeout is before the start time the shortcut is wrong: a block whose median time past
is between the two is DEFINED by the shortcut and FAILED by the recursion
(`timeout_before_start_shortcut_diverges`).

## Main definitions

* `AbstractThresholdConditionChecker.PeriodForest` — blocks with the previous period's last block
  as predecessor.
* `AbstractThresholdConditionChecker.PeriodState` — the state of a period by recursion from
  genesis.
* `AbstractThresholdConditionChecker.Filled` — the caches earlier queries leave.
* `ThresholdState.Forward` — the order DEFINED → STARTED → {LOCKED_IN → ACTIVE | FAILED}.

## Main results

* `AbstractThresholdConditionChecker.GetStateFor_spec` — on a sound cache, `GetStateFor` returns
  the recursion's state and leaves a sound cache.
* `AbstractThresholdConditionChecker.SinceLoop_spec` — the loop of `GetStateSinceHeightFor`
  stops at the first period of the run.
* `GetStateFor_matches_period_recursion` — the three results together, over filled caches.

## Implementation notes

The recursion of `Memo.Forest.Ref` over `PeriodForest` is the link between the two: the cached
walk computes it (`Memo.Forest.Run_spec`), and at the block ending period `i` of a chain it is
`PeriodState` of `i` (`Ref_GetAncestor_period`).
-/

set_option autoImplicit false

universe u

namespace Ravencoin

open ThresholdState

/-! ### The order of states -/

namespace ThresholdState

/-- One move of a deployment's state. -/
inductive Advance : ThresholdState → ThresholdState → Prop
  | start : Advance THRESHOLD_DEFINED THRESHOLD_STARTED
  | lock_in : Advance THRESHOLD_STARTED THRESHOLD_LOCKED_IN
  | activate : Advance THRESHOLD_LOCKED_IN THRESHOLD_ACTIVE
  | fail : Advance THRESHOLD_STARTED THRESHOLD_FAILED

/-- `Forward s t`: `t` is reached from `s` by moves along DEFINED → STARTED →
{LOCKED_IN → ACTIVE | FAILED}. -/
abbrev Forward : ThresholdState → ThresholdState → Prop := Relation.ReflTransGen Advance

/-- Nothing moves into DEFINED. -/
theorem eq_of_Forward_DEFINED {s : ThresholdState} (h : Forward s THRESHOLD_DEFINED) :
    s = THRESHOLD_DEFINED := by
  cases h with
  | refl => rfl
  | tail _ hadv => cases hadv

end ThresholdState

namespace AbstractThresholdConditionChecker

variable {B : Type u} (checker : AbstractThresholdConditionChecker B) (T : BlockTree B)

/-- The transition of one period moves forward. -/
theorem StateNext_Forward (s : ThresholdState) (q : B) :
    Forward s (checker.StateNext T s q) := by
  cases s <;> simp only [StateNext]
  case THRESHOLD_DEFINED =>
    split_ifs
    · exact (Relation.ReflTransGen.single .start).tail .fail
    · exact .single .start
    · exact .refl
  case THRESHOLD_STARTED =>
    split_ifs
    · exact .single .fail
    · exact .single .lock_in
    · exact .refl
  case THRESHOLD_LOCKED_IN => exact .single .activate
  all_goals exact .refl

/-- Before the start time, and so before the timeout, DEFINED stays DEFINED. -/
theorem StateNext_DEFINED_of_lt (hstart : checker.BeginTime ≤ checker.EndTime) {q : B}
    (hq : T.GetMedianTimePast q < checker.BeginTime) :
    checker.StateNext T THRESHOLD_DEFINED q = THRESHOLD_DEFINED := by
  simp only [StateNext]
  rw [if_neg (by omega), if_neg (by omega)]

/-! ### The recursion over periods -/

/-- The state of the `i`-th period of `b`'s chain, the blocks of heights `i * Period` to
`(i + 1) * Period - 1`: DEFINED for the first, and the transition read at the last block of the
period before for each later one. -/
def PeriodState (b : B) : Nat → ThresholdState
  | 0 => THRESHOLD_DEFINED
  | i + 1 =>
    match T.GetAncestor b (((i + 1) * checker.Period : Nat) - 1) with
    | some q => checker.StateNext T (PeriodState b i) q
    | none => PeriodState b i

/-- States along a chain only move forward from one period to the next. -/
theorem PeriodState_Forward_succ (b : B) (i : Nat) :
    Forward (checker.PeriodState T b i) (checker.PeriodState T b (i + 1)) := by
  simp only [PeriodState]
  split
  · exact checker.StateNext_Forward T _ _
  · exact .refl

/-- States along a chain only move forward. -/
theorem PeriodState_Forward (b : B) {i i' : Nat} (h : i ≤ i') :
    Forward (checker.PeriodState T b i) (checker.PeriodState T b i') := by
  induction i', h using Nat.le_induction with
  | base => exact .refl
  | succ i' _ ih => exact ih.trans (checker.PeriodState_Forward_succ T b i')

/-- A period in state DEFINED has only periods in state DEFINED before it. -/
theorem PeriodState_of_DEFINED (b : B) {i m : Nat} (him : i ≤ m)
    (hm : checker.PeriodState T b m = THRESHOLD_DEFINED) :
    checker.PeriodState T b i = THRESHOLD_DEFINED := by
  have h := checker.PeriodState_Forward T b him
  rw [hm] at h
  exact eq_of_Forward_DEFINED h

section Period

variable {checker} (hP : 0 < checker.Period)

theorem PreviousPeriodParent_height {b a : B} (h : checker.PreviousPeriodParent T b = some a) :
    T.nHeight a + checker.Period = T.nHeight b := by
  have := T.GetAncestor_height h
  omega

/-- Blocks with the last block of the previous period as predecessor, ranked by height. -/
def PeriodForest : Memo.Forest B where
  prev := checker.PreviousPeriodParent T
  rank := T.nHeight
  rank_prev b a h := by
    have := PreviousPeriodParent_height T h
    omega

/-- The end of the period before the one a block's child is in is at a multiple of the period,
less one. -/
theorem PeriodParent_some (b : B) :
    checker.PeriodParent T (some b) =
      T.GetAncestor b ((((T.nHeight b + 1) / checker.Period) * checker.Period : Nat) - 1) := by
  simp only [PeriodParent, Option.bind_some]
  congr 1
  have hdiv := Nat.div_add_mod (T.nHeight b + 1) checker.Period
  -- name the quotient and the remainder so that the goal is linear
  generalize (T.nHeight b + 1) / checker.Period = q at hdiv ⊢
  generalize (T.nHeight b + 1) % checker.Period = r at hdiv ⊢
  rw [Nat.mul_comm] at hdiv
  omega

/-- A block that ends a period is its own period parent. -/
theorem PeriodParent_of_boundary {b : B} (hb : (T.nHeight b + 1) % checker.Period = 0) :
    checker.PeriodParent T (some b) = some b := by
  simp only [PeriodParent, Option.bind_some, hb]
  unfold BlockTree.GetAncestor
  rw [if_neg (by omega)]
  have h0 : T.nHeight b - ((T.nHeight b : Int) - ((0 : Nat) : Int)).toNat = 0 := by omega
  rw [h0]
  rfl

/-- The block before the end of a period, one period back, ends the period before. -/
theorem PreviousPeriodParent_of_GetAncestor {b q : B} {N : Nat}
    (hq : T.GetAncestor b (((N + checker.Period : Nat) : Int) - 1) = some q) :
    checker.PreviousPeriodParent T q = T.GetAncestor b ((N : Int) - 1) := by
  have hqh := T.GetAncestor_height hq
  unfold PreviousPeriodParent
  rw [T.GetAncestor_GetAncestor hq (by omega)]
  congr 1
  omega

theorem PeriodState_succ_of_GetAncestor (b : B) {i : Nat} {q : B}
    (hq : T.GetAncestor b (((i + 1) * checker.Period : Nat) - 1) = some q) :
    checker.PeriodState T b (i + 1) = checker.StateNext T (checker.PeriodState T b i) q := by
  simp only [PeriodState, hq]

/-- The state the recursion of the forest gives at the end of the `i`-th period of a chain is
the state of the next period. -/
theorem Ref_GetAncestor_period (b : B) {i : Nat} (hi : i * checker.Period ≤ T.nHeight b + 1) :
    (PeriodForest T hP).Ref (checker.StateNext T) THRESHOLD_DEFINED
        (T.GetAncestor b ((i * checker.Period : Nat) - 1)) = checker.PeriodState T b i := by
  induction i with
  | zero =>
    rw [Nat.zero_mul, T.GetAncestor_neg_one, Memo.Forest.Ref_none]
    rfl
  | succ i ih =>
    have hsucc : (i + 1) * checker.Period = i * checker.Period + checker.Period := Nat.succ_mul _ _
    -- the end of the period is a block of the chain
    obtain ⟨q, hq, -⟩ := T.GetAncestor_pred_exists b (by omega) hi
    -- its predecessor in the forest is the end of the period before
    have hprev : (PeriodForest T hP).prev q = T.GetAncestor b ((i * checker.Period : Nat) - 1) :=
      PreviousPeriodParent_of_GetAncestor T (by rwa [← hsucc])
    rw [hq, Memo.Forest.Ref_some, hprev, ih (by omega),
      PeriodState_succ_of_GetAncestor T b hq]

/-- At the period parent of a block, the recursion of the forest gives the state of the period
of the block's child. -/
theorem Ref_PeriodParent (b : B) :
    (PeriodForest T hP).Ref (checker.StateNext T) THRESHOLD_DEFINED
        (checker.PeriodParent T (some b)) =
      checker.PeriodState T b ((T.nHeight b + 1) / checker.Period) := by
  rw [PeriodParent_some T b]
  exact Ref_GetAncestor_period T hP b (Nat.div_mul_le_self _ _)

include hP in
/-- An ancestor's chain has the same states for the periods it has. -/
theorem PeriodState_of_GetAncestor {b a : B} {x : Int} (h : T.GetAncestor b x = some a) {i : Nat}
    (hi : i * checker.Period ≤ T.nHeight a + 1) :
    checker.PeriodState T a i = checker.PeriodState T b i := by
  have hxa := T.GetAncestor_height h
  have hab := T.GetAncestor_height_le h
  rw [← Ref_GetAncestor_period T hP a hi, ← Ref_GetAncestor_period T hP b (by omega),
    T.GetAncestor_GetAncestor h (by omega)]

end Period

/-! ### The cached walk computes the recursion -/

section Cache

variable {checker} (hP : 0 < checker.Period)

/-- Every cached state is the recursion's. -/
def Sound [DecidableEq B] (cache : ThresholdConditionCache B) : Prop :=
  (PeriodForest T hP).Sound (checker.StateNext T) THRESHOLD_DEFINED cache

variable {T}
variable (hstart : checker.BeginTime ≤ checker.EndTime) (hmono : T.MedianTimeMonotone)
include hstart hmono

/-- A block whose median time past is before the start time is in state DEFINED, because every
block before it is. -/
theorem Ref_of_lt_BeginTime {b : B} (hb : T.GetMedianTimePast b < checker.BeginTime) :
    (PeriodForest T hP).Ref (checker.StateNext T) THRESHOLD_DEFINED (some b) =
      THRESHOLD_DEFINED := by
  induction hk : T.nHeight b using Nat.strong_induction_on generalizing b with
  | _ k ih =>
    rw [Memo.Forest.Ref_some]
    have hprev : (PeriodForest T hP).Ref (checker.StateNext T) THRESHOLD_DEFINED
        ((PeriodForest T hP).prev b) = THRESHOLD_DEFINED := by
      cases ha : (PeriodForest T hP).prev b with
      | none => exact Memo.Forest.Ref_none _ _ _
      | some a =>
        have hlt : T.nHeight a < k := by
          have := PreviousPeriodParent_height T ha
          omega
        have hmtp := BlockTree.GetMedianTimePast_GetAncestor_le hmono ha
        exact ih _ hlt (by omega) rfl
    rw [hprev]
    exact checker.StateNext_DEFINED_of_lt T hstart hb

/-- The shortcut of the walk back gives the recursion's state. -/
theorem StartShortcut_sound :
    (PeriodForest T hP).ShortcutSound (checker.StateNext T) THRESHOLD_DEFINED
      (checker.StartShortcut T) := by
  intro b v hv
  simp only [StartShortcut] at hv
  split_ifs at hv with hb
  cases hv
  exact (Ref_of_lt_BeginTime hP hstart hmono hb).symm

omit hstart hmono in
/-- The walk back is given enough fuel. -/
theorem Measure_PeriodParent_lt (pindexPrev : Option B) :
    (PeriodForest T hP).Measure (checker.PeriodParent T pindexPrev) < T.WalkFuel pindexPrev := by
  cases pindexPrev with
  | none => simp [PeriodParent, Memo.Forest.Measure, BlockTree.WalkFuel]
  | some b =>
    cases hq : checker.PeriodParent T (some b) with
    | none => simp [Memo.Forest.Measure, BlockTree.WalkFuel]
    | some q =>
      have hh := T.GetAncestor_height (by simpa only [PeriodParent, Option.bind_some] using hq)
      simp only [Memo.Forest.Measure, BlockTree.WalkFuel, Option.elim, PeriodForest]
      omega

variable [DecidableEq B]

/-- On a sound cache, `GetStateFor` returns the recursion's state at the period parent and
leaves a sound cache. -/
theorem GetStateFor_spec {cache : ThresholdConditionCache B} (hcache : Sound T hP cache)
    (pindexPrev : Option B) :
    (checker.GetStateFor T pindexPrev cache).1 =
        (PeriodForest T hP).Ref (checker.StateNext T) THRESHOLD_DEFINED
          (checker.PeriodParent T pindexPrev) ∧
      Sound T hP (checker.GetStateFor T pindexPrev cache).2 := by
  rw [GetStateFor_eq_Run]
  exact (PeriodForest T hP).Run_spec _ _ (StartShortcut_sound hP hstart hmono)
    (Measure_PeriodParent_lt hP pindexPrev) hcache

/-- On a sound cache, `GetStateFor` returns the state of the period of `pindexPrev`'s child. -/
theorem GetStateFor_eq_PeriodState {cache : ThresholdConditionCache B} (hcache : Sound T hP cache)
    (pindexPrev : Option B) :
    (checker.GetStateFor T pindexPrev cache).1 =
      pindexPrev.elim THRESHOLD_DEFINED fun b =>
        checker.PeriodState T b ((T.nHeight b + 1) / checker.Period) := by
  rw [(GetStateFor_spec hP hstart hmono hcache pindexPrev).1]
  cases pindexPrev with
  | none => exact Memo.Forest.Ref_none _ _ _
  | some b => exact Ref_PeriodParent T hP b

/-- Along a chain the states `GetStateFor` returns only move forward, whatever sound caches it
is given. -/
theorem GetStateFor_Forward_of_GetAncestor {cache cache' : ThresholdConditionCache B}
    (hc : Sound T hP cache) (hc' : Sound T hP cache') {b a : B} {height : Int}
    (h : T.GetAncestor b height = some a) :
    Forward (checker.GetStateFor T (some a) cache).1 (checker.GetStateFor T (some b) cache').1 := by
  rw [GetStateFor_eq_PeriodState hP hstart hmono hc, GetStateFor_eq_PeriodState hP hstart hmono hc']
  simp only [Option.elim]
  -- the ancestor's period is a period of `b`'s chain, no later than `b`'s
  rw [PeriodState_of_GetAncestor T hP h (Nat.div_mul_le_self _ _)]
  have hab := T.GetAncestor_height_le h
  exact checker.PeriodState_Forward T b (Nat.div_le_div_right (by omega))

end Cache

/-! ### The caches queries leave -/

variable [DecidableEq B]

/-- The caches that `GetStateFor` queries leave, from the empty cache. -/
inductive Filled : ThresholdConditionCache B → Prop
  | empty : Filled ∅
  | query (pindexPrev : Option B) {cache : ThresholdConditionCache B} :
      Filled cache → Filled (checker.GetStateFor T pindexPrev cache).2

variable {checker T}

theorem Filled.sound (hP : 0 < checker.Period) (hstart : checker.BeginTime ≤ checker.EndTime)
    (hmono : T.MedianTimeMonotone) {cache : ThresholdConditionCache B}
    (h : checker.Filled T cache) : Sound T hP cache := by
  induction h with
  | empty => exact (PeriodForest T hP).Sound_empty _ _
  | query pindexPrev _ ih => exact (GetStateFor_spec hP hstart hmono ih pindexPrev).2

/-- The loop of `GetStateSinceHeightFor` only queries `GetStateFor`. -/
theorem SinceLoop_filled (s : ThresholdState) :
    ∀ (fuel : Nat) (q : B) (o : Option B) {cache : ThresholdConditionCache B},
      checker.Filled T cache → checker.Filled T (checker.SinceLoop T s fuel q o cache).2
  | 0, _, _, _, h => h
  | _ + 1, _, none, _, h => h
  | fuel + 1, q, some p, cache, h => by
    have hq := Filled.query (some p) h
    rcases hG : checker.GetStateFor T (some p) cache with ⟨st, c'⟩
    rw [hG] at hq
    simp only [SinceLoop, hG]
    split_ifs
    · exact SinceLoop_filled s fuel p _ hq
    · exact hq

/-! ### Where a run of states begins -/

section Since

variable (hP : 0 < checker.Period) (hstart : checker.BeginTime ≤ checker.EndTime)
  (hmono : T.MedianTimeMonotone)
include hstart hmono

/-- The loop of `GetStateSinceHeightFor`, started at the end of period `k + 1` of `b`'s chain
with periods `k + 1` to `m` in state `s`, stops at the end of a period `j + 1 ≤ k + 1` such that
periods `j + 1` to `m` are in state `s` and period `j` is not, and leaves a sound cache. The
induction is on the fuel, which is at least the number of periods left. -/
theorem SinceLoop_spec (b : B) {m : Nat} {s : ThresholdState} (hs : s ≠ THRESHOLD_DEFINED)
    (hm : m * checker.Period ≤ T.nHeight b + 1) :
    ∀ (fuel k : Nat) (q : B) (cache : ThresholdConditionCache B), Sound T hP cache →
      k + 1 ≤ m → k + 1 ≤ fuel →
      T.GetAncestor b (((k + 1) * checker.Period : Nat) - 1) = some q →
      (∀ i, k + 1 ≤ i → i ≤ m → checker.PeriodState T b i = s) →
      ∃ j ≤ k,
        T.GetAncestor b (((j + 1) * checker.Period : Nat) - 1) =
          some (checker.SinceLoop T s fuel q (checker.PreviousPeriodParent T q) cache).1 ∧
        (∀ i, j + 1 ≤ i → i ≤ m → checker.PeriodState T b i = s) ∧
        checker.PeriodState T b j ≠ s ∧
        Sound T hP (checker.SinceLoop T s fuel q (checker.PreviousPeriodParent T q) cache).2 := by
  intro fuel
  induction fuel with
  | zero => intro k q cache _ _ hkf; omega
  | succ fuel ih =>
    intro k q cache hcache hkm hkf hq hrun
    -- the period before `k + 1` ends at the previous period parent of `q`
    have hprev : checker.PreviousPeriodParent T q =
        T.GetAncestor b ((k * checker.Period : Nat) - 1) :=
      PreviousPeriodParent_of_GetAncestor T (by rwa [← Nat.succ_mul])
    rw [hprev]
    cases k with
    | zero =>
      -- the first period: there is no period before, and period `0` is DEFINED
      rw [Nat.zero_mul, T.GetAncestor_neg_one]
      exact ⟨0, le_rfl, hq, hrun, fun h => hs h.symm, hcache⟩
    | succ k =>
      have hkP : (k + 1) * checker.Period ≤ T.nHeight b + 1 :=
        (Nat.mul_le_mul_right _ (by omega)).trans hm
      obtain ⟨p, hp, hph⟩ := T.GetAncestor_pred_exists b (by rw [Nat.succ_mul]; omega) hkP
      -- `p` ends period `k + 1`, so `GetStateFor` of it is the state of period `k + 1`
      have hboundary : (T.nHeight p + 1) % checker.Period = 0 := by
        rw [hph, Nat.mul_mod_left]
      obtain ⟨hstate, hsound⟩ := GetStateFor_spec hP hstart hmono hcache (some p)
      have hRef := Ref_GetAncestor_period T hP b hkP
      rw [hp] at hRef
      rw [PeriodParent_of_boundary T hboundary, hRef] at hstate
      rcases hG : checker.GetStateFor T (some p) cache with ⟨st, c'⟩
      rw [hG] at hstate hsound
      rw [hp]
      simp only [SinceLoop, hG]
      dsimp only at hstate
      by_cases hsame : checker.PeriodState T b (k + 1) = s
      · -- period `k + 1` is in state `s` too: the loop steps back
        rw [if_pos (hstate.trans hsame)]
        obtain ⟨j, hjk, hj, hjrun, hjprev, hjsound⟩ :=
          ih k p c' hsound (by omega) (by omega) hp (by
            intro i hi him
            rcases Nat.eq_or_lt_of_le hi with h | h
            · rw [← h]
              exact hsame
            · exact hrun i h him)
        exact ⟨j, by omega, hj, hjrun, hjprev, hjsound⟩
      · -- period `k + 1` is in another state: the run begins at period `k + 2`
        rw [if_neg (by rw [hstate]; exact hsame)]
        exact ⟨k + 1, le_rfl, hq, hrun, hsame, hsound⟩

/-- On a sound cache, `GetStateSinceHeightFor` returns the first height of the run of periods,
ending at the period of `b`'s child, that share its state. -/
theorem GetStateSinceHeightFor_spec {cache : ThresholdConditionCache B} (hcache : Sound T hP cache)
    (b : B) :
    ∃ j ≤ (T.nHeight b + 1) / checker.Period,
      (checker.GetStateSinceHeightFor T (some b) cache).1 = some (j * checker.Period) ∧
      (∀ i, j ≤ i → i ≤ (T.nHeight b + 1) / checker.Period →
        checker.PeriodState T b i = checker.PeriodState T b ((T.nHeight b + 1) / checker.Period)) ∧
      (j = 0 ∨ checker.PeriodState T b (j - 1) ≠
        checker.PeriodState T b ((T.nHeight b + 1) / checker.Period)) := by
  generalize hm_def : (T.nHeight b + 1) / checker.Period = m
  have hm : m * checker.Period ≤ T.nHeight b + 1 := hm_def ▸ Nat.div_mul_le_self _ _
  obtain ⟨hstate, hsound⟩ := GetStateFor_spec hP hstart hmono hcache (some b)
  rw [Ref_PeriodParent T hP b, hm_def] at hstate
  rcases hG : checker.GetStateFor T (some b) cache with ⟨st, c'⟩
  rw [hG] at hstate hsound
  dsimp only at hstate
  subst hstate
  simp only [GetStateSinceHeightFor, hG]
  by_cases hdef : checker.PeriodState T b m = THRESHOLD_DEFINED
  · -- DEFINED: every period before is DEFINED, back to genesis
    rw [if_pos hdef]
    refine ⟨0, Nat.zero_le _, by simp, fun i _ him => ?_, Or.inl rfl⟩
    rw [hdef]
    exact checker.PeriodState_of_DEFINED T b him hdef
  · rw [if_neg hdef, PeriodParent_some T b, hm_def]
    -- the period is not the first, which is DEFINED, so it has a period parent
    obtain ⟨k, rfl⟩ : ∃ k, m = k + 1 := by
      cases m with
      | zero => exact absurd rfl hdef
      | succ k => exact ⟨k, rfl⟩
    obtain ⟨q, hq, hqh⟩ := T.GetAncestor_pred_exists b (by rw [Nat.succ_mul]; omega) hm
    rw [hq]
    obtain ⟨j, hjk, hj, hjrun, hjprev, -⟩ :=
      SinceLoop_spec hP hstart hmono b hdef hm (T.nHeight q + 1) k q c' hsound le_rfl
        (by rw [hqh]; exact Nat.le_mul_of_pos_right _ hP) hq
        (fun i hi him => by rw [show i = k + 1 by omega])
    refine ⟨j + 1, by omega, ?_, hjrun, Or.inr hjprev⟩
    -- the loop stops at the end of period `j`, one height below period `j + 1`
    have hrh := T.GetAncestor_height hj
    simp only [Option.some.injEq]
    omega

end Since

end AbstractThresholdConditionChecker


/-! ### The refinement -/

/-- On every cache that earlier queries filled, `GetStateFor` returns the state the recursion over
periods gives, states only move forward along every chain, and `GetStateSinceHeightFor` returns
the first height of the run of periods ending at the period of `b`'s child that share its state;
when the start time is not after the timeout and median time past does not decrease along
parent links. -/
theorem GetStateFor_matches_period_recursion {B : Type u} [DecidableEq B]
    (checker : AbstractThresholdConditionChecker B) (T : BlockTree B)
    (hP : 0 < checker.Period) (hstart : checker.BeginTime ≤ checker.EndTime)
    (hmono : T.MedianTimeMonotone) :
    (∀ cache, checker.Filled T cache → ∀ pindexPrev : Option B,
      (checker.GetStateFor T pindexPrev cache).1 =
        pindexPrev.elim THRESHOLD_DEFINED fun b =>
          checker.PeriodState T b ((T.nHeight b + 1) / checker.Period)) ∧
    (∀ cache cache', checker.Filled T cache → checker.Filled T cache' →
      ∀ (b a : B) (height : Int), T.GetAncestor b height = some a →
        Forward (checker.GetStateFor T (some a) cache).1
          (checker.GetStateFor T (some b) cache').1) ∧
    (∀ cache, checker.Filled T cache → ∀ b : B,
      ∃ j ≤ (T.nHeight b + 1) / checker.Period,
        (checker.GetStateSinceHeightFor T (some b) cache).1 = some (j * checker.Period) ∧
        (∀ i, j ≤ i → i ≤ (T.nHeight b + 1) / checker.Period →
          checker.PeriodState T b i =
            checker.PeriodState T b ((T.nHeight b + 1) / checker.Period)) ∧
        (j = 0 ∨ checker.PeriodState T b (j - 1) ≠
          checker.PeriodState T b ((T.nHeight b + 1) / checker.Period))) := by
  refine ⟨?_, ?_, ?_⟩
  · intro cache hcache pindexPrev
    exact AbstractThresholdConditionChecker.GetStateFor_eq_PeriodState hP hstart hmono
      (hcache.sound hP hstart hmono) pindexPrev
  · intro cache cache' hcache hcache' b a height h
    exact AbstractThresholdConditionChecker.GetStateFor_Forward_of_GetAncestor hP hstart hmono
      (hcache.sound hP hstart hmono) (hcache'.sound hP hstart hmono) h
  · intro cache hcache b
    exact AbstractThresholdConditionChecker.GetStateSinceHeightFor_spec hP hstart hmono
      (hcache.sound hP hstart hmono) b

/-- A chain of six blocks, ten seconds apart, every one signalling on bit `1`. -/
def SampleChain : BlockTree (Fin 6) where
  pprev i := if h : i.val = 0 then none else some ⟨i.val - 1, by omega⟩
  nHeight i := i.val
  nTime i := 10 * i.val
  nVersion _ := VERSIONBITS_TOP_BITS ||| 2
  height_pprev := by decide
  height_root := by decide

theorem SampleChain_monotone : SampleChain.MedianTimeMonotone := by
  unfold BlockTree.MedianTimeMonotone
  decide

/-- A deployment on bit `1` of `SampleChain`, with periods of two blocks and a threshold of
one. -/
def SampleDeployment : AbstractThresholdConditionChecker (Fin 6) :=
  VersionBitsConditionChecker SampleChain ⟨1, 15, 1000⟩ 1 2

theorem GetStateFor_matches_period_recursion_sample :
    0 < SampleDeployment.Period ∧ SampleDeployment.BeginTime ≤ SampleDeployment.EndTime ∧
      SampleChain.MedianTimeMonotone ∧
      (SampleDeployment.GetStateFor SampleChain (some 5) ∅).1 =
        SampleDeployment.PeriodState SampleChain 5 3 :=
  have h := GetStateFor_matches_period_recursion SampleDeployment SampleChain (by decide)
    (by decide) SampleChain_monotone
  ⟨by decide, by decide, SampleChain_monotone, h.1 ∅ .empty (some 5)⟩

example : SampleDeployment.PeriodState SampleChain 5 3 = THRESHOLD_LOCKED_IN := by decide

/-- `SampleDeployment` with its timeout before its start time. -/
def TimeoutFirstDeployment : AbstractThresholdConditionChecker (Fin 6) :=
  VersionBitsConditionChecker SampleChain ⟨1, 100, 20⟩ 1 2

/-- With the timeout before the start time, the shortcut of the walk back is wrong: block `5`
has median time past `30`, before the start time, so `GetStateFor` stops there with DEFINED,
while the recursion has failed the deployment at block `3`, whose median time past `20` reaches
the timeout. -/
theorem timeout_before_start_shortcut_diverges :
    TimeoutFirstDeployment.EndTime < TimeoutFirstDeployment.BeginTime ∧
      0 < TimeoutFirstDeployment.Period ∧ SampleChain.MedianTimeMonotone ∧
      TimeoutFirstDeployment.Filled SampleChain ∅ ∧
      (TimeoutFirstDeployment.GetStateFor SampleChain (some 5) ∅).1 = THRESHOLD_DEFINED ∧
      TimeoutFirstDeployment.PeriodState SampleChain 5
          ((SampleChain.nHeight 5 + 1) / TimeoutFirstDeployment.Period) = THRESHOLD_FAILED :=
  ⟨by decide, by decide, SampleChain_monotone, .empty, by decide, by decide⟩

end Ravencoin
