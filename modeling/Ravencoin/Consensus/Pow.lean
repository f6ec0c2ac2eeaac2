import Ravencoin.Arith.Uint256
import Ravencoin.VersionBits.Basic

/-!
# Proof-of-work targets (`pow.cpp`)

The target a block must meet is set from its ancestors. Before its activation height the
Bitcoin rule retargets once every `DifficultyAdjustmentInterval` blocks by the time the interval
took, within a factor of four. From it on, Dark Gravity Wave folds the targets of the last 180
blocks into a running value `bnPastTargetAvg`, scales it by the time those blocks took, clamped
to a factor of three of the planned 180 minutes, and caps the result at `powLimit`.

This module models the retargeting functions and `CheckProofOfWork` over a block index that
carries each block's `nBits`. It proves for the main and test parameters that Dark Gravity Wave
computes in 256 bits what it computes in exact arithmetic, that the running value stays between
the least and the greatest target read so far, and that the new target is at most `powLimit`
and three times the greatest target, and at least the compact truncation of a third of the
least.

## Main definitions

* `Ravencoin.PowParams` — the consensus parameters read, with `Ravencoin.MainPowParams` and
  `Ravencoin.TestPowParams`.
* `Ravencoin.PowTree` — a block index with `nBits`.
* `Ravencoin.PowTree.DarkGravityWave`, `Ravencoin.PowTree.GetNextWorkRequiredBTC`,
  `Ravencoin.PowTree.CalculateNextWorkRequired`, `Ravencoin.PowTree.GetNextWorkRequired`,
  `Ravencoin.CheckProofOfWork`.
* `Ravencoin.PastTargetAvg` — the running value in exact arithmetic.

## Main results

* `Ravencoin.PowTree.PastTargetLoop_spec` — the loop of `DarkGravityWave` computes the exact
  running value.
* `Ravencoin.PastTargetAvg_bounds` — the running value stays within every bound of the targets.
* `Ravencoin.PowTree.DarkGravityWave_spec` — the target set, as the exact retarget capped and
  truncated, and its bounds.
* `Ravencoin.PowTree.dark_gravity_wave_bounds`.

## Implementation notes

Block times are integers, as `GetBlockTime` returns them. The parameters of the special
difficulty rule and the activation height, a chain parameter read through `Params()`, are
fields of `PowParams`. `bnNew *= nActualTimespan` multiplies by the `uint32_t` the `int64_t`
converts to, and `bnNew /= nTargetTimespan` divides by the `arith_uint256` built from its
`uint64_t` conversion. The `LogPrint` lines of `GetNextWorkRequired` are left out.
-/

set_option autoImplicit false

universe u

namespace Ravencoin

open Digits

/-! ### Parameters and the block index -/

/-- The consensus parameters the proof-of-work functions read. -/
structure PowParams where
  powLimit : arith_uint256
  nPowTargetSpacing : Int
  nPowTargetTimespan : Int
  fPowAllowMinDifficultyBlocks : Bool
  fPowNoRetargeting : Bool
  nDGWActivationBlock : Nat

/-- `Consensus::Params::DifficultyAdjustmentInterval`. -/
def PowParams.DifficultyAdjustmentInterval (params : PowParams) : Int :=
  params.nPowTargetTimespan.tdiv params.nPowTargetSpacing

/-- `uint256S("00000fff…ff")`: a leading zero nibble and 236 one bits. -/
def RavenPowLimit : arith_uint256 := BitVec.ofNat 256 (2 ^ 236 - 1)

/-- `CMainParams`. -/
def MainPowParams : PowParams where
  powLimit := RavenPowLimit
  nPowTargetSpacing := 1 * 60
  nPowTargetTimespan := 2016 * 60
  fPowAllowMinDifficultyBlocks := false
  fPowNoRetargeting := false
  nDGWActivationBlock := 338778

/-- `CTestNetParams`. -/
def TestPowParams : PowParams where
  powLimit := RavenPowLimit
  nPowTargetSpacing := 1 * 60
  nPowTargetTimespan := 2016 * 60
  fPowAllowMinDifficultyBlocks := true
  fPowNoRetargeting := false
  nDGWActivationBlock := 200

/-- `IsDGWActive`. -/
def IsDGWActive (params : PowParams) (nBlockNumber : Nat) : Bool :=
  nBlockNumber ≥ params.nDGWActivationBlock

/-- A block index whose blocks carry their compact target `nBits`. -/
structure PowTree (B : Type u) extends BlockTree B where
  nBits : B → UInt32

/-- `CheckProofOfWork`: the target must be positive, not negative, without overflow and at most
`powLimit`, and the hash at most the target. -/
def CheckProofOfWork (hash : arith_uint256) (nBits : UInt32) (params : PowParams) : Bool :=
  let r := SetCompact nBits
  let bnTarget := r.1
  let fNegative := r.2.1
  let fOverflow := r.2.2
  if fNegative || bnTarget == 0 || fOverflow || bnTarget > params.powLimit then false
  else if hash > bnTarget then false
  else true

/-! ### The retargeting functions -/

namespace PowTree

variable {B : Type u} (T : PowTree B)

/-- The walk back of the special difficulty rule: past the blocks at the minimum difficulty
that do not start an adjustment interval, to the last block mined at a real difficulty. -/
def MinDifficultyWalk (nInterval : Int) (nProofOfWorkLimit : UInt32) (pindex : B) : UInt32 :=
  match hp : T.pprev pindex with
  | some p =>
    -- the parent is one lower, which the recursion descends on
    have := T.height_pprev pindex p hp
    if (T.nHeight pindex : Int).tmod nInterval ≠ 0 ∧ T.nBits pindex = nProofOfWorkLimit then
      MinDifficultyWalk nInterval nProofOfWorkLimit p
    else T.nBits pindex
  | none => T.nBits pindex
termination_by T.nHeight pindex

end PowTree

/-- One count of the loop of `DarkGravityWave`: the first target read is taken as it is, and
each later one is folded in as the `nCountBlocks`-th. -/
def PastTargetStep (bnPastTargetAvg bnTarget : arith_uint256) (nCountBlocks : Nat) :
    Except Halt arith_uint256 :=
  if nCountBlocks = 1 then pure bnTarget
  else
    -- not an average really, as the source says
    Divide (bnPastTargetAvg * BitVec.ofNat 256 nCountBlocks + bnTarget)
      (BitVec.ofNat 256 (nCountBlocks + 1))

namespace PowTree

variable {B : Type u} (T : PowTree B)

/-- The loop of `DarkGravityWave` at `pindex`, the `nCountBlocks`-th block read, with
`remaining` more to read after it: the block's target goes into `bnPastTargetAvg`, and unless
this was the last count the loop steps to the parent. It returns the running value and the
last block read. -/
def PastTargetLoop : Nat → B → arith_uint256 → Nat → Except Halt (arith_uint256 × B)
  | remaining, pindex, bnPastTargetAvg, nCountBlocks =>
    match PastTargetStep bnPastTargetAvg (SetCompact (T.nBits pindex)).1 nCountBlocks with
    | .error e => .error e
    | .ok bnPastTargetAvg =>
      match remaining with
      | 0 => .ok (bnPastTargetAvg, pindex)
      | r + 1 =>
        match T.pprev pindex with
        | none => .error (.abort (str "assert(pindex->pprev)"))
        | some p => PastTargetLoop r p bnPastTargetAvg (nCountBlocks + 1)

/-- The two clamps of `nActualTimespan` to `[nTargetTimespan / 3, nTargetTimespan * 3]`. -/
def ClampTimespan (nActualTimespan nTargetTimespan : Int) : Int :=
  let nActualTimespan :=
    if nActualTimespan < nTargetTimespan.tdiv 3 then nTargetTimespan.tdiv 3 else nActualTimespan
  if nActualTimespan > nTargetTimespan * 3 then nTargetTimespan * 3 else nActualTimespan

/-- `DarkGravityWave` for the block after `pindexLast`, whose time is `pblockTime`. -/
def DarkGravityWave (pindexLast : B) (pblockTime : Int) (params : PowParams) :
    Except Halt UInt32 := do
  let nProofOfWorkLimit ← GetCompact params.powLimit false
  let bnPowLimit := params.powLimit
  let nPastBlocks : Nat := 180
  -- at least `nPastBlocks + 1` blocks, or the limit
  if T.nHeight pindexLast < nPastBlocks then GetCompact bnPowLimit false
  else if params.fPowAllowMinDifficultyBlocks && params.fPowNoRetargeting then
    if pblockTime > T.nTime pindexLast + params.nPowTargetSpacing * 2 then pure nProofOfWorkLimit
    else pure (T.MinDifficultyWalk params.DifficultyAdjustmentInterval nProofOfWorkLimit pindexLast)
  else
    match T.PastTargetLoop (nPastBlocks - 1) pindexLast 0 1 with
    | .error e => throw e
    | .ok (bnPastTargetAvg, pindex) => do
      let nTargetTimespan := nPastBlocks * params.nPowTargetSpacing
      let nActualTimespan := ClampTimespan (T.nTime pindexLast - T.nTime pindex) nTargetTimespan
      let bnNew := bnPastTargetAvg * BitVec.ofNat 256 (nActualTimespan % 2 ^ 32).toNat
      let bnNew ← Divide bnNew (BitVec.ofNat 256 (nTargetTimespan % 2 ^ 64).toNat)
      let bnNew := if bnNew > bnPowLimit then bnPowLimit else bnNew
      GetCompact bnNew false

/-- `CalculateNextWorkRequired`: the Bitcoin retarget over an interval that began at
`nFirstBlockTime`, within a factor of four. -/
def CalculateNextWorkRequired (pindexLast : B) (nFirstBlockTime : Int) (params : PowParams) :
    Except Halt UInt32 :=
  if params.fPowNoRetargeting then pure (T.nBits pindexLast)
  else do
    let nActualTimespan := T.nTime pindexLast - nFirstBlockTime
    let nActualTimespan :=
      if nActualTimespan < params.nPowTargetTimespan.tdiv 4 then params.nPowTargetTimespan.tdiv 4
      else nActualTimespan
    let nActualTimespan :=
      if nActualTimespan > params.nPowTargetTimespan * 4 then params.nPowTargetTimespan * 4
      else nActualTimespan
    let bnPowLimit := params.powLimit
    let bnNew := (SetCompact (T.nBits pindexLast)).1
    let bnNew := bnNew * BitVec.ofNat 256 (nActualTimespan % 2 ^ 32).toNat
    let bnNew ← Divide bnNew (BitVec.ofNat 256 (params.nPowTargetTimespan % 2 ^ 64).toNat)
    let bnNew := if bnNew > bnPowLimit then bnPowLimit else bnNew
    GetCompact bnNew false

/-- `GetNextWorkRequiredBTC`: the same target within an interval, the retarget at its end. -/
def GetNextWorkRequiredBTC (pindexLast : B) (pblockTime : Int) (params : PowParams) :
    Except Halt UInt32 := do
  let nProofOfWorkLimit ← GetCompact params.powLimit false
  let nInterval := params.DifficultyAdjustmentInterval
  if ((T.nHeight pindexLast : Int) + 1).tmod nInterval ≠ 0 then
    if params.fPowAllowMinDifficultyBlocks then
      if pblockTime > T.nTime pindexLast + params.nPowTargetSpacing * 2 then pure nProofOfWorkLimit
      else pure (T.MinDifficultyWalk nInterval nProofOfWorkLimit pindexLast)
    else pure (T.nBits pindexLast)
  else do
    -- go back by an interval's worth of blocks
    let nHeightFirst : Int := T.nHeight pindexLast - (nInterval - 1)
    if ¬ nHeightFirst ≥ 0 then throw (.abort (str "assert(nHeightFirst >= 0)"))
    match T.GetAncestor pindexLast nHeightFirst with
    | none => throw (.abort (str "assert(pindexFirst)"))
    | some pindexFirst => T.CalculateNextWorkRequired pindexLast (T.nTime pindexFirst) params

/-- `GetNextWorkRequired`: both rules are computed, and Dark Gravity Wave's is taken from its
activation height on. The `unsigned int` results pass through `int` and back unchanged. -/
def GetNextWorkRequired (pindexLast : B) (pblockTime : Int) (params : PowParams) :
    Except Halt UInt32 := do
  let dgw ← T.DarkGravityWave pindexLast pblockTime params
  let btc ← T.GetNextWorkRequiredBTC pindexLast pblockTime params
  if IsDGWActive params (T.nHeight pindexLast + 1) then pure dgw else pure btc

/-- The targets of `b` and its parents, `n` blocks back or to the root, decoded. -/
def Targets (b : B) : Nat → List Nat
  | 0 => []
  | n + 1 =>
    (SetCompact (T.nBits b)).1.toNat ::
      match T.pprev b with
      | some p => Targets p n
      | none => []

end PowTree

/-! ### The running value in exact arithmetic -/

/-- `bnPastTargetAvg` in exact arithmetic: from the count `n` and the value `avg`, fold in the
targets `ts`, newest first. The first target is taken as it is. -/
def PastTargetAvg : Nat → Nat → List Nat → Nat
  | _, avg, [] => avg
  | n, avg, t :: ts => PastTargetAvg (n + 1) (if n = 1 then t else (avg * n + t) / (n + 1)) ts


/-! ### Bounds of the running value -/

/-- Folding `t` into `a` as the `n`-th value keeps it within any bounds of both. -/
theorem fold_div_bounds {lo hi a t n : Nat} (ha : lo ≤ a ∧ a ≤ hi) (ht : lo ≤ t ∧ t ≤ hi) :
    lo ≤ (a * n + t) / (n + 1) ∧ (a * n + t) / (n + 1) ≤ hi := by
  have hlo : lo * (n + 1) ≤ a * n + t := by
    have := Nat.mul_le_mul_right n ha.1
    rw [Nat.mul_succ]
    omega
  have hhi : a * n + t ≤ (n + 1) * hi := by
    have := Nat.mul_le_mul_right n ha.2
    rw [Nat.succ_mul, Nat.mul_comm n hi]
    omega
  exact ⟨(Nat.le_div_iff_mul_le (Nat.succ_pos n)).2 hlo, Nat.div_le_of_le_mul hhi⟩

/-- From the second count on, the running value stays within every bound of the values folded
in, when it starts within it. -/
theorem PastTargetAvg_bounds_of_two_le {lo hi : Nat} {ts : List Nat}
    (hts : ∀ t ∈ ts, lo ≤ t ∧ t ≤ hi) :
    ∀ {n avg : Nat}, 2 ≤ n → lo ≤ avg ∧ avg ≤ hi →
      lo ≤ PastTargetAvg n avg ts ∧ PastTargetAvg n avg ts ≤ hi := by
  induction ts with
  | nil =>
    intro n avg _ havg
    exact havg
  | cons t ts ih =>
    intro n avg hn havg
    rw [PastTargetAvg, if_neg (by omega)]
    exact ih (fun t' ht' => hts t' (List.mem_cons_of_mem t ht')) (by omega)
      (fold_div_bounds havg (hts t (List.mem_cons_self ..)))

/-- The running value of a nonempty list of targets stays within every bound of them. -/
theorem PastTargetAvg_bounds {lo hi : Nat} {ts : List Nat} (hne : ts ≠ [])
    (hts : ∀ t ∈ ts, lo ≤ t ∧ t ≤ hi) :
    lo ≤ PastTargetAvg 1 0 ts ∧ PastTargetAvg 1 0 ts ≤ hi := by
  cases ts with
  | nil => exact absurd rfl hne
  | cons t ts =>
    -- the first target is taken as it is
    rw [PastTargetAvg, if_pos rfl]
    exact PastTargetAvg_bounds_of_two_le (fun t' ht' => hts t' (List.mem_cons_of_mem t ht'))
      (Nat.le_refl 2) (hts t (List.mem_cons_self ..))

/-! ### The loop in 256 bits -/

/-- The headroom of the loop: a value below `2 ^ 240` times at most `2 ^ 16` fits. -/
theorem mul_lt_two_pow_256 {x y : Nat} (hx : x < 2 ^ 240) (hy : y ≤ 2 ^ 16) :
    x * y < 2 ^ 256 :=
  calc x * y ≤ x * 2 ^ 16 := Nat.mul_le_mul_left x hy
    _ < 2 ^ 240 * 2 ^ 16 := Nat.mul_lt_mul_of_pos_right hx (Nat.two_pow_pos 16)
    _ = 2 ^ 256 := by rw [← Nat.pow_add]

theorem toNat_ofNat_of_lt {n : Nat} (hn : n < 2 ^ 256) : (BitVec.ofNat 256 n).toNat = n := by
  rw [BitVec.toNat_ofNat, Nat.mod_eq_of_lt hn]

/-- One count of the loop on targets below `L < 2 ^ 240` computes in 256 bits what it computes
in exact arithmetic, and the running value stays below `L`. -/
theorem PastTargetStep_spec {L n : Nat} {a t : arith_uint256} (hL : L < 2 ^ 240) (hn : 1 ≤ n)
    (hn16 : n < 2 ^ 16) (ha : n ≠ 1 → a.toNat ≤ L) (ht : t.toNat ≤ L) :
    ∃ v, PastTargetStep a t n = .ok v ∧
      v.toNat = (if n = 1 then t.toNat else (a.toNat * n + t.toNat) / (n + 1)) ∧ v.toNat ≤ L := by
  unfold PastTargetStep
  by_cases h1 : n = 1
  · rw [if_pos h1, if_pos h1]
    exact ⟨t, rfl, rfl, ht⟩
  · rw [if_neg h1, if_neg h1]
    have haL := ha h1
    -- the product and the sum stay below `L * (n + 1) < 2 ^ 256`
    have hsum : a.toNat * n + t.toNat < 2 ^ 256 := by
      have hmul := Nat.mul_le_mul_right n haL
      have hbound := mul_lt_two_pow_256 hL (show n + 1 ≤ 2 ^ 16 by omega)
      rw [Nat.mul_succ] at hbound
      omega
    have hn' : (BitVec.ofNat 256 n).toNat = n := toNat_ofNat_of_lt (by omega)
    have hn1 : (BitVec.ofNat 256 (n + 1)).toNat = n + 1 := toNat_ofNat_of_lt (by omega)
    have hne : BitVec.ofNat 256 (n + 1) ≠ 0 := by
      intro h0
      rw [h0] at hn1
      simp at hn1
    refine ⟨_, Divide_of_ne_zero _ hne, ?_, ?_⟩
    · rw [BitVec.toNat_udiv, BitVec.toNat_add, BitVec.toNat_mul, hn', hn1,
        Nat.mod_eq_of_lt (by omega), Nat.mod_eq_of_lt (by omega)]
    · rw [BitVec.toNat_udiv, BitVec.toNat_add, BitVec.toNat_mul, hn', hn1,
        Nat.mod_eq_of_lt (by omega), Nat.mod_eq_of_lt (by omega)]
      exact (fold_div_bounds ⟨Nat.zero_le _, haL⟩ ⟨Nat.zero_le _, ht⟩).2

namespace PowTree

variable {B : Type u} (T : PowTree B)

theorem Targets_succ_of_pprev {b p : B} (hp : T.pprev b = some p) (n : Nat) :
    T.Targets b (n + 1) = (SetCompact (T.nBits b)).1.toNat :: T.Targets p n := by
  rw [Targets, hp]

/-- The targets of fewer blocks are a prefix. -/
theorem Targets_prefix (b : B) {k n : Nat} (hkn : k ≤ n) : T.Targets b k <+: T.Targets b n := by
  induction n generalizing b k with
  | zero =>
    obtain rfl := Nat.le_zero.1 hkn
    exact List.prefix_refl _
  | succ n ih =>
    cases k with
    | zero => exact List.nil_prefix
    | succ k =>
      rw [Targets, Targets]
      cases T.pprev b with
      | none => exact List.prefix_refl _
      | some p => exact (List.prefix_cons_inj _).2 (ih p (by omega))

/-- Every target read is one block's decoded `nBits`. -/
theorem mem_Targets {b : B} {n t : Nat} (ht : t ∈ T.Targets b n) :
    ∃ a, t = (SetCompact (T.nBits a)).1.toNat := by
  induction n generalizing b with
  | zero => simp [Targets] at ht
  | succ n ih =>
    rw [Targets] at ht
    rcases List.mem_cons.1 ht with rfl | ht
    · exact ⟨b, rfl⟩
    · cases hp : T.pprev b with
      | none => simp [hp] at ht
      | some p =>
        rw [hp] at ht
        exact ih ht

/-- The loop of `DarkGravityWave`, on targets below `L < 2 ^ 240` and with fewer than `2 ^ 16`
counts, computes the exact running value and stops `remaining` blocks back. The induction is on
`remaining`, the block, the running value and the count moving with it. -/
theorem PastTargetLoop_spec {L : Nat} (hL : L < 2 ^ 240) (remaining : Nat) :
    ∀ (pindex : B) (avg : arith_uint256) (n : Nat), remaining ≤ T.nHeight pindex → 1 ≤ n →
      n + remaining < 2 ^ 16 → (n ≠ 1 → avg.toNat ≤ L) →
      (∀ t ∈ T.Targets pindex (remaining + 1), t ≤ L) →
      ∃ v p, T.PastTargetLoop remaining pindex avg n = .ok (v, p) ∧
        v.toNat = PastTargetAvg n avg.toNat (T.Targets pindex (remaining + 1)) ∧
        T.AncestorAt remaining pindex = some p := by
  induction remaining with
  | zero =>
    intro pindex avg n _ hn hn16 ha hts
    have ht := hts _ (by rw [Targets]; exact List.mem_cons_self ..)
    obtain ⟨v, hv, hvn, -⟩ := PastTargetStep_spec hL hn (by omega) ha ht
    refine ⟨v, pindex, ?_, ?_, rfl⟩
    · rw [PastTargetLoop, hv]
    · rw [hvn, Targets]
      cases T.pprev pindex <;> rfl
  | succ r ih =>
    intro pindex avg n hr hn hn16 ha hts
    -- a block above the root has a parent, one lower
    obtain ⟨p, hp⟩ : ∃ p, T.pprev pindex = some p := by
      cases hp : T.pprev pindex with
      | none =>
        have := T.height_root pindex hp
        omega
      | some p => exact ⟨p, rfl⟩
    have hheight := T.height_pprev pindex p hp
    have htargets := T.Targets_succ_of_pprev hp (r + 1)
    rw [htargets] at hts
    obtain ⟨v1, hv1, hv1n, hv1L⟩ :=
      PastTargetStep_spec hL hn (by omega) ha (hts _ (List.mem_cons_self ..))
    obtain ⟨v, q, hloop, hv, hq⟩ := ih p v1 (n + 1) (by omega) (by omega) (by omega)
      (fun _ => hv1L) (fun t ht => hts t (List.mem_cons_of_mem _ ht))
    refine ⟨v, q, ?_, ?_, ?_⟩
    · rw [PastTargetLoop, hv1]
      simp only [hp]
      exact hloop
    · rw [hv, hv1n, htargets, PastTargetAvg]
    · rw [BlockTree.AncestorAt, hp]
      exact hq

end PowTree

/-! ### The retarget -/

/-- The new target from a running value `A` within `[lo, hi]` and a timespan `N` between a third
and three times the planned `3 * M`, capped at `P ≥ lo`: after the compact truncation it is at
most the cap and three times `hi`, and at least the truncation of a third of `lo`. -/
theorem retarget_bounds {A N M P lo hi : Nat} (hM : 0 < M) (hN : M ≤ N ∧ N ≤ 9 * M)
    (hA : lo ≤ A ∧ A ≤ hi) (hlo : lo ≤ P) :
    CompactTruncate (min (A * N / (3 * M)) P) ≤ P ∧
      CompactTruncate (min (A * N / (3 * M)) P) ≤ 3 * hi ∧
      CompactTruncate (lo / 3) ≤ CompactTruncate (min (A * N / (3 * M)) P) := by
  have htrunc := CompactTruncate_le (min (A * N / (3 * M)) P)
  -- three planned timespans at most triple the value
  have hhi : A * N / (3 * M) ≤ 3 * hi := by
    apply Nat.div_le_of_le_mul
    calc A * N ≤ hi * (9 * M) := Nat.mul_le_mul hA.2 hN.2
      _ = 3 * M * (3 * hi) := by
        rw [show 9 * M = 3 * 3 * M by omega]
        simp only [Nat.mul_comm, Nat.mul_left_comm]
  -- a third of the planned timespan keeps at least a third of the value
  have hlo3 : lo / 3 ≤ A * N / (3 * M) := by
    apply (Nat.le_div_iff_mul_le (by omega)).2
    calc lo / 3 * (3 * M) = lo / 3 * 3 * M := by rw [Nat.mul_assoc]
      _ ≤ lo * M := Nat.mul_le_mul_right M (Nat.div_mul_le_self lo 3)
      _ ≤ A * N := Nat.mul_le_mul hA.1 hN.1
  refine ⟨by omega, by omega, CompactTruncate_mono ?_⟩
  have : lo / 3 ≤ lo := Nat.div_le_self lo 3
  omega

/-- The cap at `powLimit`, by the values. -/
theorem toNat_cap (x P : arith_uint256) : (if x > P then P else x).toNat = min x.toNat P.toNat := by
  by_cases hx : x > P
  · rw [if_pos hx]
    have := BitVec.lt_def.1 hx
    omega
  · rw [if_neg hx]
    have := BitVec.lt_def.not.1 hx
    omega

namespace PowTree

variable {B : Type u} (T : PowTree B)

/-- The clamps keep the timespan between a third and three times the planned one. -/
theorem ClampTimespan_bounds (nActualTimespan : Int) {nTargetTimespan : Int}
    (h : 0 ≤ nTargetTimespan) :
    nTargetTimespan.tdiv 3 ≤ ClampTimespan nActualTimespan nTargetTimespan ∧
      ClampTimespan nActualTimespan nTargetTimespan ≤ nTargetTimespan * 3 := by
  unfold ClampTimespan
  dsimp only
  rw [Int.tdiv_eq_ediv_of_nonneg h]
  split_ifs <;> omega

/-- `DarkGravityWave` from `180` blocks on, outside the special rule: the loop's value scaled by
the clamped timespan, capped at `powLimit`, encoded. -/
theorem DarkGravityWave_of_PastTargetLoop {params : PowParams} {pindexLast p : B}
    (pblockTime : Int) {v : arith_uint256} (hheight : 180 ≤ T.nHeight pindexLast)
    (hmode : (params.fPowAllowMinDifficultyBlocks && params.fPowNoRetargeting) = false)
    (hloop : T.PastTargetLoop 179 pindexLast 0 1 = .ok (v, p)) :
    T.DarkGravityWave pindexLast pblockTime params =
      (Divide (v * BitVec.ofNat 256 (ClampTimespan (T.nTime pindexLast - T.nTime p)
          (180 * params.nPowTargetSpacing) % 2 ^ 32).toNat)
        (BitVec.ofNat 256 (180 * params.nPowTargetSpacing % 2 ^ 64).toNat)).bind
        fun bnNew => GetCompact (if bnNew > params.powLimit then params.powLimit else bnNew)
          false := by
  unfold DarkGravityWave
  rw [GetCompact_eq]
  simp only [bind, Except.bind]
  rw [if_neg (by omega), if_neg (by simp [hmode]), show 180 - 1 = 179 from rfl, hloop]
  rfl

/-- The running value after each count of the loop is exact and stays between the least and
the greatest target read so far. -/
theorem PastTargetLoop_running_bounds {L : Nat} (hL : L < 2 ^ 240) {pindexLast : B}
    (hheight : 180 ≤ T.nHeight pindexLast) (htargets : ∀ t ∈ T.Targets pindexLast 180, t ≤ L)
    {k : Nat} (hk1 : 1 ≤ k) (hk : k ≤ 180) :
    ∃ v p, T.PastTargetLoop (k - 1) pindexLast 0 1 = .ok (v, p) ∧
      v.toNat = PastTargetAvg 1 0 (T.Targets pindexLast k) ∧
      ∀ lo hi, (∀ t ∈ T.Targets pindexLast k, lo ≤ t ∧ t ≤ hi) → lo ≤ v.toNat ∧ v.toNat ≤ hi := by
  have hk' : k - 1 + 1 = k := by omega
  have hsub := (T.Targets_prefix pindexLast hk).subset
  obtain ⟨v, p, hloop, hv, -⟩ := T.PastTargetLoop_spec hL (k - 1) pindexLast 0 1 (by omega)
    (Nat.le_refl 1) (by omega) (fun h => absurd rfl h) (by rw [hk']; exact fun t ht => htargets t (hsub ht))
  rw [hk'] at hv
  refine ⟨v, p, hloop, hv, fun lo hi hts => ?_⟩
  rw [hv]
  -- the targets of `k ≥ 1` blocks are not empty
  have hne : T.Targets pindexLast k ≠ [] := by
    rw [← hk', Targets]
    exact List.cons_ne_nil _ _
  exact PastTargetAvg_bounds hne hts

/-- No product of the loop overflows: at the count `k + 1`, the running value of `k` targets
times `k + 1` plus the next target fits in 256 bits. -/
theorem PastTargetLoop_products_fit {L : Nat} (hL : L < 2 ^ 240) {pindexLast : B}
    (htargets : ∀ t ∈ T.Targets pindexLast 180, t ≤ L) {k : Nat} (hk1 : 1 ≤ k) (hk : k < 180) :
    PastTargetAvg 1 0 (T.Targets pindexLast k) * (k + 1) + (T.Targets pindexLast 180).getD k 0
      < 2 ^ 256 := by
  have hsub := (T.Targets_prefix pindexLast (Nat.le_of_lt hk)).subset
  have hne : T.Targets pindexLast k ≠ [] := by
    rw [← Nat.sub_add_cancel hk1, Targets]
    exact List.cons_ne_nil _ _
  have havg := (PastTargetAvg_bounds hne fun t ht => ⟨Nat.zero_le t, htargets t (hsub ht)⟩).2
  -- the next target is one of those read, or the default `0`
  have hnext : (T.Targets pindexLast 180).getD k 0 ≤ L := by
    rw [List.getD_eq_getElem?_getD]
    cases hget : (T.Targets pindexLast 180)[k]? with
    | none => exact Nat.zero_le L
    | some t => exact htargets t (List.mem_of_getElem? hget)
  have hmul := Nat.mul_le_mul_right (k + 1) havg
  have hbound := mul_lt_two_pow_256 hL (show k + 2 ≤ 2 ^ 16 by omega)
  rw [show k + 2 = (k + 1) + 1 from rfl, Nat.mul_succ] at hbound
  omega

/-- The target Dark Gravity Wave sets from `180` blocks on, outside the special rule, for targets
below `powLimit < 2 ^ 240` and a spacing whose tripled timespan leaves 16 bits of headroom: the
running value times the clamped timespan fits in 256 bits, the result is the exact retarget
capped and truncated, decodes with no flag, and lies within the bounds of the targets read. -/
theorem DarkGravityWave_spec (params : PowParams) (hlimit : params.powLimit.toNat < 2 ^ 240)
    (hspacing : 0 < params.nPowTargetSpacing) (hheadroom : params.nPowTargetSpacing * 540 ≤ 2 ^ 16)
    (hmode : (params.fPowAllowMinDifficultyBlocks && params.fPowNoRetargeting) = false)
    (pindexLast : B) (pblockTime : Int) (hheight : 180 ≤ T.nHeight pindexLast)
    (htargets : ∀ t ∈ T.Targets pindexLast 180, t ≤ params.powLimit.toNat) :
    ∃ first c, T.AncestorAt 179 pindexLast = some first ∧
      T.DarkGravityWave pindexLast pblockTime params = .ok c ∧
      PastTargetAvg 1 0 (T.Targets pindexLast 180) *
          (ClampTimespan (T.nTime pindexLast - T.nTime first)
            (180 * params.nPowTargetSpacing)).toNat < 2 ^ 256 ∧
      SetCompact c = (BitVec.ofNat 256 (CompactTruncate (min
        (PastTargetAvg 1 0 (T.Targets pindexLast 180) *
          (ClampTimespan (T.nTime pindexLast - T.nTime first)
            (180 * params.nPowTargetSpacing)).toNat / (180 * params.nPowTargetSpacing).toNat)
        params.powLimit.toNat)), false, false) ∧
      ∀ lo hi, (∀ t ∈ T.Targets pindexLast 180, lo ≤ t ∧ t ≤ hi) →
        (SetCompact c).1.toNat ≤ params.powLimit.toNat ∧ (SetCompact c).1.toNat ≤ 3 * hi ∧
        CompactTruncate (lo / 3) ≤ (SetCompact c).1.toNat := by
  obtain ⟨v, p, hloop, hv, hp⟩ := T.PastTargetLoop_spec hlimit 179 pindexLast 0 1 (by omega)
    (Nat.le_refl 1) (by omega) (fun h => absurd rfl h) htargets
  replace hv : v.toNat = PastTargetAvg 1 0 (T.Targets pindexLast 180) := hv
  have hne : T.Targets pindexLast 180 ≠ [] := by
    rw [Targets]
    exact List.cons_ne_nil _ _
  have hvL : v.toNat ≤ params.powLimit.toNat := by
    rw [hv]
    exact (PastTargetAvg_bounds hne fun t ht => ⟨Nat.zero_le t, htargets t ht⟩).2
  -- the clamped timespan `N` and the planned one `3 * M`, as natural numbers
  have hclamp := ClampTimespan_bounds (T.nTime pindexLast - T.nTime p)
    (show 0 ≤ 180 * params.nPowTargetSpacing by omega)
  rw [Int.tdiv_eq_ediv_of_nonneg (by omega)] at hclamp
  generalize hC : ClampTimespan (T.nTime pindexLast - T.nTime p)
    (180 * params.nPowTargetSpacing) = C at hclamp
  have hN : (60 * params.nPowTargetSpacing).toNat ≤ C.toNat ∧
      C.toNat ≤ 9 * (60 * params.nPowTargetSpacing).toNat := by omega
  have hD : (180 * params.nPowTargetSpacing).toNat = 3 * (60 * params.nPowTargetSpacing).toNat := by
    omega
  have hN16 : C.toNat ≤ 2 ^ 16 := by omega
  have hprod : v.toNat * C.toNat < 2 ^ 256 := mul_lt_two_pow_256 (by omega) hN16
  -- the `uint32_t` and `uint64_t` conversions keep both timespans
  have hC32 : (BitVec.ofNat 256 (C % 2 ^ 32).toNat).toNat = C.toNat := by
    rw [toNat_ofNat_of_lt (by omega)]
    omega
  have hD64 : (BitVec.ofNat 256 (180 * params.nPowTargetSpacing % 2 ^ 64).toNat).toNat =
      (180 * params.nPowTargetSpacing).toNat := by
    rw [toNat_ofNat_of_lt (by omega)]
    omega
  have hDne : BitVec.ofNat 256 (180 * params.nPowTargetSpacing % 2 ^ 64).toNat ≠ 0 := by
    intro h0
    rw [h0] at hD64
    simp at hD64
    omega
  have hquot : (v * BitVec.ofNat 256 (C % 2 ^ 32).toNat /
      BitVec.ofNat 256 (180 * params.nPowTargetSpacing % 2 ^ 64).toNat).toNat =
      v.toNat * C.toNat / (180 * params.nPowTargetSpacing).toNat := by
    rw [BitVec.toNat_udiv, BitVec.toNat_mul, hC32, hD64, Nat.mod_eq_of_lt hprod]
  obtain ⟨c, hc, hset⟩ := SetCompact_GetCompact (if v * BitVec.ofNat 256 (C % 2 ^ 32).toNat /
      BitVec.ofNat 256 (180 * params.nPowTargetSpacing % 2 ^ 64).toNat > params.powLimit
    then params.powLimit else v * BitVec.ofNat 256 (C % 2 ^ 32).toNat /
      BitVec.ofNat 256 (180 * params.nPowTargetSpacing % 2 ^ 64).toNat)
  rw [toNat_cap, hquot] at hset
  have hdgw := T.DarkGravityWave_of_PastTargetLoop pblockTime hheight hmode hloop
  refine ⟨p, c, hp, ?_, ?_, ?_, fun lo hi hts => ?_⟩
  · rw [hdgw, hC, Divide_of_ne_zero _ hDne]
    exact hc
  · rw [← hv, hC]
    exact hprod
  · rw [← hv, hC, hset]
  · -- the decoded target is the truncation, which `retarget_bounds` places
    have hT : (SetCompact c).1.toNat = CompactTruncate (min (v.toNat * C.toNat /
        (180 * params.nPowTargetSpacing).toNat) params.powLimit.toNat) := by
      rw [hset]
      exact toNat_ofNat_of_lt (Nat.lt_of_le_of_lt (CompactTruncate_le _)
        (Nat.lt_of_le_of_lt (Nat.min_le_right _ _) params.powLimit.isLt))
    have hA : lo ≤ v.toNat ∧ v.toNat ≤ hi := by
      rw [hv]
      exact PastTargetAvg_bounds hne hts
    have hlo : lo ≤ params.powLimit.toNat := by
      obtain ⟨t, ht⟩ := List.exists_mem_of_ne_nil _ hne
      exact Nat.le_trans (hts t ht).1 (htargets t ht)
    rw [hT, hD]
    exact retarget_bounds (by omega) hN hA hlo

/-- Dark Gravity Wave's bounds, for the main and test parameters and every parameter set like
them, over every block index with `181` blocks up to `pindexLast` whose `180` targets read are at
most `powLimit`, and every block time: the loop computes without overflow, its running value
stays between the least and the greatest target read so far, and the new target is at most
`powLimit` and three times the greatest target, and at least the truncation of a third of the
least. -/
theorem dark_gravity_wave_bounds (params : PowParams) (hlimit : params.powLimit.toNat < 2 ^ 240)
    (hspacing : 0 < params.nPowTargetSpacing) (hheadroom : params.nPowTargetSpacing * 540 ≤ 2 ^ 16)
    (hmode : (params.fPowAllowMinDifficultyBlocks && params.fPowNoRetargeting) = false)
    (pindexLast : B) (pblockTime : Int) (hheight : 180 ≤ T.nHeight pindexLast)
    (htargets : ∀ t ∈ T.Targets pindexLast 180, t ≤ params.powLimit.toNat) :
    (∀ k, 1 ≤ k → k ≤ 180 → ∃ v p, T.PastTargetLoop (k - 1) pindexLast 0 1 = .ok (v, p) ∧
      v.toNat = PastTargetAvg 1 0 (T.Targets pindexLast k) ∧
      ∀ lo hi, (∀ t ∈ T.Targets pindexLast k, lo ≤ t ∧ t ≤ hi) → lo ≤ v.toNat ∧ v.toNat ≤ hi) ∧
    (∀ k, 1 ≤ k → k < 180 →
      PastTargetAvg 1 0 (T.Targets pindexLast k) * (k + 1) + (T.Targets pindexLast 180).getD k 0
        < 2 ^ 256) ∧
    ∃ first c, T.AncestorAt 179 pindexLast = some first ∧
      T.DarkGravityWave pindexLast pblockTime params = .ok c ∧
      PastTargetAvg 1 0 (T.Targets pindexLast 180) *
          (ClampTimespan (T.nTime pindexLast - T.nTime first)
            (180 * params.nPowTargetSpacing)).toNat < 2 ^ 256 ∧
      SetCompact c = (BitVec.ofNat 256 (CompactTruncate (min
        (PastTargetAvg 1 0 (T.Targets pindexLast 180) *
          (ClampTimespan (T.nTime pindexLast - T.nTime first)
            (180 * params.nPowTargetSpacing)).toNat / (180 * params.nPowTargetSpacing).toNat)
        params.powLimit.toNat)), false, false) ∧
      ∀ lo hi, (∀ t ∈ T.Targets pindexLast 180, lo ≤ t ∧ t ≤ hi) →
        (SetCompact c).1.toNat ≤ params.powLimit.toNat ∧ (SetCompact c).1.toNat ≤ 3 * hi ∧
        CompactTruncate (lo / 3) ≤ (SetCompact c).1.toNat :=
  ⟨fun _ hk1 hk => T.PastTargetLoop_running_bounds hlimit hheight htargets hk1 hk,
    fun _ hk1 hk => T.PastTargetLoop_products_fit hlimit htargets hk1 hk,
    T.DarkGravityWave_spec params hlimit hspacing hheadroom hmode pindexLast pblockTime hheight
      htargets⟩

end PowTree

theorem PowChain_height_pprev (b b' : Nat) (h : (if b = 0 then none else some (b - 1)) = some b') :
    b = b' + 1 := by
  split_ifs at h with hb
  cases h
  omega

theorem PowChain_height_root (b : Nat) (h : (if b = 0 then none else some (b - 1)) = none) :
    b = 0 := by
  split_ifs at h with hb
  exact hb

/-- A chain of blocks one minute apart, each at the compact target of `RavenPowLimit`. -/
def PowChain : PowTree Nat where
  pprev n := if n = 0 then none else some (n - 1)
  nHeight n := n
  nTime n := 60 * n
  nVersion _ := 0
  height_pprev := PowChain_height_pprev
  height_root := PowChain_height_root
  nBits _ := 0x1e0fffff

theorem PowChain_targets_le (t : Nat) (ht : t ∈ PowChain.Targets 180 180) :
    t ≤ MainPowParams.powLimit.toNat := by
  obtain ⟨a, rfl⟩ := PowChain.mem_Targets ht
  show (SetCompact 0x1e0fffff).1.toNat ≤ MainPowParams.powLimit.toNat
  decide

theorem dark_gravity_wave_bounds_PowChain :
    MainPowParams.powLimit.toNat < 2 ^ 240 ∧ 0 < MainPowParams.nPowTargetSpacing ∧
      MainPowParams.nPowTargetSpacing * 540 ≤ 2 ^ 16 ∧
      (MainPowParams.fPowAllowMinDifficultyBlocks && MainPowParams.fPowNoRetargeting) = false ∧
      180 ≤ PowChain.nHeight 180 ∧
      (∀ t ∈ PowChain.Targets 180 180, t ≤ MainPowParams.powLimit.toNat) ∧
    (∀ k, 1 ≤ k → k ≤ 180 → ∃ v p, PowChain.PastTargetLoop (k - 1) 180 0 1 = .ok (v, p) ∧
      v.toNat = PastTargetAvg 1 0 (PowChain.Targets 180 k) ∧
      ∀ lo hi, (∀ t ∈ PowChain.Targets 180 k, lo ≤ t ∧ t ≤ hi) → lo ≤ v.toNat ∧ v.toNat ≤ hi) ∧
    (∀ k, 1 ≤ k → k < 180 →
      PastTargetAvg 1 0 (PowChain.Targets 180 k) * (k + 1) + (PowChain.Targets 180 180).getD k 0
        < 2 ^ 256) ∧
    ∃ first c, PowChain.AncestorAt 179 180 = some first ∧
      PowChain.DarkGravityWave 180 10860 MainPowParams = .ok c ∧
      PastTargetAvg 1 0 (PowChain.Targets 180 180) *
          (PowTree.ClampTimespan (PowChain.nTime 180 - PowChain.nTime first)
            (180 * MainPowParams.nPowTargetSpacing)).toNat < 2 ^ 256 ∧
      SetCompact c = (BitVec.ofNat 256 (CompactTruncate (min
        (PastTargetAvg 1 0 (PowChain.Targets 180 180) *
          (PowTree.ClampTimespan (PowChain.nTime 180 - PowChain.nTime first)
            (180 * MainPowParams.nPowTargetSpacing)).toNat /
            (180 * MainPowParams.nPowTargetSpacing).toNat)
        MainPowParams.powLimit.toNat)), false, false) ∧
      ∀ lo hi, (∀ t ∈ PowChain.Targets 180 180, lo ≤ t ∧ t ≤ hi) →
        (SetCompact c).1.toNat ≤ MainPowParams.powLimit.toNat ∧ (SetCompact c).1.toNat ≤ 3 * hi ∧
        CompactTruncate (lo / 3) ≤ (SetCompact c).1.toNat :=
  ⟨by decide, by decide, by decide, rfl, Nat.le_refl 180, PowChain_targets_le,
    PowChain.dark_gravity_wave_bounds MainPowParams (by decide) (by decide) (by decide) rfl 180 10860
      (Nat.le_refl 180) PowChain_targets_le⟩

end Ravencoin
