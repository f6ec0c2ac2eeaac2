import Mathlib.Data.Int.Bitwise
import Ravencoin.Lib.Median
import Ravencoin.VersionBits.Basic
import Ravencoin.Script.Interpreter
import Ravencoin.Assets.Transactions

/-!
# Lock times along a chain (`tx_verify.cpp`, `chain.h`)

A transaction's absolute lock time (`IsFinalTx`) compares `nLockTime` with a block height or a
block time, and its relative lock times (BIP68, `CalculateSequenceLocks` and
`EvaluateSequenceLocks`) compare each input's height or median time past plus its `nSequence`
delay with the block that would include it, the time being the median time past of that block's
parent. `ContextualCheckBlockHeader` turns away a block whose time is not after its parent's
median time past.

This module models the three lock-time functions and proves that under the `time-too-old` rule
the median time past never goes down from a block to its child, so that a transaction whose
locks are met at a block has them met at every descendant of the block, and a final transaction
stays final at every later height and time.

## Main definitions

* `Ravencoin.IsFinalTx`.
* `Ravencoin.BlockTree.CalculateSequenceLocks`, `Ravencoin.BlockTree.EvaluateSequenceLocks`,
  `Ravencoin.BlockTree.SequenceLocks`.
* `Ravencoin.BlockTree.TimeAfterMedianTimePast` — the `time-too-old` rule along the chain.

## Main results

* `Ravencoin.BlockTree.MedianTimeMonotone_of_TimeAfterMedianTimePast`.
* `Ravencoin.BlockTree.CalculateSequenceLocks_descendant` — a descendant computes the same locks.
* `Ravencoin.BlockTree.lock_time_finality_monotone`.

## Implementation notes

Heights are mathematical integers: the `int` sums of `CalculateSequenceLocks` would overflow only
for heights near `2^31`. `static_cast<uint32_t>(tx.nVersion)` reads the signed version modulo
`2^32`. The shift of the 16-bit delay by the granularity stays below `2^32`, so it is computed on
`Nat`. Dereferencing the null block that `GetAncestor` returns outside the chain aborts, as does
each `assert`. `SequenceLocks` also returns `prevHeights` as the source leaves it, with the
entries of inputs that opt out set to `0`.
-/

set_option autoImplicit false

universe u

namespace Ravencoin

/-! ### Constants -/

/-- `LOCKTIME_THRESHOLD`: below it `nLockTime` is a height, from it on a time. -/
def LOCKTIME_THRESHOLD : Int := 500000000

/-- `CTxIn::SEQUENCE_FINAL`. -/
def SEQUENCE_FINAL : UInt32 := 0xffffffff

/-- `CTxIn::SEQUENCE_LOCKTIME_TYPE_FLAG`: the delay counts units of time, not blocks. -/
def SEQUENCE_LOCKTIME_TYPE_FLAG : Nat := 2 ^ 22

/-- `CTxIn::SEQUENCE_LOCKTIME_MASK`. -/
def SEQUENCE_LOCKTIME_MASK : Nat := 0x0000ffff

/-- `CTxIn::SEQUENCE_LOCKTIME_GRANULARITY`: a unit of time is `2^9` seconds. -/
def SEQUENCE_LOCKTIME_GRANULARITY : Nat := 9

/-- `LOCKTIME_VERIFY_SEQUENCE`: the flag that enforces BIP68. -/
def LOCKTIME_VERIFY_SEQUENCE : Int := 1

/-! ### Absolute lock time -/

/-- `IsFinalTx(tx, nBlockHeight, nBlockTime)`. -/
def IsFinalTx (tx : CTransaction) (nBlockHeight : Int) (nBlockTime : Int) : Bool :=
  if tx.nLockTime = 0 then true
  else if (tx.nLockTime.toNat : Int) <
      (if (tx.nLockTime.toNat : Int) < LOCKTIME_THRESHOLD then nBlockHeight else nBlockTime) then
    true
  else tx.vin.all fun txin => txin.nSequence == SEQUENCE_FINAL

/-- A final transaction stays final at every later height and time. -/
theorem IsFinalTx_mono {tx : CTransaction} {h h' t t' : Int} (hh : h ≤ h') (ht : t ≤ t')
    (hfinal : IsFinalTx tx h t = true) : IsFinalTx tx h' t' = true := by
  unfold IsFinalTx at hfinal ⊢
  by_cases h0 : tx.nLockTime = 0
  · rw [if_pos h0]
  rw [if_neg h0] at hfinal ⊢
  by_cases hpass : (tx.nLockTime.toNat : Int) <
      (if (tx.nLockTime.toNat : Int) < LOCKTIME_THRESHOLD then h else t)
  · -- the lock time is passed at the old height or time, so at the new one
    have hpass' : (tx.nLockTime.toNat : Int) <
        (if (tx.nLockTime.toNat : Int) < LOCKTIME_THRESHOLD then h' else t') := by
      split_ifs at hpass ⊢ <;> omega
    rw [if_pos hpass']
  · -- else every input is final, whatever the height and time
    rw [if_neg hpass] at hfinal
    by_cases hpass' : (tx.nLockTime.toNat : Int) <
        (if (tx.nLockTime.toNat : Int) < LOCKTIME_THRESHOLD then h' else t')
    · rw [if_pos hpass']
    · rw [if_neg hpass']
      exact hfinal

namespace BlockTree

variable {B : Type u} (T : BlockTree B)

/-! ### Median time past along a chain -/

/-- The `time-too-old` rule of `ContextualCheckBlockHeader`: every block's time is after its
parent's median time past. -/
def TimeAfterMedianTimePast : Prop :=
  ∀ b b', T.pprev b = some b' → T.GetMedianTimePast b' < T.nTime b

/-- The times of fewer blocks are the first of the times of more. -/
theorem BlockTimes_take : ∀ (n : Nat) (x : Option B),
    T.BlockTimes n x = (T.BlockTimes (n + 1) x).take n
  | 0, _ => rfl
  | _ + 1, none => rfl
  | n + 1, some b => by
    rw [BlockTimes, BlockTimes, List.take_succ_cons, ← BlockTimes_take n]

theorem length_BlockTimes_le : ∀ (n : Nat) (x : Option B), (T.BlockTimes n x).length ≤ n
  | 0, _ => le_rfl
  | _ + 1, none => Nat.zero_le _
  | n + 1, some b => by
    rw [BlockTimes, List.length_cons]
    exact Nat.succ_le_succ (length_BlockTimes_le n _)

/-- The median time past is the median of the window's times, in any order. -/
theorem GetMedianTimePast_eq_median (b : B) :
    T.GetMedianTimePast b = Median.median 0 (T.BlockTimes nMedianTimeSpan (some b)) := by
  rw [← Median.median_perm 0 (List.reverse_perm _)]
  unfold GetMedianTimePast Median.median
  dsimp only
  rw [List.length_insertionSort]

/-- Under the `time-too-old` rule the median time past never decreases from a block's parent to
the block: the window slides by one, dropping its oldest time and taking in one after the
parent's median. -/
theorem MedianTimeMonotone_of_TimeAfterMedianTimePast (htime : T.TimeAfterMedianTimePast) :
    T.MedianTimeMonotone := by
  intro b b' hp
  -- the block's window is its time in front of the first ten of the parent's window
  have hwindow : T.BlockTimes nMedianTimeSpan (some b) =
      T.nTime b :: (T.BlockTimes nMedianTimeSpan (some b')).take 10 := by
    show T.nTime b :: T.BlockTimes 10 (T.pprev b) = _
    rw [hp, T.BlockTimes_take 10 (some b')]
    rfl
  have hne : T.BlockTimes nMedianTimeSpan (some b') ≠ [] := List.cons_ne_nil _ _
  rw [T.GetMedianTimePast_eq_median b, T.GetMedianTimePast_eq_median b', hwindow]
  apply Median.median_le_median_cons_take 0 hne
  · rw [← T.GetMedianTimePast_eq_median b']
    exact le_of_lt (htime b b' hp)
  · exact T.length_BlockTimes_le nMedianTimeSpan _

/-! ### Relative lock times -/

/-- One input of the loop of `CalculateSequenceLocks`: the lock pair so far, and the input's
entry of `prevHeights` as the loop leaves it. -/
def SequenceLockInput (block : B) (lock : Int × Int) (txin : CTxIn) (nCoinHeight : Int) :
    Except Halt ((Int × Int) × Int) :=
  if txin.nSequence.toNat &&& SEQUENCE_LOCKTIME_DISABLE_FLAG ≠ 0 then
    -- the height of this input is not relevant for sequence locks
    .ok (lock, 0)
  else if txin.nSequence.toNat &&& SEQUENCE_LOCKTIME_TYPE_FLAG ≠ 0 then
    match T.GetAncestor block (max (nCoinHeight - 1) 0) with
    | some a =>
      let nCoinTime := T.GetMedianTimePast a
      let delay : Int :=
        ((txin.nSequence.toNat &&& SEQUENCE_LOCKTIME_MASK) <<< SEQUENCE_LOCKTIME_GRANULARITY : Nat)
      .ok ((lock.1, max lock.2 (nCoinTime + delay - 1)), nCoinHeight)
    | none => .error (.abort (str "GetAncestor(std::max(nCoinHeight-1, 0)) is null"))
  else
    let delay : Int := (txin.nSequence.toNat &&& SEQUENCE_LOCKTIME_MASK : Nat)
    .ok ((max lock.1 (nCoinHeight + delay - 1), lock.2), nCoinHeight)

/-- The loop of `CalculateSequenceLocks` over the inputs and their entries of `prevHeights`. -/
def SequenceLocksLoop (block : B) :
    Int × Int → List CTxIn → List Int → Except Halt ((Int × Int) × List Int)
  | lock, txin :: vin, nCoinHeight :: prevHeights => do
    let (lock, h) ← T.SequenceLockInput block lock txin nCoinHeight
    let (lock, hs) ← SequenceLocksLoop block lock vin prevHeights
    return (lock, h :: hs)
  | lock, _, _ => .ok (lock, [])

/-- `CalculateSequenceLocks(tx, flags, prevHeights, block)`: the last invalid height and time
that the relative lock times of the inputs give, `-1` for none, and `prevHeights` as the loop
leaves it. -/
def CalculateSequenceLocks (tx : CTransaction) (flags : Int) (prevHeights : List Int) (block : B) :
    Except Halt ((Int × Int) × List Int) :=
  if prevHeights.length ≠ tx.vin.length then
    .error (.abort (str "assert(prevHeights->size() == tx.vin.size())"))
  else
    let fEnforceBIP68 :=
      decide (tx.nVersion % 2 ^ 32 ≥ 2) && Int.land flags LOCKTIME_VERIFY_SEQUENCE != 0
    if !fEnforceBIP68 then .ok ((-1, -1), prevHeights)
    else T.SequenceLocksLoop block (-1, -1) tx.vin prevHeights

/-- `EvaluateSequenceLocks(block, lockPair)`: the locks are met when both lie before the block,
the time before the median time past of its parent. -/
def EvaluateSequenceLocks (block : B) (lockPair : Int × Int) : Except Halt Bool :=
  match T.pprev block with
  | some pprev =>
    let nBlockTime := T.GetMedianTimePast pprev
    .ok !(lockPair.1 ≥ T.nHeight block ∨ lockPair.2 ≥ nBlockTime)
  | none => .error (.abort (str "assert(block.pprev)"))

/-- `SequenceLocks(tx, flags, prevHeights, block)`, with `prevHeights` as it is left. -/
def SequenceLocks (tx : CTransaction) (flags : Int) (prevHeights : List Int) (block : B) :
    Except Halt (Bool × List Int) := do
  let (lockPair, prevHeights) ← T.CalculateSequenceLocks tx flags prevHeights block
  let ok ← T.EvaluateSequenceLocks block lockPair
  return (ok, prevHeights)

/-! ### The same locks at a descendant -/

section Descendant

variable {b b' : B}

/-- A descendant sees the same ancestors at and below the block it descends from. -/
theorem GetAncestor_descendant {k : Nat} (hdesc : T.AncestorAt k b' = some b) {x : Int}
    (hx : x ≤ T.nHeight b) : T.GetAncestor b' x = T.GetAncestor b x := by
  have hheight := T.AncestorAt_height hdesc
  have hb : T.GetAncestor b' (T.nHeight b) = some b := by
    unfold GetAncestor
    rw [if_neg (by omega), Int.toNat_natCast, show T.nHeight b' - T.nHeight b = k by omega]
    exact hdesc
  exact (T.GetAncestor_GetAncestor hb hx).symm

variable (hanc : ∀ x : Int, x ≤ T.nHeight b → T.GetAncestor b' x = T.GetAncestor b x)
include hanc

theorem SequenceLockInput_descendant (lock : Int × Int) (txin : CTxIn) {nCoinHeight : Int}
    (hh : nCoinHeight < T.nHeight b) :
    T.SequenceLockInput b' lock txin nCoinHeight = T.SequenceLockInput b lock txin nCoinHeight := by
  unfold SequenceLockInput
  rw [hanc (max (nCoinHeight - 1) 0) (by omega)]

theorem SequenceLocksLoop_descendant :
    ∀ (lock : Int × Int) (vin : List CTxIn) (prevHeights : List Int),
      (∀ h ∈ prevHeights, h < T.nHeight b) →
      T.SequenceLocksLoop b' lock vin prevHeights = T.SequenceLocksLoop b lock vin prevHeights
  | lock, txin :: vin, nCoinHeight :: prevHeights, hh => by
    simp only [SequenceLocksLoop]
    rw [T.SequenceLockInput_descendant hanc lock txin (hh nCoinHeight List.mem_cons_self)]
    congr 1
    funext r
    rw [SequenceLocksLoop_descendant r.1 vin prevHeights
      (fun h hmem => hh h (List.mem_cons_of_mem _ hmem))]
  | _, [], _, _ => by simp only [SequenceLocksLoop]
  | _, _ :: _, [], _ => by simp only [SequenceLocksLoop]

/-- A descendant computes the same locks. -/
theorem CalculateSequenceLocks_descendant (tx : CTransaction) (flags : Int)
    {prevHeights : List Int} (hh : ∀ h ∈ prevHeights, h < T.nHeight b) :
    T.CalculateSequenceLocks tx flags prevHeights b' =
      T.CalculateSequenceLocks tx flags prevHeights b := by
  unfold CalculateSequenceLocks
  rw [T.SequenceLocksLoop_descendant hanc _ _ _ hh]

end Descendant

/-- Locks met at a block are met at its descendants, whose heights and parents' median times
past are at least the block's. -/
theorem EvaluateSequenceLocks_descendant (hmono : T.MedianTimeMonotone) {b b' : B} {k : Nat}
    (hdesc : T.AncestorAt k b' = some b) {lockPair : Int × Int}
    (hok : T.EvaluateSequenceLocks b lockPair = .ok true) :
    T.EvaluateSequenceLocks b' lockPair = .ok true := by
  cases k with
  | zero =>
    simp only [AncestorAt, Option.some.injEq] at hdesc
    rw [hdesc]
    exact hok
  | succ k =>
    unfold EvaluateSequenceLocks at hok ⊢
    cases hp : T.pprev b with
    | none =>
      rw [hp] at hok
      cases hok
    | some p =>
      rw [hp] at hok
      simp only [Except.ok.injEq, Bool.not_eq_true', decide_eq_false_iff_not, not_or,
        not_le] at hok
      -- the parent of `b'` descends from `b`, so from `b`'s parent
      simp only [AncestorAt] at hdesc
      obtain ⟨p', hp', hdesc'⟩ := Option.bind_eq_some_iff.1 hdesc
      have hheight := T.AncestorAt_height hdesc'
      have hpp : T.AncestorAt (k + 1) p' = some p := by
        rw [show k + 1 = 1 + k by omega, T.AncestorAt_add 1 k, hdesc', Option.bind_some]
        show (T.pprev b).bind _ = _
        rw [hp]
        rfl
      have hmtp := T.GetMedianTimePast_ancestor_le hmono hpp
      have hh' := T.height_pprev b' p' hp'
      rw [hp']
      simp only [Except.ok.injEq, Bool.not_eq_true', decide_eq_false_iff_not, not_or, not_le]
      omega

/-- Under the `time-too-old` rule the median time past never decreases from parent to child;
for every transaction, flags and coin heights below the block, sequence locks met at a block are
met at every descendant of it; and a final transaction stays final at every later height and
time. -/
theorem lock_time_finality_monotone (htime : T.TimeAfterMedianTimePast) :
    T.MedianTimeMonotone ∧
      (∀ (tx : CTransaction) (flags : Int) (prevHeights : List Int) (b : B),
        (∀ h ∈ prevHeights, h < T.nHeight b) →
        Prod.fst <$> T.SequenceLocks tx flags prevHeights b = .ok true →
        ∀ (k : Nat) (b' : B), T.AncestorAt k b' = some b →
          Prod.fst <$> T.SequenceLocks tx flags prevHeights b' = .ok true) ∧
      ∀ (tx : CTransaction) (h h' t t' : Int), h ≤ h' → t ≤ t' →
        IsFinalTx tx h t = true → IsFinalTx tx h' t' = true := by
  have hmono := T.MedianTimeMonotone_of_TimeAfterMedianTimePast htime
  refine ⟨hmono, ?_, fun tx h h' t t' hh ht hfinal => IsFinalTx_mono hh ht hfinal⟩
  intro tx flags prevHeights b hh hlocks k b' hdesc
  have hanc := fun x (hx : x ≤ (T.nHeight b : Int)) => T.GetAncestor_descendant hdesc hx
  unfold SequenceLocks at hlocks ⊢
  rw [T.CalculateSequenceLocks_descendant hanc tx flags hh]
  cases hcalc : T.CalculateSequenceLocks tx flags prevHeights b with
  | error e =>
    rw [hcalc] at hlocks
    cases hlocks
  | ok r =>
    rw [hcalc] at hlocks
    simp only [bind, Except.bind] at hlocks ⊢
    cases heval : T.EvaluateSequenceLocks b r.1 with
    | error e =>
      rw [heval] at hlocks
      cases hlocks
    | ok v =>
      rw [heval] at hlocks
      cases v with
      | false => cases hlocks
      | true =>
        rw [T.EvaluateSequenceLocks_descendant hmono hdesc heval]
        rfl

end BlockTree

/-- Four blocks ten seconds apart. -/
def TimeChain : BlockTree (Fin 4) where
  pprev b := if h : b.val = 0 then none else some ⟨b.val - 1, by omega⟩
  nHeight b := b.val
  nTime b := 10 * b.val
  nVersion _ := 0
  height_pprev := by decide
  height_root := by decide

theorem lock_time_finality_monotone_TimeChain :
    TimeChain.TimeAfterMedianTimePast ∧ TimeChain.MedianTimeMonotone ∧
      (∀ (tx : CTransaction) (flags : Int) (prevHeights : List Int) (b : Fin 4),
        (∀ h ∈ prevHeights, h < TimeChain.nHeight b) →
        Prod.fst <$> TimeChain.SequenceLocks tx flags prevHeights b = .ok true →
        ∀ (k : Nat) (b' : Fin 4), TimeChain.AncestorAt k b' = some b →
          Prod.fst <$> TimeChain.SequenceLocks tx flags prevHeights b' = .ok true) ∧
      ∀ (tx : CTransaction) (h h' t t' : Int), h ≤ h' → t ≤ t' →
        IsFinalTx tx h t = true → IsFinalTx tx h' t' = true :=
  have htime : TimeChain.TimeAfterMedianTimePast := by
    unfold BlockTree.TimeAfterMedianTimePast
    decide
  ⟨htime, TimeChain.lock_time_finality_monotone htime⟩

/-- A version-2 transaction whose one input waits one block after its coin at height `1`. -/
def OneBlockLockTx : CTransaction := ⟨2, [⟨⟨0, 0⟩, [], 1⟩], [], 0, 0⟩

example : Prod.fst <$> TimeChain.SequenceLocks OneBlockLockTx 1 [1] 2 = .ok true ∧
    Prod.fst <$> TimeChain.SequenceLocks OneBlockLockTx 1 [1] 1 = .ok false := by
  decide

end Ravencoin
