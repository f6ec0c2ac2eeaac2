import Ravencoin.Lib.Word64
import Ravencoin.Lib.GenFilter
import Ravencoin.Assets.Transactions

/-!
# The rolling Bloom filter (`bloom.cpp`)

`CRollingBloomFilter` remembers the keys inserted lately, as `recentRejects` does for the
transactions a node rejected. Its cells hold a two-bit generation tag, split over a pair of
64-bit words: bit `b` of `data[2w]` and of `data[2w + 1]`. A key marks one cell per hash
function with the current generation; after `nEntriesPerGeneration` keys a new generation
starts, numbered `1, 2, 3` in turn, and the cells that carry its number are cleared. A key is
reported present when all its cells carry a tag.

This module models the constructor, `insert`, `contains` and `reset`, shows that they refine
the generational filter of `GenFilter`, and proves from it that a key is reported present
while at most `2 * nEntriesPerGeneration` keys have been inserted after it.

## Main definitions

* `Ravencoin.FpRateSizing` — the floating-point part of the constructor, for one rate.
* `Ravencoin.CRollingBloomFilter` with `new`, `insert`, `contains` and `reset`.
* `Ravencoin.BloomOp`, `Ravencoin.RunBloom` — sequences of inserts and resets.
* `Ravencoin.CRollingBloomFilter.toGenFilter` — the tags of the cells, the generation and
  the count, as a state of `GenFilter`.

## Main results

* `Ravencoin.CRollingBloomFilter.insert_spec`, `Ravencoin.CRollingBloomFilter.contains_spec`,
  `Ravencoin.CRollingBloomFilter.toGenFilter_reset` — each operation acts on the tags as the
  generational filter does.
* `Ravencoin.RunBloom_spec` — every run from a well-formed filter succeeds and stays well
  formed.
* `Ravencoin.rolling_bloom_no_false_negatives`.

## Implementation notes

The hash function `MurmurHash3` is a parameter, and so are the values of `GetRand` that
`reset` draws. `nHashFuncs` and `nFilterBits` are computed in double precision from the
rate; the model takes them as a `FpRateSizing`, with the one property of the formula that
matters: it is zero for no elements and positive otherwise. Signed overflow, the conversion of
an out-of-range double and the division by an empty `data.size()` have no defined behaviour;
the model aborts there. The data has an even size in every state, so the reads
`data[pos & ~1]` and `data[pos | 1]` are in range; the model reads with a default that is then
never used.
-/

set_option autoImplicit false

namespace Ravencoin

/-- `RollingBloomHash`: `MurmurHash3` seeded with `nHashNum * 0xFBA4C795 + nTweak`. -/
def RollingBloomHash (MurmurHash3 : UInt32 → List UInt8 → UInt32) (nHashNum : Nat)
    (nTweak : UInt32) (vDataToHash : List UInt8) : UInt32 :=
  MurmurHash3 (nHashNum.toUInt32 * 0xFBA4C795 + nTweak) vDataToHash

/-- The floating-point part of the constructor for one rate `fpRate`: `RoundedHashFuncs` is
`(int)round(log(fpRate) / log(0.5))`, and `FilterBits m` the value of
`ceil(-1.0 * nHashFuncs * m / log(1.0 - exp(log(fpRate) / nHashFuncs)))` for `m` elements,
before its conversion to `uint32_t`. For a rate in `(0, 1)` the divisor is finite and
negative, so the value is `0` for `m = 0` and positive for `m > 0`. -/
structure FpRateSizing where
  RoundedHashFuncs : Int
  FilterBits : Nat → Nat
  FilterBits_zero : FilterBits 0 = 0
  FilterBits_pos : ∀ m, 0 < m → 0 < FilterBits m

/-- `CRollingBloomFilter`. -/
structure CRollingBloomFilter where
  nEntriesPerGeneration : Nat
  nEntriesThisGeneration : Nat
  nGeneration : Nat
  data : List UInt64
  nTweak : UInt32
  nHashFuncs : Nat
deriving DecidableEq, Repr

namespace CRollingBloomFilter

/-- `bit = h & 0x3F`. -/
def HashBit (h : UInt32) : Nat := (h &&& 0x3F).toNat

/-- `pos = (h >> 6) % data.size()`. -/
def HashPos (size : Nat) (h : UInt32) : UInt32 := ((h >>> 6).toNat % size).toUInt32

/-- One iteration of the loop of `insert`: the two bits of `nGeneration` are written at `bit`
of `data[pos & ~1]` and `data[pos | 1]`. -/
def SetBits (f : CRollingBloomFilter) (h : UInt32) : Except Halt CRollingBloomFilter :=
  if f.data.length = 0 then .error (.abort (str "division by zero: data.size() is 0"))
  else
    let bit := HashBit h
    let pos := HashPos f.data.length h
    let data := f.data.set (pos &&& ~~~1).toNat
      ((f.data.getD (pos &&& ~~~1).toNat 0 &&& ~~~((1 : UInt64) <<< bit.toUInt64)) |||
        ((f.nGeneration &&& 1).toUInt64 <<< bit.toUInt64))
    let data := data.set (pos ||| 1).toNat
      ((data.getD (pos ||| 1).toNat 0 &&& ~~~((1 : UInt64) <<< bit.toUInt64)) |||
        ((f.nGeneration >>> 1).toUInt64 <<< bit.toUInt64))
    .ok { f with data }

/-- The wipe loop of `insert`: each pair `data[p], data[p + 1]` keeps the bits whose tag
differs from the generation given by the two masks. -/
def Wipe (nGenerationMask1 nGenerationMask2 : UInt64) : List UInt64 → List UInt64
  | p1 :: p2 :: rest =>
    let mask := (p1 ^^^ nGenerationMask1) ||| (p2 ^^^ nGenerationMask2)
    (p1 &&& mask) :: (p2 &&& mask) :: Wipe nGenerationMask1 nGenerationMask2 rest
  | rest => rest

/-- The start of a new generation in `insert`. -/
def NewGeneration (f : CRollingBloomFilter) : CRollingBloomFilter :=
  let nGeneration := if f.nGeneration + 1 = 4 then 1 else f.nGeneration + 1
  let nGenerationMask1 : UInt64 := (0 : UInt64) - (nGeneration &&& 1).toUInt64
  let nGenerationMask2 : UInt64 := (0 : UInt64) - (nGeneration >>> 1).toUInt64
  { f with nEntriesThisGeneration := 0, nGeneration,
           data := Wipe nGenerationMask1 nGenerationMask2 f.data }

variable (MurmurHash3 : UInt32 → List UInt8 → UInt32)

/-- `CRollingBloomFilter::insert`. -/
def insert (f : CRollingBloomFilter) (vKey : List UInt8) : Except Halt CRollingBloomFilter :=
  let f := if f.nEntriesThisGeneration = f.nEntriesPerGeneration then f.NewGeneration else f
  let f := { f with nEntriesThisGeneration := f.nEntriesThisGeneration + 1 }
  (List.range f.nHashFuncs).foldlM
    (fun g n => g.SetBits (RollingBloomHash MurmurHash3 n f.nTweak vKey)) f

/-- The loop of `contains` over the hash numbers `ns`. -/
def containsLoop (f : CRollingBloomFilter) (vKey : List UInt8) : List Nat → Except Halt Bool
  | [] => .ok true
  | n :: ns =>
    let h := RollingBloomHash MurmurHash3 n f.nTweak vKey
    if f.data.length = 0 then .error (.abort (str "division by zero: data.size() is 0"))
    else
      let bit := HashBit h
      let pos := HashPos f.data.length h
      if ((f.data.getD (pos &&& ~~~1).toNat 0 ||| f.data.getD (pos ||| 1).toNat 0) >>>
          bit.toUInt64) &&& 1 = 0 then .ok false
      else containsLoop f vKey ns

/-- `CRollingBloomFilter::contains`. -/
def contains (f : CRollingBloomFilter) (vKey : List UInt8) : Except Halt Bool :=
  containsLoop MurmurHash3 f vKey (List.range f.nHashFuncs)

/-- `CRollingBloomFilter::reset`, with `nTweak` the value drawn by `GetRand`. -/
def reset (f : CRollingBloomFilter) (nTweak : UInt32) : CRollingBloomFilter :=
  { f with nTweak, nEntriesThisGeneration := 0, nGeneration := 1, data := f.data.map fun _ => 0 }

/-- The constructor `CRollingBloomFilter(nElements, fpRate)`, with `nTweak` the value that
`reset` draws. -/
def new (nElements : UInt32) (sizing : FpRateSizing) (nTweak : UInt32) :
    Except Halt CRollingBloomFilter :=
  let nHashFuncs := max 1 (min sizing.RoundedHashFuncs 50)
  let nEntriesPerGeneration := ((nElements + 1) / 2).toNat
  if nEntriesPerGeneration * 3 > 2147483647 then
    .error (.abort (str "signed overflow: nEntriesPerGeneration * 3"))
  else
    let nMaxElements := nEntriesPerGeneration * 3
    if sizing.FilterBits nMaxElements ≥ 2 ^ 32 then
      .error (.abort (str "out-of-range conversion of nFilterBits to uint32_t"))
    else
      let nFilterBits : UInt32 := (sizing.FilterBits nMaxElements).toUInt32
      .ok (reset ⟨nEntriesPerGeneration, 0, 0,
        List.replicate (((nFilterBits + 63) / 64) <<< 1).toNat 0, 0, nHashFuncs.toNat⟩ nTweak)

end CRollingBloomFilter

/-- An operation on a rolling Bloom filter. -/
inductive BloomOp
  | insert (vKey : List UInt8)
  | reset (nTweak : UInt32)
deriving DecidableEq, Repr

/-- Apply one operation. -/
def BloomOp.Apply (MurmurHash3 : UInt32 → List UInt8 → UInt32) :
    BloomOp → CRollingBloomFilter → Except Halt CRollingBloomFilter
  | .insert vKey, f => f.insert MurmurHash3 vKey
  | .reset nTweak, f => .ok (f.reset nTweak)

/-- Apply operations one after another. -/
def RunBloom (MurmurHash3 : UInt32 → List UInt8 → UInt32) (f : CRollingBloomFilter)
    (ops : List BloomOp) : Except Halt CRollingBloomFilter :=
  ops.foldlM (fun f op => op.Apply MurmurHash3 f) f

namespace CRollingBloomFilter

theorem getD_set_of_lt {l : List UInt64} {i : Nat} (hi : i < l.length) (a : UInt64) (j : Nat) :
    (l.set i a).getD j 0 = if i = j then a else l.getD j 0 := by
  simp only [List.getD_eq_getElem?_getD, List.getElem?_set, hi, if_true]
  split <;> simp

theorem Wipe_length (m1 m2 : UInt64) : ∀ l, (Wipe m1 m2 l).length = l.length
  | [] => rfl
  | [_] => rfl
  | _ :: _ :: rest => by simp [Wipe, Wipe_length m1 m2 rest]

/-- The pair `w` after the wipe: both words keep the bits where the pair differs from the
masks. -/
theorem getD_Wipe (m1 m2 : UInt64) : ∀ (l : List UInt64), l.length % 2 = 0 → ∀ w,
    let p1 := l.getD (2 * w) 0
    let p2 := l.getD (2 * w + 1) 0
    (Wipe m1 m2 l).getD (2 * w) 0 = p1 &&& ((p1 ^^^ m1) ||| (p2 ^^^ m2)) ∧
      (Wipe m1 m2 l).getD (2 * w + 1) 0 = p2 &&& ((p1 ^^^ m1) ||| (p2 ^^^ m2))
  | [], _, w => by simp [Wipe]
  | [_], h, _ => by simp at h
  | p1 :: p2 :: rest, h, w => by
    cases w with
    | zero => simp [Wipe]
    | succ w =>
      have heven : rest.length % 2 = 0 := by
        simp only [List.length_cons] at h
        omega
      have := getD_Wipe m1 m2 rest heven w
      simp only [Wipe, List.getD_cons_succ, show 2 * (w + 1) = 2 * w + 1 + 1 by omega] at this ⊢
      exact this

/-! ### Cells and their tags -/

/-- The tag of the cell `(w, b)`: bit `b` of `data[2w]`, and twice bit `b` of `data[2w + 1]`. -/
def tagAt (data : List UInt64) (c : Nat × Nat) : Nat :=
  (Word64.bit (data.getD (2 * c.1) 0) c.2).toNat +
    2 * (Word64.bit (data.getD (2 * c.1 + 1) 0) c.2).toNat

/-- The two bits of a generation, `nGeneration & 1` and `nGeneration >> 1`, make its tag. -/
theorem generation_bits {g : Nat} (h1 : 1 ≤ g) (h3 : g ≤ 3) :
    g &&& 1 ≤ 1 ∧ g >>> 1 ≤ 1 ∧ (g &&& 1 == 1).toNat + 2 * (g >>> 1 == 1).toNat = g := by
  obtain rfl | rfl | rfl : g = 1 ∨ g = 2 ∨ g = 3 := by omega
  all_goals decide

/-- The wipe for the generation `g` clears exactly the cells tagged `g`. -/
theorem tagAt_Wipe {g : Nat} (h1 : 1 ≤ g) (h3 : g ≤ 3) {l : List UInt64}
    (heven : l.length % 2 = 0) (c : Nat × Nat) :
    tagAt (Wipe ((0 : UInt64) - (g &&& 1).toUInt64) ((0 : UInt64) - (g >>> 1).toUInt64) l) c =
      if tagAt l c = g then 0 else tagAt l c := by
  obtain ⟨w, b⟩ := c
  obtain ⟨hlo, hhi, htag⟩ := generation_bits h1 h3
  obtain ⟨hw1, hw2⟩ := getD_Wipe ((0 : UInt64) - (g &&& 1).toUInt64)
    ((0 : UInt64) - (g >>> 1).toUInt64) l heven w
  unfold tagAt
  simp only at hw1 hw2 ⊢
  rw [hw1, hw2]
  rcases Nat.lt_or_ge b 64 with hb | hb
  · simp only [Word64.bit_and, Word64.bit_or, Word64.bit_xor, Word64.bit_negMask hlo,
      Word64.bit_negMask hhi, hb, decide_true, Bool.true_and]
    rw [← htag]
    -- the tag is cleared iff both of its bits agree with the generation's
    cases Word64.bit (l.getD (2 * w) 0) b <;> cases Word64.bit (l.getD (2 * w + 1) 0) b <;>
      cases (g &&& 1 == 1) <;> cases (g >>> 1 == 1) <;> decide
  · simp only [Word64.bit_of_le _ hb, Bool.toNat_false]
    split <;> rfl

/-- The cell that the hash `h` marks: the pair `pos / 2` and the bit. -/
def CellOf (size : Nat) (h : UInt32) : Nat × Nat := ((HashPos size h).toNat / 2, HashBit h)

/-- A data vector of an even, nonzero size that 32-bit positions address. -/
structure DataOk (data : List UInt64) : Prop where
  pos : 0 < data.length
  even : data.length % 2 = 0
  le : data.length ≤ 2 ^ 32

theorem HashBit_lt (h : UInt32) : HashBit h < 64 := by
  unfold HashBit
  rw [UInt32.toNat_and]
  exact Nat.lt_of_le_of_lt Nat.and_le_right (by decide)

/-- Both words of the pair of a hash are in range. -/
theorem pair_lt {data : List UInt64} (hd : DataOk data) (h : UInt32) :
    2 * (CellOf data.length h).1 + 1 < data.length := by
  have hpos : (HashPos data.length h).toNat = (h >>> 6).toNat % data.length := by
    unfold HashPos
    exact UInt32.toNat_ofNat_of_lt' (Nat.lt_of_lt_of_le (Nat.mod_lt _ hd.pos) hd.le)
  have := Nat.mod_lt (h >>> 6).toNat hd.pos
  have := hd.even
  unfold CellOf
  omega

/-- One iteration of the loop of `insert` marks the cell of its hash with the generation. -/
theorem SetBits_spec {f : CRollingBloomFilter} (hd : DataOk f.data) (hg1 : 1 ≤ f.nGeneration)
    (hg3 : f.nGeneration ≤ 3) (h : UInt32) :
    ∃ data, f.SetBits h = .ok { f with data } ∧ data.length = f.data.length ∧
      ∀ c, tagAt data c = if c = CellOf f.data.length h then f.nGeneration else tagAt f.data c := by
  obtain ⟨hlo, hhi, htag⟩ := generation_bits hg1 hg3
  have hlt := pair_lt hd h
  have hbit := HashBit_lt h
  have hi1 := Word64.toNat_and_not_one (HashPos f.data.length h)
  have hi2 := Word64.toNat_or_one (HashPos f.data.length h)
  unfold SetBits
  rw [if_neg (Nat.pos_iff_ne_zero.1 hd.pos)]
  dsimp only
  rw [hi1, hi2]
  refine ⟨_, rfl, by simp, ?_⟩
  -- the cell `(w, b)` of the pair `w0 = pos / 2`
  intro ⟨w, b⟩
  unfold CellOf at hlt ⊢
  generalize (HashPos f.data.length h).toNat / 2 = w0 at hlt ⊢
  have hlt1 : 2 * w0 < f.data.length := by omega
  unfold tagAt
  simp only
  have hne : (2 * w0 = 2 * w0 + 1) = False := by simp
  simp only [getD_set_of_lt, List.length_set, hlt, hlt1, hne, if_false]
  by_cases hw : w = w0
  · subst hw
    simp only [show (2 * w + 1 = 2 * w) = False by simp, if_false, if_true,
      Word64.bit_setBit _ hlo hbit, Word64.bit_setBit _ hhi hbit, Prod.mk.injEq, true_and]
    by_cases hb : b = HashBit h
    · simp only [hb, if_true]
      exact htag
    · simp [hb]
  · have h1 : 2 * w0 + 1 ≠ 2 * w := by omega
    have h2 : 2 * w0 ≠ 2 * w + 1 := by omega
    have h3 : 2 * w0 ≠ 2 * w := by omega
    simp [h1, h2, h3, hw]

theorem DataOk.of_length_eq {l l' : List UInt64} (hd : DataOk l) (h : l'.length = l.length) :
    DataOk l' :=
  ⟨h ▸ hd.pos, h ▸ hd.even, h ▸ hd.le⟩

/-- The loop of `insert` marks the cell of every hash with the generation. -/
theorem foldlM_SetBits (H : Nat → UInt32) (ns : List Nat) :
    ∀ {f : CRollingBloomFilter}, DataOk f.data → 1 ≤ f.nGeneration → f.nGeneration ≤ 3 →
      ∃ data, ns.foldlM (fun g n => g.SetBits (H n)) f = .ok { f with data } ∧
        data.length = f.data.length ∧
        ∀ c, tagAt data c = if c ∈ ns.map (fun n => CellOf f.data.length (H n))
          then f.nGeneration else tagAt f.data c := by
  induction ns with
  | nil => exact fun _ _ _ => ⟨_, rfl, rfl, fun c => by simp⟩
  | cons n ns ih =>
    intro f hd hg1 hg3
    obtain ⟨d1, h1, hlen1, htag1⟩ := SetBits_spec hd hg1 hg3 (H n)
    obtain ⟨d2, h2, hlen2, htag2⟩ :=
      ih (f := { f with data := d1 }) (hd.of_length_eq hlen1) hg1 hg3
    refine ⟨d2, ?_, hlen2.trans hlen1, ?_⟩
    · rw [List.foldlM_cons, h1]
      exact h2
    · intro c
      simp only at htag2
      rw [htag2, htag1, hlen1]
      by_cases hc : c = CellOf f.data.length (H n)
      · simp [hc]
      · simp [hc]

/-- The bookkeeping at the start of `insert`: a new generation after `nEntriesPerGeneration`
keys, and the count of the key. -/
def StartEntry (f : CRollingBloomFilter) : CRollingBloomFilter :=
  let f := if f.nEntriesThisGeneration = f.nEntriesPerGeneration then f.NewGeneration else f
  { f with nEntriesThisGeneration := f.nEntriesThisGeneration + 1 }

variable (MurmurHash3 : UInt32 → List UInt8 → UInt32)

theorem insert_eq (f : CRollingBloomFilter) (vKey : List UInt8) :
    f.insert MurmurHash3 vKey = (List.range (StartEntry f).nHashFuncs).foldlM
      (fun g n => g.SetBits (RollingBloomHash MurmurHash3 n (StartEntry f).nTweak vKey))
      (StartEntry f) := rfl

/-- The cells of a key. -/
def Cells (f : CRollingBloomFilter) (vKey : List UInt8) : List (Nat × Nat) :=
  (List.range f.nHashFuncs).map fun n =>
    CellOf f.data.length (RollingBloomHash MurmurHash3 n f.nTweak vKey)

/-- The filter as a generational filter over its cells. -/
def toGenFilter (f : CRollingBloomFilter) : GenFilter.State (Nat × Nat) :=
  ⟨tagAt f.data, f.nGeneration, f.nEntriesThisGeneration⟩

/-- What inserts keep: the size of a generation, the tweak, the number of hash functions and
the size of the data. -/
structure SameLayout (f f' : CRollingBloomFilter) : Prop where
  entries : f'.nEntriesPerGeneration = f.nEntriesPerGeneration
  tweak : f'.nTweak = f.nTweak
  hashFuncs : f'.nHashFuncs = f.nHashFuncs
  size : f'.data.length = f.data.length

theorem SameLayout.trans {f f' f'' : CRollingBloomFilter} (h : SameLayout f f')
    (h' : SameLayout f' f'') : SameLayout f f'' :=
  ⟨h'.entries.trans h.entries, h'.tweak.trans h.tweak, h'.hashFuncs.trans h.hashFuncs,
    h'.size.trans h.size⟩

theorem SameLayout.Cells {f f' : CRollingBloomFilter} (h : SameLayout f f') :
    f'.Cells MurmurHash3 = f.Cells MurmurHash3 := by
  funext vKey
  simp only [CRollingBloomFilter.Cells, h.tweak, h.hashFuncs, h.size]

/-- A filter whose data is addressable and whose generational view is well formed. -/
structure WF (f : CRollingBloomFilter) : Prop where
  data : DataOk f.data
  entries_pos : 1 ≤ f.nEntriesPerGeneration
  gen : GenFilter.State.WF f.nEntriesPerGeneration f.toGenFilter

theorem SameLayout_StartEntry (f : CRollingBloomFilter) : SameLayout f (StartEntry f) := by
  unfold StartEntry
  split
  · exact ⟨rfl, rfl, rfl, Wipe_length _ _ f.data⟩
  · exact ⟨rfl, rfl, rfl, rfl⟩

theorem toGenFilter_NewGeneration {f : CRollingBloomFilter} (hd : DataOk f.data)
    (hg1 : 1 ≤ f.nGeneration) (hg3 : f.nGeneration ≤ 3) :
    f.NewGeneration.toGenFilter = f.toGenFilter.newGeneration := by
  have hnext := GenFilter.next_mem hg1 hg3
  unfold NewGeneration toGenFilter GenFilter.State.newGeneration
  congr 1
  funext c
  exact tagAt_Wipe hnext.1 hnext.2 hd.even c

theorem toGenFilter_StartEntry {f : CRollingBloomFilter} (hd : DataOk f.data)
    (hg1 : 1 ≤ f.nGeneration) (hg3 : f.nGeneration ≤ 3) :
    (StartEntry f).toGenFilter = f.toGenFilter.startEntry f.nEntriesPerGeneration := by
  unfold StartEntry GenFilter.State.startEntry
  by_cases hc : f.nEntriesThisGeneration = f.nEntriesPerGeneration
  · have hc' : f.toGenFilter.count = f.nEntriesPerGeneration := hc
    rw [if_pos hc, if_pos hc', ← toGenFilter_NewGeneration hd hg1 hg3]
    rfl
  · have hc' : f.toGenFilter.count ≠ f.nEntriesPerGeneration := hc
    rw [if_neg hc, if_neg hc']
    rfl

/-- `insert` acts on the tags as the generational filter inserts the cells of the key. -/
theorem insert_spec {f : CRollingBloomFilter} (hf : WF f) (vKey : List UInt8) :
    ∃ f', f.insert MurmurHash3 vKey = .ok f' ∧
      f'.toGenFilter = f.toGenFilter.insert f.nEntriesPerGeneration (f.Cells MurmurHash3 vKey) ∧
      SameLayout f f' := by
  have hstart := toGenFilter_StartEntry hf.data hf.gen.gen_pos hf.gen.gen_le
  have hwf := hf.gen.startEntry hf.entries_pos
  rw [← hstart] at hwf
  have hlay := SameLayout_StartEntry f
  obtain ⟨data, hfold, hlen, htag⟩ :=
    foldlM_SetBits (fun n => RollingBloomHash MurmurHash3 n (StartEntry f).nTweak vKey)
      (List.range (StartEntry f).nHashFuncs) (hf.data.of_length_eq hlay.size) hwf.gen_pos
      hwf.gen_le
  refine ⟨_, (insert_eq MurmurHash3 f vKey).trans hfold, ?_, ?_⟩
  · rw [GenFilter.State.insert, ← hstart, ← hlay.Cells MurmurHash3]
    unfold toGenFilter GenFilter.State.mark
    congr 1
    funext c
    rw [htag c]
    unfold Cells
    split_ifs <;> rfl
  · exact hlay.trans ⟨rfl, rfl, rfl, hlen⟩

theorem SameLayout.WF {f f' : CRollingBloomFilter} (hl : SameLayout f f') (hf : WF f)
    (hg : GenFilter.State.WF f.nEntriesPerGeneration f'.toGenFilter) : WF f' :=
  ⟨hf.data.of_length_eq hl.size, hl.entries ▸ hf.entries_pos, hl.entries ▸ hg⟩

theorem WF.insert {f : CRollingBloomFilter} (hf : WF f) (vKey : List UInt8) :
    ∃ f', f.insert MurmurHash3 vKey = .ok f' ∧ WF f' := by
  obtain ⟨f', hins, htag, hlay⟩ := insert_spec MurmurHash3 hf vKey
  refine ⟨f', hins, hlay.WF hf ?_⟩
  rw [htag]
  exact hf.gen.insert hf.entries_pos _

/-! ### `contains` and `reset` -/

/-- The test of `contains` at a hash fails exactly when the cell of the hash has no tag. -/
theorem test_eq_zero_iff {data : List UInt64} (h : UInt32) :
    ((data.getD (HashPos data.length h &&& ~~~1).toNat 0 |||
        data.getD (HashPos data.length h ||| 1).toNat 0) >>> (HashBit h).toUInt64) &&& 1 = 0 ↔
      tagAt data (CellOf data.length h) = 0 := by
  rw [Word64.shiftRight_and_one_eq_zero _ (HashBit_lt h), Word64.bit_or,
    Word64.toNat_and_not_one, Word64.toNat_or_one]
  unfold tagAt CellOf
  simp only
  cases Word64.bit (data.getD (2 * ((HashPos data.length h).toNat / 2)) 0) (HashBit h) <;>
    cases Word64.bit (data.getD (2 * ((HashPos data.length h).toNat / 2) + 1) 0) (HashBit h) <;>
    simp

theorem containsLoop_eq {f : CRollingBloomFilter} (hd : DataOk f.data) (vKey : List UInt8) :
    ∀ ns, containsLoop MurmurHash3 f vKey ns =
      .ok ((ns.map fun n => CellOf f.data.length (RollingBloomHash MurmurHash3 n f.nTweak vKey)).all
        fun c => tagAt f.data c != 0)
  | [] => rfl
  | n :: ns => by
    simp only [containsLoop, if_neg (Nat.pos_iff_ne_zero.1 hd.pos)]
    by_cases ht : tagAt f.data (CellOf f.data.length (RollingBloomHash MurmurHash3 n f.nTweak vKey)) = 0
    · rw [if_pos ((test_eq_zero_iff _).2 ht)]
      simp [ht]
    · rw [if_neg (mt (test_eq_zero_iff _).1 ht), containsLoop_eq hd vKey ns]
      simp [ht]

/-- `contains` reports whether the generational filter has every cell of the key marked. -/
theorem contains_spec {f : CRollingBloomFilter} (hd : DataOk f.data) (vKey : List UInt8) :
    f.contains MurmurHash3 vKey = .ok (f.toGenFilter.contains (f.Cells MurmurHash3 vKey)) :=
  containsLoop_eq MurmurHash3 hd vKey _

/-- `reset` empties the generational filter. -/
theorem toGenFilter_reset (f : CRollingBloomFilter) (nTweak : UInt32) :
    (f.reset nTweak).toGenFilter = GenFilter.State.empty := by
  unfold reset toGenFilter GenFilter.State.empty
  congr 1
  funext c
  simp [tagAt]

theorem WF.reset {f : CRollingBloomFilter} (hf : WF f) (nTweak : UInt32) : WF (f.reset nTweak) :=
  ⟨hf.data.of_length_eq (List.length_map _), hf.entries_pos,
    (toGenFilter_reset f nTweak) ▸ GenFilter.State.WF.empty _⟩

/-- The size of the data vector: `((nFilterBits + 63) / 64) << 1` words, without wrapping. -/
theorem toNat_data_size (b : Nat) (hb : b + 63 < 2 ^ 32) :
    (((b.toUInt32 + 63) / 64) <<< 1).toNat = 2 * ((b + 63) / 64) := by
  have h1 : b.toUInt32.toNat = b := UInt32.toNat_ofNat_of_lt' (by simp only [UInt32.size]; omega)
  rw [UInt32.toNat_shiftLeft, UInt32.toNat_div, UInt32.toNat_add, h1]
  simp only [Nat.shiftLeft_eq, UInt32.reduceToNat, Nat.reduceMod, Nat.reducePow]
  omega

/-- The constructor builds a well-formed filter when `nEntriesPerGeneration * 3` fits an `int`
and the data size does not wrap. -/
theorem new_spec (nElements : UInt32) (sizing : FpRateSizing) (nTweak : UInt32)
    (hn : 1 ≤ nElements.toNat) (hover : nElements.toNat ≤ 1431655764)
    (hbits : sizing.FilterBits (3 * ((nElements.toNat + 1) / 2)) + 63 < 2 ^ 32) :
    ∃ f0, new nElements sizing nTweak = .ok f0 ∧ WF f0 ∧
      f0.nEntriesPerGeneration = (nElements.toNat + 1) / 2 := by
  have hE : ((nElements + 1) / 2).toNat = (nElements.toNat + 1) / 2 := by
    rw [UInt32.toNat_div, UInt32.toNat_add]
    simp only [UInt32.reduceToNat]
    omega
  have hpos : 0 < sizing.FilterBits (3 * ((nElements.toNat + 1) / 2)) :=
    sizing.FilterBits_pos _ (by omega)
  unfold new
  rw [hE, if_neg (by omega), Nat.mul_comm, if_neg (by omega)]
  refine ⟨_, rfl, ⟨⟨?_, ?_, ?_⟩, by simp only [reset]; omega, ?_⟩, rfl⟩
  · simp only [reset, List.length_map, List.length_replicate, toNat_data_size _ hbits]
    omega
  · simp only [reset, List.length_map, List.length_replicate, toNat_data_size _ hbits]
    omega
  · simp only [reset, List.length_map, List.length_replicate, toNat_data_size _ hbits]
    omega
  · rw [toGenFilter_reset]
    exact GenFilter.State.WF.empty _

end CRollingBloomFilter

/-! ### Runs -/

section Runs

variable (MurmurHash3 : UInt32 → List UInt8 → UInt32)

open CRollingBloomFilter

theorem RunBloom_cons (f : CRollingBloomFilter) (op : BloomOp) (ops : List BloomOp) :
    RunBloom MurmurHash3 f (op :: ops) =
      (op.Apply MurmurHash3 f >>= fun f' => RunBloom MurmurHash3 f' ops) :=
  List.foldlM_cons

theorem RunBloom_append (f : CRollingBloomFilter) (ops ops' : List BloomOp) :
    RunBloom MurmurHash3 f (ops ++ ops') =
      (RunBloom MurmurHash3 f ops >>= fun f' => RunBloom MurmurHash3 f' ops') :=
  List.foldlM_append

/-- From a well-formed filter every run succeeds and stays well formed. -/
theorem RunBloom_spec (ops : List BloomOp) :
    ∀ {f : CRollingBloomFilter}, WF f →
      ∃ f', RunBloom MurmurHash3 f ops = .ok f' ∧ WF f' ∧
        f'.nEntriesPerGeneration = f.nEntriesPerGeneration := by
  induction ops with
  | nil => exact fun hf => ⟨_, rfl, hf, rfl⟩
  | cons op ops ih =>
    intro f hf
    -- one step: an insert keeps the layout, a reset keeps the size of a generation
    obtain ⟨f1, hstep, hwf1, hE1⟩ : ∃ f1, op.Apply MurmurHash3 f = .ok f1 ∧ WF f1 ∧
        f1.nEntriesPerGeneration = f.nEntriesPerGeneration := by
      cases op with
      | insert vKey =>
        obtain ⟨f1, hins, htag, hlay⟩ := insert_spec MurmurHash3 hf vKey
        refine ⟨f1, hins, hlay.WF hf ?_, hlay.entries⟩
        rw [htag]
        exact hf.gen.insert hf.entries_pos _
      | reset nTweak => exact ⟨_, rfl, hf.reset nTweak, rfl⟩
    obtain ⟨f', hrun, hwf', hE'⟩ := ih hwf1
    exact ⟨f', by rw [RunBloom_cons, hstep]; exact hrun, hwf', hE'.trans hE1⟩

/-- A run of inserts acts on the tags as the generational filter inserts the cells of the
keys. -/
theorem RunBloom_inserts (keys : List (List UInt8)) :
    ∀ {f : CRollingBloomFilter}, WF f →
      ∃ f', RunBloom MurmurHash3 f (keys.map .insert) = .ok f' ∧
        f'.toGenFilter = f.toGenFilter.run f.nEntriesPerGeneration (keys.map (f.Cells MurmurHash3)) ∧
        SameLayout f f' := by
  induction keys with
  | nil => exact fun _ => ⟨_, rfl, rfl, ⟨rfl, rfl, rfl, rfl⟩⟩
  | cons vKey keys ih =>
    intro f hf
    obtain ⟨f1, hins, htag1, hlay1⟩ := insert_spec MurmurHash3 hf vKey
    have hwf1 : WF f1 := hlay1.WF hf (htag1 ▸ hf.gen.insert hf.entries_pos _)
    obtain ⟨f', hrun, htag', hlay'⟩ := ih hwf1
    refine ⟨f', ?_, ?_, hlay1.trans hlay'⟩
    · rw [List.map_cons, RunBloom_cons]
      exact (congrArg (· >>= fun f' => RunBloom MurmurHash3 f' (keys.map .insert)) hins).trans hrun
    · rw [htag', htag1, hlay1.entries, hlay1.Cells]
      rfl

end Runs

/-! ### No false negatives within the window -/

/-- A sizing near that of `recentRejects`, `CRollingBloomFilter(120000, 0.000001)`: `20` hash
functions and `28.755278677` bits per element, rounded up. -/
def SampleSizing : FpRateSizing where
  RoundedHashFuncs := 20
  FilterBits m := (m * 28755278677 + 999999999) / 1000000000
  FilterBits_zero := rfl
  FilterBits_pos _ hm := by omega

open CRollingBloomFilter in
theorem rolling_bloom_no_false_negatives (MurmurHash3 : UInt32 → List UInt8 → UInt32)
    (nElements : UInt32) (sizing : FpRateSizing) (nTweak : UInt32)
    (hn : 1 ≤ nElements.toNat) (hover : nElements.toNat ≤ 1431655764)
    (hbits : sizing.FilterBits (3 * ((nElements.toNat + 1) / 2)) + 63 < 2 ^ 32)
    (pre : List BloomOp) (x : List UInt8) (post : List (List UInt8))
    (hpost : post.length ≤ 2 * ((nElements.toNat + 1) / 2)) :
    ∃ f0, CRollingBloomFilter.new nElements sizing nTweak = .ok f0 ∧
      f0.nEntriesPerGeneration = (nElements.toNat + 1) / 2 ∧
      nElements.toNat ≤ 2 * f0.nEntriesPerGeneration ∧
      ∃ f, RunBloom MurmurHash3 f0 (pre ++ .insert x :: post.map .insert) = .ok f ∧
        f.contains MurmurHash3 x = .ok true := by
  obtain ⟨f0, hnew, hwf0, hE⟩ := new_spec nElements sizing nTweak hn hover hbits
  refine ⟨f0, hnew, hE, by omega, ?_⟩
  -- the operations before `x`, then `x`, then the inserts after it
  obtain ⟨f1, hrun1, hwf1, hE1⟩ := RunBloom_spec MurmurHash3 pre hwf0
  obtain ⟨f2, hins, htag2, hlay2⟩ := insert_spec MurmurHash3 hwf1 x
  have hwf2 : WF f2 := hlay2.WF hwf1 (htag2 ▸ hwf1.gen.insert hwf1.entries_pos _)
  obtain ⟨f3, hrun3, htag3, hlay3⟩ := RunBloom_inserts MurmurHash3 post hwf2
  refine ⟨f3, ?_, ?_⟩
  · rw [RunBloom_append, hrun1]
    change RunBloom MurmurHash3 f1 (.insert x :: post.map .insert) = _
    rw [RunBloom_cons]
    exact (congrArg (· >>= fun f' => RunBloom MurmurHash3 f' (post.map .insert)) hins).trans hrun3
  · have hwindow := GenFilter.State.contains_insert_run hwf1.gen hwf1.entries_pos
      (f1.Cells MurmurHash3 x) (post.map (f1.Cells MurmurHash3)) (by simp; omega)
    rw [contains_spec MurmurHash3 (hwf2.data.of_length_eq hlay3.size), htag3, hlay3.Cells,
      hlay2.Cells, htag2, hlay2.entries, hwindow]

theorem rolling_bloom_no_false_negatives_sample :
    1 ≤ (10 : UInt32).toNat ∧ (10 : UInt32).toNat ≤ 1431655764 ∧
    SampleSizing.FilterBits (3 * (((10 : UInt32).toNat + 1) / 2)) + 63 < 2 ^ 32 ∧
    [[2], [3]].length ≤ 2 * (((10 : UInt32).toNat + 1) / 2) ∧
    ∃ f0, CRollingBloomFilter.new 10 SampleSizing 7 = .ok f0 ∧
      f0.nEntriesPerGeneration = ((10 : UInt32).toNat + 1) / 2 ∧
      (10 : UInt32).toNat ≤ 2 * f0.nEntriesPerGeneration ∧
      ∃ f, RunBloom (fun seed _ => seed) f0
          ([.insert [1], .reset 5] ++ .insert [9] :: [[2], [3]].map .insert) = .ok f ∧
        f.contains (fun seed _ => seed) [9] = .ok true :=
  ⟨by decide, by decide, by decide, by decide,
    rolling_bloom_no_false_negatives (fun seed _ => seed) 10 SampleSizing 7 (by decide) (by decide)
      (by decide) [.insert [1], .reset 5] [9] [[2], [3]] (by decide)⟩

end Ravencoin
