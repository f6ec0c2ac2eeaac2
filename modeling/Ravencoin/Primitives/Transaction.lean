import Ravencoin.Serialize.Codes

/-!
# The wire format of transactions (`primitives/transaction.h`)

A transaction is written in one of two formats. The basic one is the version, the inputs, the
outputs and the lock time. The extended one, which `SerializeTransaction` uses when witnesses
are allowed and some input has one, puts a dummy empty input vector and a flags byte after the
version and the witness stack of every input after the outputs. `UnserializeTransaction` tells
the two apart by reading the inputs first: an empty input vector, with witnesses allowed, is
taken for the dummy, and the byte after it for the flags.

That test is ambiguous. A transaction with no inputs and some outputs is written in the basic
format, and its empty input vector is then read as the dummy and the output count as the flags.
This module proves that the reader accepts exactly the two formats of what it returns, and that
the writer's output is read back exactly when that ambiguity does not arise.

## Main definitions

* `Ravencoin.CScriptWitness`, `Ravencoin.CMutableTransaction` — a transaction with the witness
  of each input, and `Ravencoin.CMutableTransaction.HasWitness`.
* `Ravencoin.SerializeTransaction`, `Ravencoin.UnserializeTransaction`, with the helpers
  `Ravencoin.ReadVinVout` and `Ravencoin.ReadWitnesses` that read the parts after the first
  input vector.
* `Ravencoin.TransactionBytes` — the basic and the extended format of a transaction.
* `Ravencoin.CMutableTransaction.Fits` — every count, byte string and integer within what its
  reader admits.

## Main results

* `Ravencoin.COutPoint_code`, `Ravencoin.CTxIn_code`, `Ravencoin.CTxOut_code`,
  `Ravencoin.CScriptWitness_code` — the parts of a transaction are prefix codes.
* `Ravencoin.UnserializeTransaction_eq_some_iff` — the reader accepts exactly the two formats:
  the extended one with witnesses allowed, and the basic one of a transaction without witnesses
  that is not taken for the extended one.
* `Ravencoin.SerializeTransaction_round_trip` — the writer's output is read back exactly when it
  is not taken for the extended format.
* `Ravencoin.GetSerializeSize_eq_length` — the serialized size the consensus checks use is the
  length of the writer's output without witnesses.

## Implementation notes

A read that throws `std::ios_base::failure` in the source, at the end of the stream, on a size
above `MAX_SIZE` or on unknown flags ("Unknown transaction optional data"), is a failed read. The
C++ `CTxIn` holds its `scriptWitness`, which only the transaction serializes; here an input of
`CMutableTransaction` is the pair of the `CTxIn` of the rest of the model and its witness.
-/

set_option autoImplicit false

namespace Ravencoin

open ByteStream

/-! ### Outpoints, inputs, outputs and witnesses -/

/-- `COutPoint::SerializationOp` reading: the hash, then the index. -/
def COutPoint.Unserialize : Reader COutPoint := do
  let hash ← ReadUint256
  let n ← ReadUInt32
  return ⟨hash, n⟩

/-- `COutPoint::SerializationOp` writing. -/
def COutPoint.Serialize (o : COutPoint) : List UInt8 := WriteUint256 o.hash ++ WriteUInt32 o.n

/-- `CTxIn::SerializationOp` reading: the outpoint, the `scriptSig` (a byte vector, written as
a string is) and the sequence number. -/
def CTxIn.Unserialize : Reader CTxIn := do
  let prevout ← COutPoint.Unserialize
  let scriptSig ← ReadString
  let nSequence ← ReadUInt32
  return ⟨prevout, scriptSig, nSequence⟩

/-- `CTxIn::SerializationOp` writing. -/
def CTxIn.Serialize (txin : CTxIn) : List UInt8 :=
  COutPoint.Serialize txin.prevout ++ WriteString txin.scriptSig ++ WriteUInt32 txin.nSequence

/-- `CTxOut::SerializationOp` reading: the amount, then the `scriptPubKey`. -/
def CTxOut.Unserialize : Reader CTxOut := do
  let nValue ← ReadInt64
  let scriptPubKey ← ReadString
  return ⟨nValue, scriptPubKey⟩

/-- `CTxOut::SerializationOp` writing. -/
def CTxOut.Serialize (txout : CTxOut) : List UInt8 :=
  WriteInt64 txout.nValue ++ WriteString txout.scriptPubKey

/-- `CScriptWitness`: the witness stack of an input. -/
structure CScriptWitness where
  stack : List (List UInt8)
deriving DecidableEq, Repr

/-- `CScriptWitness::IsNull`. -/
def CScriptWitness.IsNull (w : CScriptWitness) : Bool := w.stack.isEmpty

/-- `s >> tx.vin[i].scriptWitness.stack`: a vector of byte vectors. -/
def CScriptWitness.Unserialize : Reader CScriptWitness := do
  let stack ← ReadVector ReadString
  return ⟨stack⟩

/-- `s << tx.vin[i].scriptWitness.stack`. -/
def CScriptWitness.Serialize (w : CScriptWitness) : List UInt8 := WriteVector WriteString w.stack

/-- What the reader of an input admits: a `scriptSig` of at most `MAX_SIZE` bytes. -/
def CTxIn.Fits (txin : CTxIn) : Prop := txin.scriptSig.length ≤ MAX_SIZE

/-- What the reader of an output admits: an `int64_t` amount and a `scriptPubKey` of at most
`MAX_SIZE` bytes. -/
def CTxOut.Fits (txout : CTxOut) : Prop :=
  (-2 ^ 63 ≤ txout.nValue ∧ txout.nValue < 2 ^ 63) ∧ txout.scriptPubKey.length ≤ MAX_SIZE

/-- What the reader of a witness admits: at most `MAX_SIZE` items of at most `MAX_SIZE`
bytes. -/
def CScriptWitness.Fits (w : CScriptWitness) : Prop :=
  w.stack.length ≤ MAX_SIZE ∧ ∀ item ∈ w.stack, item.length ≤ MAX_SIZE

instance : DecidablePred CTxIn.Fits := fun txin =>
  inferInstanceAs (Decidable (txin.scriptSig.length ≤ MAX_SIZE))

instance : DecidablePred CTxOut.Fits := fun txout =>
  inferInstanceAs (Decidable ((-2 ^ 63 ≤ txout.nValue ∧ txout.nValue < 2 ^ 63) ∧
    txout.scriptPubKey.length ≤ MAX_SIZE))

instance : DecidablePred CScriptWitness.Fits := fun w =>
  inferInstanceAs (Decidable (w.stack.length ≤ MAX_SIZE ∧ ∀ item ∈ w.stack, item.length ≤ MAX_SIZE))

theorem COutPoint_code : PrefixCode COutPoint.Unserialize COutPoint.Serialize (fun _ => True) where
  read_write := by
    intro o _ rest
    rw [COutPoint.Unserialize, COutPoint.Serialize, List.append_assoc, bind_apply,
      ReadUint256_code.read_write o.hash trivial, Option.bind_some, bind_apply,
      ReadUInt32_code.read_write o.n trivial, Option.bind_some, pure_apply]
  sound := by
    intro s o s' hr
    obtain ⟨hash, s₁, hhash, hr⟩ := bind_eq_some.mp hr
    obtain ⟨n, s₂, hn, hr⟩ := bind_eq_some.mp hr
    cases (hr : some ((⟨hash, n⟩ : COutPoint), s₂) = some (o, s'))
    obtain ⟨-, rfl⟩ := ReadUint256_code.sound hhash
    obtain ⟨-, rfl⟩ := ReadUInt32_code.sound hn
    exact ⟨trivial, by rw [COutPoint.Serialize, List.append_assoc]⟩

theorem CTxIn_code : PrefixCode CTxIn.Unserialize CTxIn.Serialize CTxIn.Fits where
  read_write := by
    intro txin hfits rest
    rw [CTxIn.Unserialize, CTxIn.Serialize, List.append_assoc, List.append_assoc, bind_apply,
      COutPoint_code.read_write txin.prevout trivial, Option.bind_some, bind_apply,
      ReadString_code.read_write txin.scriptSig hfits, Option.bind_some, bind_apply,
      ReadUInt32_code.read_write txin.nSequence trivial, Option.bind_some, pure_apply]
  sound := by
    intro s txin s' hr
    obtain ⟨prevout, s₁, hprevout, hr⟩ := bind_eq_some.mp hr
    obtain ⟨scriptSig, s₂, hscript, hr⟩ := bind_eq_some.mp hr
    obtain ⟨nSequence, s₃, hseq, hr⟩ := bind_eq_some.mp hr
    cases (hr : some ((⟨prevout, scriptSig, nSequence⟩ : CTxIn), s₃) = some (txin, s'))
    obtain ⟨-, rfl⟩ := COutPoint_code.sound hprevout
    obtain ⟨hsize, rfl⟩ := ReadString_code.sound hscript
    obtain ⟨-, rfl⟩ := ReadUInt32_code.sound hseq
    exact ⟨hsize, by rw [CTxIn.Serialize, List.append_assoc, List.append_assoc]⟩

theorem CTxOut_code : PrefixCode CTxOut.Unserialize CTxOut.Serialize CTxOut.Fits where
  read_write := by
    intro txout hfits rest
    rw [CTxOut.Unserialize, CTxOut.Serialize, List.append_assoc, bind_apply,
      ReadInt64_code.read_write txout.nValue hfits.1, Option.bind_some, bind_apply,
      ReadString_code.read_write txout.scriptPubKey hfits.2, Option.bind_some, pure_apply]
  sound := by
    intro s txout s' hr
    obtain ⟨nValue, s₁, hvalue, hr⟩ := bind_eq_some.mp hr
    obtain ⟨scriptPubKey, s₂, hscript, hr⟩ := bind_eq_some.mp hr
    cases (hr : some ((⟨nValue, scriptPubKey⟩ : CTxOut), s₂) = some (txout, s'))
    obtain ⟨hrange, rfl⟩ := ReadInt64_code.sound hvalue
    obtain ⟨hsize, rfl⟩ := ReadString_code.sound hscript
    exact ⟨⟨hrange, hsize⟩, by rw [CTxOut.Serialize, List.append_assoc]⟩

theorem CScriptWitness_code :
    PrefixCode CScriptWitness.Unserialize CScriptWitness.Serialize CScriptWitness.Fits :=
  (ReadVector_code ReadString_code).map (fun _ hw => hw) (fun _ _ => rfl) (fun _ hw => hw)
    (fun _ _ => rfl)

/-! ### Transactions -/

/-- `CMutableTransaction`; an input is the `CTxIn` with its `scriptWitness`. -/
structure CMutableTransaction where
  vin : List (CTxIn × CScriptWitness)
  vout : List CTxOut
  nVersion : Int
  nLockTime : UInt32
deriving DecidableEq, Repr

/-- `CMutableTransaction::HasWitness`: some input has a witness. -/
def CMutableTransaction.HasWitness (tx : CMutableTransaction) : Bool :=
  tx.vin.any fun txin => !txin.2.IsNull

/-- The transaction with the witness of every input removed. -/
def CMutableTransaction.WithoutWitness (tx : CMutableTransaction) : CMutableTransaction :=
  { tx with vin := tx.vin.map fun txin => (txin.1, ⟨[]⟩) }

/-- What the reader of a transaction admits: an `int32_t` version, and inputs, witnesses and
outputs that their readers admit. -/
def CMutableTransaction.Fits (tx : CMutableTransaction) : Prop :=
  (-2 ^ 31 ≤ tx.nVersion ∧ tx.nVersion < 2 ^ 31) ∧
    (tx.vin.length ≤ MAX_SIZE ∧ ∀ txin ∈ tx.vin, txin.1.Fits ∧ txin.2.Fits) ∧
    tx.vout.length ≤ MAX_SIZE ∧ ∀ txout ∈ tx.vout, txout.Fits

instance : DecidablePred CMutableTransaction.Fits := fun tx =>
  inferInstanceAs (Decidable ((-2 ^ 31 ≤ tx.nVersion ∧ tx.nVersion < 2 ^ 31) ∧
    (tx.vin.length ≤ MAX_SIZE ∧ ∀ txin ∈ tx.vin, txin.1.Fits ∧ txin.2.Fits) ∧
    tx.vout.length ≤ MAX_SIZE ∧ ∀ txout ∈ tx.vout, txout.Fits))

/-- The inputs of a transaction that fits, without their witnesses, are a vector the input
reader admits. -/
theorem CMutableTransaction.Fits.inputs {tx : CMutableTransaction} (h : tx.Fits) :
    (tx.vin.map Prod.fst).length ≤ MAX_SIZE ∧ ∀ txin ∈ tx.vin.map Prod.fst, txin.Fits := by
  obtain ⟨-, ⟨hlen, hvin⟩, -⟩ := h
  refine ⟨by simpa using hlen, ?_⟩
  simp only [List.mem_map]
  rintro _ ⟨txin, htxin, rfl⟩
  exact (hvin txin htxin).1

/-- Their witnesses are one for each input, each admitted by the witness reader. -/
theorem CMutableTransaction.Fits.witnesses {tx : CMutableTransaction} (h : tx.Fits) :
    (tx.vin.map Prod.snd).length = (tx.vin.map Prod.fst).length ∧
      ∀ w ∈ tx.vin.map Prod.snd, w.Fits := by
  obtain ⟨-, ⟨-, hvin⟩, -⟩ := h
  refine ⟨by simp, ?_⟩
  simp only [List.mem_map]
  rintro _ ⟨txin, htxin, rfl⟩
  exact (hvin txin htxin).2

/-- The part of `UnserializeTransaction` after the first input vector. An empty one, with
witnesses allowed, is taken for the dummy of the extended format: the flags byte follows, and
after nonzero flags the real inputs and the outputs. Otherwise the outputs follow and the flags
stay `0`. -/
def ReadVinVout (fAllowWitness : Bool) (vin : List CTxIn) :
    Reader (UInt8 × List CTxIn × List CTxOut) :=
  if vin.length == 0 && fAllowWitness then do
    -- we read a dummy or an empty vin
    let flags ← readByte
    if flags != 0 then do
      let vin ← ReadVector CTxIn.Unserialize
      let vout ← ReadVector CTxOut.Unserialize
      return (flags, vin, vout)
    else return (flags, vin, [])
  else do
    -- we read a non-empty vin; assume a normal vout follows
    let vout ← ReadVector CTxOut.Unserialize
    return (0, vin, vout)

/-- The witness part of `UnserializeTransaction`: with the witness flag set and witnesses
allowed, the flag is cleared and a witness stack read for every input; otherwise every input
keeps the empty witness it was read with. -/
def ReadWitnesses (fAllowWitness : Bool) (flags : UInt8) (vin : List CTxIn) :
    Reader (UInt8 × List CScriptWitness) :=
  if (flags &&& 1 != 0) && fAllowWitness then do
    let wit ← readCount CScriptWitness.Unserialize vin.length
    return (flags ^^^ 1, wit)
  else return (flags, vin.map fun _ => ⟨[]⟩)

/-- `UnserializeTransaction`; `fAllowWitness` is `!(s.GetVersion() &
SERIALIZE_TRANSACTION_NO_WITNESS)`. -/
def UnserializeTransaction (fAllowWitness : Bool) : Reader CMutableTransaction := do
  let nVersion ← ReadInt32
  -- in case the dummy is there, this reads an empty vector
  let vin ← ReadVector CTxIn.Unserialize
  let (flags, vin, vout) ← ReadVinVout fAllowWitness vin
  let (flags, wit) ← ReadWitnesses fAllowWitness flags vin
  -- "Unknown transaction optional data"
  if flags != 0 then failure
  let nLockTime ← ReadUInt32
  return ⟨vin.zip wit, vout, nVersion, nLockTime⟩

/-- `SerializeTransaction`: the extended format exactly when witnesses are allowed and some
input has one. -/
def SerializeTransaction (fAllowWitness : Bool) (tx : CMutableTransaction) : List UInt8 :=
  let flags : UInt8 := if fAllowWitness && tx.HasWitness then 1 else 0
  WriteInt32 tx.nVersion ++
    (if flags != 0 then WriteVector CTxIn.Serialize [] ++ [flags] else []) ++
    WriteVector CTxIn.Serialize (tx.vin.map Prod.fst) ++ WriteVector CTxOut.Serialize tx.vout ++
    (if flags &&& 1 != 0 then writeAll CScriptWitness.Serialize (tx.vin.map Prod.snd) else []) ++
    WriteUInt32 tx.nLockTime

/-- The two formats of a transaction: the basic one, and the extended one, which puts a dummy
empty input vector and the flags byte `1` before the inputs and the witness of every input after
the outputs. -/
def TransactionBytes (extended : Bool) (tx : CMutableTransaction) : List UInt8 :=
  WriteInt32 tx.nVersion ++ (if extended then [0, 1] else []) ++
    WriteVector CTxIn.Serialize (tx.vin.map Prod.fst) ++ WriteVector CTxOut.Serialize tx.vout ++
    (if extended then writeAll CScriptWitness.Serialize (tx.vin.map Prod.snd) else []) ++
    WriteUInt32 tx.nLockTime

/-! ### Reading a transaction, step by step -/

/-- The run of `UnserializeTransaction`: its reads in turn, the flags cleared at the end, and
the inputs paired with their witnesses. -/
theorem UnserializeTransaction_eq_some {f : Bool} {s s' : List UInt8} {tx : CMutableTransaction} :
    UnserializeTransaction f s = some (tx, s') ↔
      ∃ nVersion s₁ vin₀ s₂ flags vin vout s₃ wit s₄ nLockTime,
        ReadInt32 s = some (nVersion, s₁) ∧ ReadVector CTxIn.Unserialize s₁ = some (vin₀, s₂) ∧
        ReadVinVout f vin₀ s₂ = some ((flags, vin, vout), s₃) ∧
        ReadWitnesses f flags vin s₃ = some ((0, wit), s₄) ∧
        ReadUInt32 s₄ = some (nLockTime, s') ∧ tx = ⟨vin.zip wit, vout, nVersion, nLockTime⟩ := by
  constructor
  · intro h
    obtain ⟨nVersion, s₁, hversion, h⟩ := bind_eq_some.mp h
    obtain ⟨vin₀, s₂, hvin₀, h⟩ := bind_eq_some.mp h
    obtain ⟨⟨flags, vin, vout⟩, s₃, hvinvout, h⟩ := bind_eq_some.mp h
    obtain ⟨⟨flags', wit⟩, s₄, hwit, h⟩ := bind_eq_some.mp h
    dsimp only at h
    by_cases hflags : flags' = 0
    · subst hflags
      rw [if_neg (by decide)] at h
      obtain ⟨nLockTime, s₅, hlock, h⟩ := bind_eq_some.mp h
      cases (h : some ((⟨vin.zip wit, vout, nVersion, nLockTime⟩ : CMutableTransaction), s₅) =
        some (tx, s'))
      exact ⟨nVersion, s₁, vin₀, s₂, flags, vin, vout, s₃, wit, s₄, nLockTime, hversion, hvin₀,
        hvinvout, hwit, hlock, rfl⟩
    · -- "Unknown transaction optional data"
      rw [if_pos (bne_iff_ne.2 hflags)] at h
      cases h
  · rintro ⟨nVersion, s₁, vin₀, s₂, flags, vin, vout, s₃, wit, s₄, nLockTime, h1, h2, h3, h4, h5,
      rfl⟩
    rw [UnserializeTransaction, bind_apply, h1, Option.bind_some, bind_apply, h2, Option.bind_some,
      bind_apply, h3, Option.bind_some]
    dsimp only
    rw [bind_apply, h4, Option.bind_some]
    dsimp only
    rw [if_neg (by decide), bind_apply, h5, Option.bind_some, pure_apply]

/-! ### The parts after the first input vector -/

/-- The outputs after the inputs, with zero flags. An empty output vector is also what an empty
input vector with witnesses allowed is followed by, and it is then read as zero flags. -/
theorem ReadVinVout_basic {f : Bool} {vin : List CTxIn} {vout : List CTxOut}
    (hvout : vout.length ≤ MAX_SIZE ∧ ∀ txout ∈ vout, txout.Fits)
    (hdummy : f = true → vin = [] → vout = []) (rest : List UInt8) :
    ReadVinVout f vin (WriteVector CTxOut.Serialize vout ++ rest) = some ((0, vin, vout), rest) := by
  unfold ReadVinVout
  by_cases hempty : (vin.length == 0 && f) = true
  · obtain ⟨hvin, hf⟩ : vin = [] ∧ f = true := by simpa using hempty
    obtain rfl := hdummy hf hvin
    rw [if_pos hempty, WriteVector_nil, bind_apply, List.singleton_append, readByte_cons,
      Option.bind_some]
    rfl
  · rw [if_neg hempty, bind_apply, (ReadVector_code CTxOut_code).read_write vout hvout rest,
      Option.bind_some, pure_apply]

/-- Nonzero flags after the dummy: the real inputs and the outputs follow. -/
theorem ReadVinVout_flags {flags : UInt8} (hflags : flags ≠ 0) {vin : List CTxIn}
    {vout : List CTxOut} (hvin : vin.length ≤ MAX_SIZE ∧ ∀ txin ∈ vin, txin.Fits)
    (hvout : vout.length ≤ MAX_SIZE ∧ ∀ txout ∈ vout, txout.Fits) (rest : List UInt8) :
    ReadVinVout true []
        (flags :: (WriteVector CTxIn.Serialize vin ++ (WriteVector CTxOut.Serialize vout ++ rest))) =
      some ((flags, vin, vout), rest) := by
  rw [ReadVinVout, if_pos (by rfl), bind_apply, readByte_cons, Option.bind_some]
  dsimp only
  rw [if_pos (bne_iff_ne.2 hflags), bind_apply, (ReadVector_code CTxIn_code).read_write vin hvin,
    Option.bind_some, bind_apply, (ReadVector_code CTxOut_code).read_write vout hvout rest,
    Option.bind_some, pure_apply]

/-- What `ReadVinVout` accepts: the outputs, with zero flags and the inputs kept; or, after an
empty input vector with witnesses allowed, nonzero flags and the real inputs and outputs. -/
theorem ReadVinVout_sound {f : Bool} {vin₀ vin : List CTxIn} {vout : List CTxOut}
    {flags : UInt8} {s s' : List UInt8} (h : ReadVinVout f vin₀ s = some ((flags, vin, vout), s')) :
    (vout.length ≤ MAX_SIZE ∧ ∀ txout ∈ vout, txout.Fits) ∧
      ((flags = 0 ∧ vin = vin₀ ∧ (f = true → vin₀ = [] → vout = []) ∧
          s = WriteVector CTxOut.Serialize vout ++ s') ∨
        (flags ≠ 0 ∧ vin₀ = [] ∧ f = true ∧ (vin.length ≤ MAX_SIZE ∧ ∀ txin ∈ vin, txin.Fits) ∧
          s = flags ::
            (WriteVector CTxIn.Serialize vin ++ (WriteVector CTxOut.Serialize vout ++ s')))) := by
  unfold ReadVinVout at h
  by_cases hempty : (vin₀.length == 0 && f) = true
  · obtain ⟨hvin₀, hf⟩ : vin₀ = [] ∧ f = true := by simpa using hempty
    rw [if_pos hempty] at h
    obtain ⟨flags', s₁, hbyte, h⟩ := bind_eq_some.mp h
    have hs : s = flags' :: s₁ := (readByte_code.sound hbyte).2
    by_cases hflags : flags' = 0
    · -- zero flags: the empty input vector stands, and no outputs are read
      rw [if_neg (by simp [hflags])] at h
      cases (h : some ((flags', vin₀, []), s₁) = some ((flags, vin, vout), s'))
      refine ⟨⟨Nat.zero_le _, fun _ h => absurd h List.not_mem_nil⟩,
        Or.inl ⟨hflags, rfl, fun _ _ => rfl, ?_⟩⟩
      rw [hs, hflags, WriteVector_nil, List.singleton_append]
    · rw [if_pos (bne_iff_ne.2 hflags)] at h
      obtain ⟨vin₁, s₂, hvin, h⟩ := bind_eq_some.mp h
      obtain ⟨vout₁, s₃, hvout, h⟩ := bind_eq_some.mp h
      cases (h : some ((flags', vin₁, vout₁), s₃) = some ((flags, vin, vout), s'))
      obtain ⟨hvinfits, rfl⟩ := (ReadVector_code CTxIn_code).sound hvin
      obtain ⟨hvoutfits, rfl⟩ := (ReadVector_code CTxOut_code).sound hvout
      exact ⟨hvoutfits, Or.inr ⟨hflags, hvin₀, hf, hvinfits, hs⟩⟩
  · rw [if_neg hempty] at h
    obtain ⟨vout₁, s₁, hvout, h⟩ := bind_eq_some.mp h
    cases (h : some ((0, vin₀, vout₁), s₁) = some ((flags, vin, vout), s'))
    obtain ⟨hvoutfits, rfl⟩ := (ReadVector_code CTxOut_code).sound hvout
    refine ⟨hvoutfits, Or.inl ⟨rfl, rfl, fun hf hvin₀ => ?_, rfl⟩⟩
    simp [hf, hvin₀] at hempty

/-- Zero flags: no witness is read. -/
theorem ReadWitnesses_zero (f : Bool) (vin : List CTxIn) (s : List UInt8) :
    ReadWitnesses f 0 vin s = some ((0, vin.map fun _ => ⟨[]⟩), s) := by
  rw [ReadWitnesses, if_neg (by simp)]
  rfl

/-- The witness flag alone: a witness for every input, and the flag cleared. -/
theorem ReadWitnesses_one {vin : List CTxIn} {wit : List CScriptWitness}
    (hlen : wit.length = vin.length) (hwit : ∀ w ∈ wit, w.Fits) (rest : List UInt8) :
    ReadWitnesses true 1 vin (writeAll CScriptWitness.Serialize wit ++ rest) =
      some ((0, wit), rest) := by
  rw [ReadWitnesses, if_pos (by rfl), bind_apply,
    (CScriptWitness_code.readCount vin.length).read_write wit ⟨hlen, hwit⟩ rest, Option.bind_some]
  rfl

/-- The witnesses that leave no flag behind: none after zero flags, and one for every input
after the witness flag alone, with witnesses allowed. -/
theorem ReadWitnesses_sound {f : Bool} {flags : UInt8} {vin : List CTxIn}
    {wit : List CScriptWitness} {s s' : List UInt8}
    (h : ReadWitnesses f flags vin s = some ((0, wit), s')) :
    (flags = 0 ∧ wit = vin.map (fun _ => ⟨[]⟩) ∧ s' = s) ∨
      (flags = 1 ∧ f = true ∧ (wit.length = vin.length ∧ ∀ w ∈ wit, w.Fits) ∧
        s = writeAll CScriptWitness.Serialize wit ++ s') := by
  unfold ReadWitnesses at h
  by_cases hflag : ((flags &&& 1 != 0) && f) = true
  · rw [if_pos hflag] at h
    obtain ⟨wit₁, s₁, hwit, h⟩ := bind_eq_some.mp h
    simp only [pure_apply, Option.some.injEq, Prod.mk.injEq] at h
    obtain ⟨⟨hxor, rfl⟩, rfl⟩ := h
    -- the flag cleared leaves nothing only when it was the only one
    have hone : flags = 1 := by
      simpa [UInt8.xor_assoc] using congrArg (· ^^^ (1 : UInt8)) hxor
    obtain ⟨hfits, rfl⟩ := (CScriptWitness_code.readCount vin.length).sound hwit
    exact Or.inr ⟨hone, (by simpa using hflag : _ ∧ f = true).2, hfits, rfl⟩
  · rw [if_neg hflag] at h
    cases (h : some ((flags, vin.map fun _ => ⟨[]⟩), s) = some ((0, wit), s'))
    exact Or.inl ⟨rfl, rfl, rfl⟩

/-! ### Witnesses -/

theorem IsNull_iff {w : CScriptWitness} : w.IsNull = true ↔ w = ⟨[]⟩ := by
  cases w
  simp [CScriptWitness.IsNull]

theorem HasWitness_eq_false_iff {tx : CMutableTransaction} :
    tx.HasWitness = false ↔ ∀ txin ∈ tx.vin, txin.2 = ⟨[]⟩ := by
  simp [CMutableTransaction.HasWitness, List.any_eq_false, IsNull_iff]

/-- A transaction without witnesses loses nothing when its witnesses are removed. -/
theorem WithoutWitness_eq_self {tx : CMutableTransaction} (h : tx.HasWitness = false) :
    tx.WithoutWitness = tx := by
  have hempty := HasWitness_eq_false_iff.1 h
  have hvin : (tx.vin.map fun txin => (txin.1, (⟨[]⟩ : CScriptWitness))) = tx.vin := by
    conv_rhs => rw [← List.map_id tx.vin]
    exact List.map_congr_left fun txin htxin => Prod.ext rfl (hempty txin htxin).symm
  rw [CMutableTransaction.WithoutWitness, hvin]

/-- The inputs paired with empty witnesses, as the reader pairs them when it reads none. -/
theorem zip_map_empty (vin : List CTxIn) :
    vin.zip (vin.map fun _ => (⟨[]⟩ : CScriptWitness)) = vin.map fun txin => (txin, ⟨[]⟩) := by
  induction vin with
  | nil => rfl
  | cons txin vin ih => rw [List.map_cons, List.zip_cons_cons, ih, List.map_cons]

theorem HasWitness_map_empty (vin : List CTxIn) (vout : List CTxOut) (nVersion : Int)
    (nLockTime : UInt32) :
    CMutableTransaction.HasWitness ⟨vin.map fun txin => (txin, ⟨[]⟩), vout, nVersion, nLockTime⟩ =
      false := by
  rw [HasWitness_eq_false_iff]
  simp

/-! ### The two formats, read -/

/-- What the reader accepts is one of the two formats of the transaction it returns: the
extended one, with witnesses allowed, or the basic one of a transaction without witnesses that
is not mistaken for the extended one. -/
theorem UnserializeTransaction_sound {f : Bool} {s s' : List UInt8} {tx : CMutableTransaction}
    (h : UnserializeTransaction f s = some (tx, s')) :
    tx.Fits ∧ ((f = true ∧ s = TransactionBytes true tx ++ s') ∨
      (tx.HasWitness = false ∧ (f = true → tx.vin = [] → tx.vout = []) ∧
        s = TransactionBytes false tx ++ s')) := by
  obtain ⟨nVersion, s₁, vin₀, s₂, flags, vin, vout, s₃, wit, s₄, nLockTime, hversion, hvin₀,
    hvinvout, hwit, hlock, rfl⟩ := UnserializeTransaction_eq_some.1 h
  obtain ⟨hrange, rfl⟩ := ReadInt32_code.sound hversion
  obtain ⟨hvin₀fits, rfl⟩ := (ReadVector_code CTxIn_code).sound hvin₀
  obtain ⟨-, rfl⟩ := ReadUInt32_code.sound hlock
  obtain ⟨hvout, hbasic | hextended⟩ := ReadVinVout_sound hvinvout
  · -- the basic format: zero flags, so no witness is read
    obtain ⟨rfl, rfl, hdummy, rfl⟩ := hbasic
    obtain ⟨-, rfl, rfl⟩ | ⟨hone, -⟩ := ReadWitnesses_sound hwit
    · rw [zip_map_empty]
      refine ⟨⟨hrange, ⟨by simpa using hvin₀fits.1, ?_⟩, hvout⟩,
        Or.inr ⟨HasWitness_map_empty _ _ _ _, fun hf hnil => hdummy hf (by simpa using hnil), ?_⟩⟩
      · simp only [List.mem_map]
        rintro _ ⟨txin, htxin, rfl⟩
        exact ⟨hvin₀fits.2 txin htxin, Nat.zero_le _, fun _ h => absurd h List.not_mem_nil⟩
      · simp [TransactionBytes, Function.comp_def]
    · exact absurd hone (by decide)
  · -- the extended format: the witness flag alone, and a witness for every input
    obtain ⟨hflags, rfl, rfl, hvin, rfl⟩ := hextended
    obtain ⟨rfl, -⟩ | ⟨rfl, -, ⟨hlen, hwitfits⟩, rfl⟩ := ReadWitnesses_sound hwit
    · exact absurd rfl hflags
    refine ⟨⟨hrange, ⟨by rw [List.length_zip]; omega, ?_⟩, hvout⟩, Or.inl ⟨rfl, ?_⟩⟩
    · rintro ⟨txin, w⟩ hmem
      exact ⟨hvin.2 txin (List.of_mem_zip hmem).1, hwitfits w (List.of_mem_zip hmem).2⟩
    · simp [TransactionBytes, List.map_fst_zip (Nat.le_of_eq hlen.symm),
        List.map_snd_zip (Nat.le_of_eq hlen)]

/-- The extended format is read back whole when witnesses are allowed. -/
theorem UnserializeTransaction_extended {tx : CMutableTransaction} (hfits : tx.Fits)
    (rest : List UInt8) :
    UnserializeTransaction true (TransactionBytes true tx ++ rest) = some (tx, rest) := by
  have hbytes : TransactionBytes true tx ++ rest =
      WriteInt32 tx.nVersion ++ (WriteVector CTxIn.Serialize [] ++
        1 :: (WriteVector CTxIn.Serialize (tx.vin.map Prod.fst) ++
          (WriteVector CTxOut.Serialize tx.vout ++
            (writeAll CScriptWitness.Serialize (tx.vin.map Prod.snd) ++
              (WriteUInt32 tx.nLockTime ++ rest))))) := by
    simp [TransactionBytes]
  rw [hbytes]
  -- the dummy, the witness flag alone, the inputs and outputs, a witness for every input
  exact UnserializeTransaction_eq_some.2 ⟨tx.nVersion, _, [], _, 1, tx.vin.map Prod.fst, tx.vout,
    _, tx.vin.map Prod.snd, _, tx.nLockTime, ReadInt32_code.read_write _ hfits.1 _,
    (ReadVector_code CTxIn_code).read_write [] ⟨Nat.zero_le _, by simp⟩ _,
    ReadVinVout_flags (by decide) hfits.inputs hfits.2.2 _,
    ReadWitnesses_one hfits.witnesses.1 hfits.witnesses.2 _,
    ReadUInt32_code.read_write _ trivial rest,
    by rw [← List.unzip_fst, ← List.unzip_snd, List.zip_unzip]⟩

/-- The basic format is read back without the witnesses, unless it is taken for the extended
one: no inputs and some outputs, with witnesses allowed. -/
theorem UnserializeTransaction_basic {f : Bool} {tx : CMutableTransaction} (hfits : tx.Fits)
    (hdummy : f = true → tx.vin = [] → tx.vout = []) (rest : List UInt8) :
    UnserializeTransaction f (TransactionBytes false tx ++ rest) =
      some (tx.WithoutWitness, rest) := by
  have hbytes : TransactionBytes false tx ++ rest =
      WriteInt32 tx.nVersion ++ (WriteVector CTxIn.Serialize (tx.vin.map Prod.fst) ++
        (WriteVector CTxOut.Serialize tx.vout ++ (WriteUInt32 tx.nLockTime ++ rest))) := by
    simp [TransactionBytes]
  rw [hbytes]
  -- the inputs, then the outputs with zero flags, so no witness is read
  refine UnserializeTransaction_eq_some.2 ⟨tx.nVersion, _, tx.vin.map Prod.fst, _, 0,
    tx.vin.map Prod.fst, tx.vout, _, _, _, tx.nLockTime, ReadInt32_code.read_write _ hfits.1 _,
    (ReadVector_code CTxIn_code).read_write _ hfits.inputs _,
    ReadVinVout_basic hfits.2.2 (fun hf hnil => hdummy hf (by simpa using hnil)) _,
    ReadWitnesses_zero f _ _, ReadUInt32_code.read_write _ trivial rest, ?_⟩
  rw [zip_map_empty, List.map_map]
  rfl

/-- What the reader accepts is exactly the two formats: the extended one of any transaction,
with witnesses allowed, and the basic one of a transaction without witnesses that is not taken
for the extended one. -/
theorem UnserializeTransaction_eq_some_iff {f : Bool} {s s' : List UInt8}
    {tx : CMutableTransaction} :
    UnserializeTransaction f s = some (tx, s') ↔
      tx.Fits ∧ ((f = true ∧ s = TransactionBytes true tx ++ s') ∨
        (tx.HasWitness = false ∧ (f = true → tx.vin = [] → tx.vout = []) ∧
          s = TransactionBytes false tx ++ s')) := by
  refine ⟨UnserializeTransaction_sound, ?_⟩
  rintro ⟨hfits, ⟨rfl, rfl⟩ | ⟨hw, hdummy, rfl⟩⟩
  · exact UnserializeTransaction_extended hfits s'
  · rw [UnserializeTransaction_basic hfits hdummy s', WithoutWitness_eq_self hw]

/-! ### The two formats, written -/

/-- The writer writes the extended format exactly when witnesses are allowed and some input has
one. -/
theorem SerializeTransaction_eq (f : Bool) (tx : CMutableTransaction) :
    SerializeTransaction f tx = TransactionBytes (f && tx.HasWitness) tx := by
  cases hw : (f && tx.HasWitness) <;> simp [SerializeTransaction, TransactionBytes, hw]

/-- The extended format is longer than the basic one by the dummy, the flags and the
witnesses. -/
theorem length_TransactionBytes_true (tx : CMutableTransaction) :
    (TransactionBytes true tx).length = (TransactionBytes false tx).length + 2 +
      (writeAll CScriptWitness.Serialize (tx.vin.map Prod.snd)).length := by
  simp only [TransactionBytes, if_true, List.length_append]
  simp
  omega

/-- The writer's output is read back, with the witnesses when they are allowed, exactly when it
is not taken for the extended format: unless witnesses are allowed and the transaction has no
inputs and some outputs. -/
theorem SerializeTransaction_round_trip (f : Bool) {tx : CMutableTransaction} (hfits : tx.Fits)
    (rest : List UInt8) :
    UnserializeTransaction f (SerializeTransaction f tx ++ rest) =
        some (if f then tx else tx.WithoutWitness, rest) ↔
      (f = true → tx.vin = [] → tx.vout = []) := by
  rw [SerializeTransaction_eq]
  cases f with
  | false =>
    exact iff_of_true (UnserializeTransaction_basic hfits (fun h => absurd h Bool.false_ne_true) rest)
      (fun h => absurd h Bool.false_ne_true)
  | true =>
    cases hw : tx.HasWitness with
    | true =>
      -- an input has a witness, so there are inputs
      have hvin : tx.vin ≠ [] := fun hnil => by simp [CMutableTransaction.HasWitness, hnil] at hw
      exact iff_of_true (UnserializeTransaction_extended hfits rest) (fun _ hnil => absurd hnil hvin)
    | false =>
      rw [Bool.true_and, if_pos rfl]
      constructor
      · intro h
        obtain ⟨-, ⟨-, hbytes⟩ | ⟨-, hdummy, -⟩⟩ := UnserializeTransaction_sound h
        · -- the basic format of a transaction is never its extended one
          have hlen := congrArg List.length hbytes
          simp only [List.length_append, length_TransactionBytes_true] at hlen
          omega
        · exact hdummy
      · intro hdummy
        rw [UnserializeTransaction_basic hfits hdummy rest, WithoutWitness_eq_self hw]

theorem SerializeTransaction_round_trip_no_inputs :
    CMutableTransaction.Fits ⟨[], [⟨0, []⟩], 2, 0⟩ ∧
      (UnserializeTransaction true (SerializeTransaction true ⟨[], [⟨0, []⟩], 2, 0⟩ ++ []) =
          some (if true then ⟨[], [⟨0, []⟩], 2, 0⟩
            else CMutableTransaction.WithoutWitness ⟨[], [⟨0, []⟩], 2, 0⟩, []) ↔
        (true = true → ([] : List (CTxIn × CScriptWitness)) = [] → [(⟨0, []⟩ : CTxOut)] = [])) :=
  ⟨by decide, SerializeTransaction_round_trip true (by decide) []⟩

/-- A transaction with no inputs and one output, written with witnesses allowed, reads back as
one with no outputs: its output count is taken for the flags, and its amount for the inputs, the
outputs and the lock time. -/
example : UnserializeTransaction true (SerializeTransaction true ⟨[], [⟨0, []⟩], 2, 0⟩) =
    some (⟨[], [], 2, 0⟩, [0, 0, 0, 0, 0, 0, 0]) := by
  decide

end Ravencoin
