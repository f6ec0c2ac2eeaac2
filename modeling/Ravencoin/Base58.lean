import Ravencoin.Serialize
import Ravencoin.Lib.DigitBuffer
import Mathlib.Data.List.TakeWhile

/-!
# Base58 encoding and decoding (`base58.cpp`)

`EncodeBase58` converts a byte string to base 58 by schoolbook multiplication on a fixed-size
big-endian digit buffer: for every input byte, `b58 = b58 * 256 + ch`, walking the buffer from
its least significant digit while a carry is left or the walk is still inside the digits
written so far. Leading zero bytes become leading `'1'` characters. `DecodeBase58` runs the same
loop the other way, `b256 = b256 * 58 + ch`, over a run of alphabet characters between optional
spaces, and turns the leading `'1'`s back into zero bytes.

Both loops are runs of `DigitBuffer`: they compute the value of their input exactly, because
the buffers of `n * 138 / 100 + 1` and `n * 733 / 1000 + 1` digits have room for it, so that
every `assert(carry == 0)` holds; and the digits read from the top are `Nat.digits` of the
value. Decoding then inverts encoding on every byte string, and what the decoder accepts is
spaces, a run of the alphabet and spaces up to the end of the C string, the run being the
encoding of the result.

## Main definitions

* `Ravencoin.EncodeBase58` — `EncodeBase58(const std::vector<unsigned char>&)`, with
  `Ravencoin.EncodeBase58.mulAdd`, one pass of its inner loop.
* `Ravencoin.DecodeBase58` — `DecodeBase58(const char*, std::vector<unsigned char>&)`, with
  `Ravencoin.DecodeBase58.loop`, its loop over the characters.

## Main results

* `Ravencoin.EncodeBase58_eq` — the encoding by numbers.
* `Ravencoin.EncodeBase58_carry_eq_zero`, `Ravencoin.DecodeBase58_carry_eq_zero` — the
  assertions of both loops hold.
* `Ravencoin.DecodeBase58_EncodeBase58` — decoding inverts encoding.
* `Ravencoin.DecodeBase58_eq_some` — what the decoder accepts, and that it encodes back.
* `Ravencoin.DecodeBase58_accepts_embedded_nul` — a `std::string` with an embedded NUL is
  accepted with the bytes before the NUL.

## Implementation notes

The digit buffers are kept least significant digit first, so the C++ reverse iterators walk the
model's lists from their heads. The C++ ends each pass with `assert(carry == 0)`; the model
continues as the C++ does after a passing assertion, and `DigitBuffer.carryOut` is the value
asserted. `DecodeBase58` reads a C string, the bytes of `psz` followed by a NUL, so that a
`std::string` is decoded as its `c_str()`. `isspace` and `strchr` are those of the C locale: a
byte above `0x7f` is neither a space nor in the alphabet.
-/

set_option autoImplicit false

namespace Ravencoin

/-- `pszBase58`: all alphanumeric characters except `0`, `I`, `O` and `l`. -/
def pszBase58 : List UInt8 := str "123456789ABCDEFGHJKLMNPQRSTUVWXYZabcdefghijkmnopqrstuvwxyz"

/-- One pass of `b58 = b58 * 256 + ch` over the digits, least significant first: the digit
`i` is rewritten while `carry ≠ 0 ∨ i < length`. The result is the new digits, the carry left
at the end, and the number of digits visited. -/
def EncodeBase58.mulAdd (carry i length : Nat) : List Nat → List Nat × Nat × Nat
  | [] => ([], carry, i)
  | d :: ds =>
    if carry ≠ 0 ∨ i < length then
      let c := carry + 256 * d
      let r := mulAdd (c / 58) (i + 1) length ds
      (c % 58 :: r.1, r.2)
    else (d :: ds, carry, i)

/-- `EncodeBase58`. -/
def EncodeBase58 (input : List UInt8) : List UInt8 :=
  let zeroes := (input.takeWhile (· = 0)).length
  let bytes := input.drop zeroes
  let size := bytes.length * 138 / 100 + 1
  let (b58, length) := bytes.foldl
    (fun (acc : List Nat × Nat) ch =>
      let r := EncodeBase58.mulAdd ch.toNat 0 acc.2 acc.1
      (r.1, r.2.2))
    (List.replicate size 0, 0)
  let digits := ((b58.reverse).drop (size - length)).dropWhile (· = 0)
  List.replicate zeroes (pszBase58.getD 0 0) ++ digits.map fun d => pszBase58.getD d 0

/-- `isspace` in the C locale, on a byte: the space and the characters from tab to carriage
return. -/
def DecodeBase58.IsSpace (c : UInt8) : Bool := c == 32 || (9 ≤ c && c ≤ 13)

/-- The loop of `DecodeBase58` while `*psz && !isspace(*psz)`: each character is looked up in
`pszBase58` and applied as `b256 = b256 * 58 + ch`, and one outside the alphabet returns
`false`. The result is the rest of the string, the digit buffer and `length`. -/
def DecodeBase58.loop (acc : List Nat × Nat) : List UInt8 → Option (List UInt8 × (List Nat × Nat))
  | [] => some ([], acc)
  | c :: cs =>
    if c != 0 && !IsSpace c then
      match pszBase58.idxOf? c with
      | none => none
      | some ch => loop (DigitBuffer.step 256 58 acc ch) cs
    else some (c :: cs, acc)

/-- `DecodeBase58(const char*, std::vector<unsigned char>&)` on the bytes from `psz`, reading the
terminating NUL past their end: `none` is `false`, and `some vch` is `true` with the bytes left
in `vch`. -/
def DecodeBase58 (psz : List UInt8) : Option (List UInt8) :=
  let psz := psz.dropWhile fun c => c != 0 && DecodeBase58.IsSpace c
  let zeroes := (psz.takeWhile (· = '1'.toUInt8)).length
  let psz := psz.drop zeroes
  let size := (psz.takeWhile (· ≠ 0)).length * 733 / 1000 + 1
  match DecodeBase58.loop (List.replicate size 0, 0) psz with
  | none => none
  | some (psz, b256, length) =>
    let psz := psz.dropWhile DecodeBase58.IsSpace
    if psz.headD 0 ≠ 0 then none
    else
      let digits := ((b256.reverse).drop (size - length)).dropWhile (· = 0)
      some (List.replicate zeroes 0 ++ digits.map Nat.toUInt8)

/-- The C string view of a `std::string`: `DecodeBase58(const std::string&)` passes `c_str()`,
so the decoder stops at an embedded NUL and accepts what follows it unread. -/
theorem DecodeBase58_accepts_embedded_nul :
    DecodeBase58 [49, 0, 33] = some [0] ∧ (0 : UInt8) ∈ ([49, 0, 33] : List UInt8) := by
  decide

/-! ### The alphabet -/

theorem idxOf_getD_pszBase58 : ∀ d < 58, pszBase58.idxOf (pszBase58.getD d 0) = d := by
  decide

theorem getD_pszBase58_mem : ∀ d < 58, pszBase58.getD d 0 ∈ pszBase58 := by
  decide

/-- A character of the alphabet is found at its position, and is neither NUL nor a space. -/
theorem pszBase58_mem_spec : ∀ c ∈ pszBase58,
    pszBase58.idxOf? c = some (pszBase58.idxOf c) ∧ pszBase58.idxOf c < 58 ∧
      pszBase58.getD (pszBase58.idxOf c) 0 = c ∧ c ≠ 0 ∧ DecodeBase58.IsSpace c = false := by
  decide +kernel

/-- Digit zero is written `1`, and no other digit is. -/
theorem getD_pszBase58_eq_one_iff : ∀ d < 58, (pszBase58.getD d 0 = '1'.toUInt8 ↔ d = 0) := by
  decide

/-! ### Encoding by numbers -/

theorem EncodeBase58.mulAdd_eq (carry i length : Nat) (ds : List Nat) :
    EncodeBase58.mulAdd carry i length ds = DigitBuffer.mulAdd 58 256 carry i length ds := by
  induction ds generalizing carry i with
  | nil => rfl
  | cons d ds ih =>
    unfold EncodeBase58.mulAdd DigitBuffer.mulAdd
    simp only [ih]

/-- The buffer of `EncodeBase58` has room for every input: `256 ^ 100 ≤ 58 ^ 138`. -/
theorem EncodeBase58_room (n : Nat) : 256 ^ n ≤ 58 ^ (n * 138 / 100 + 1) :=
  DigitBuffer.pow_le_pow_div_add_one (by decide) (by decide) (by decide) n

/-- Every pass of the loop of `EncodeBase58` over the bytes after the leading zeros, in the
buffer of the size it allocates, ends with `carry == 0`: the assertion holds. -/
theorem EncodeBase58_carry_eq_zero (bytes : List UInt8) {pre post : List UInt8} {x : UInt8}
    (h : bytes = pre ++ x :: post) :
    DigitBuffer.carryOut 58 256 ((pre.map UInt8.toNat).foldl (DigitBuffer.step 58 256)
      (List.replicate (bytes.length * 138 / 100 + 1) 0, 0)) x.toNat = 0 := by
  have hxs : ∀ y ∈ pre.map UInt8.toNat ++ x.toNat :: post.map UInt8.toNat, y < 256 := by
    intro y hy
    simp only [List.mem_append, List.mem_map, List.mem_cons] at hy
    rcases hy with ⟨b, _, rfl⟩ | rfl | ⟨b, _, rfl⟩ <;> exact UInt8.toNat_lt _
  have hroom : (0 + 1) * 256 ^ (pre.map UInt8.toNat ++ x.toNat :: post.map UInt8.toNat).length ≤
      58 ^ (bytes.length * 138 / 100 + 1) := by
    rw [Nat.zero_add, Nat.one_mul, ← List.map_cons, ← List.map_append, List.length_map, ← h]
    exact EncodeBase58_room _
  exact (DigitBuffer.holds_replicate (by decide) _).carryOut_eq_zero (by decide) hxs hroom

/-- `EncodeBase58` writes a `1` for each leading zero byte, then the base-58 digits of the
big-endian value of the other bytes, most significant first. -/
theorem EncodeBase58_eq (input : List UInt8) :
    EncodeBase58 input = List.replicate (input.takeWhile (· = 0)).length (pszBase58.getD 0 0) ++
      (Nat.digits 58 (Nat.ofDigits 256 ((input.drop (input.takeWhile (· = 0)).length).map
        UInt8.toNat).reverse)).reverse.map (fun d => pszBase58.getD d 0) := by
  unfold EncodeBase58
  dsimp only
  generalize (input.takeWhile (· = 0)).length = zeroes
  generalize input.drop zeroes = bytes
  -- the loop is the digit buffer's run over the byte values
  have hfold : bytes.foldl (fun (acc : List Nat × Nat) ch =>
      ((EncodeBase58.mulAdd ch.toNat 0 acc.2 acc.1).1, (EncodeBase58.mulAdd ch.toNat 0 acc.2 acc.1).2.2))
      (List.replicate (bytes.length * 138 / 100 + 1) 0, 0) =
      (bytes.map UInt8.toNat).foldl (DigitBuffer.step 58 256)
        (List.replicate (bytes.length * 138 / 100 + 1) 0, 0) := by
    rw [List.foldl_map]
    simp only [EncodeBase58.mulAdd_eq, DigitBuffer.step]
  have hbytes : ∀ y ∈ bytes.map UInt8.toNat, y < 256 := fun y hy => by
    obtain ⟨b, _, rfl⟩ := List.mem_map.1 hy
    exact UInt8.toNat_lt _
  have hroom : (0 + 1) * 256 ^ ((bytes.map UInt8.toNat).length + 0) ≤
      58 ^ (bytes.length * 138 / 100 + 1) := by
    simp only [Nat.add_zero, Nat.zero_add, Nat.one_mul, List.length_map]
    exact EncodeBase58_room _
  have hrun := DigitBuffer.Holds.foldl (by decide) _
    (DigitBuffer.holds_replicate (by decide) (bytes.length * 138 / 100 + 1)) hbytes hroom
  rw [DigitBuffer.foldl_mul_add, Nat.zero_mul, Nat.zero_add] at hrun
  rw [hfold]
  generalize hacc : (bytes.map UInt8.toNat).foldl (DigitBuffer.step 58 256)
    (List.replicate (bytes.length * 138 / 100 + 1) 0, 0) = acc at hrun
  obtain ⟨b58, length⟩ := acc
  have hread := hrun.1.readout (by decide)
  simp only at hread ⊢
  rw [hread]

/-- Leading zero bytes and a remainder that does not start with one: `EncodeBase58` writes a `1`
for each zero, then the digits of the remainder's value. -/
theorem EncodeBase58_replicate_append (z : Nat) {bytes : List UInt8}
    (hhead : ∀ b ∈ bytes.head?, b ≠ 0) :
    EncodeBase58 (List.replicate z 0 ++ bytes) = List.replicate z '1'.toUInt8 ++
      (Nat.digits 58 (Nat.ofDigits 256 (bytes.map UInt8.toNat).reverse)).reverse.map
        (fun d => pszBase58.getD d 0) := by
  have htake : ((List.replicate z (0 : UInt8) ++ bytes).takeWhile (· = 0)).length = z := by
    rw [List.takeWhile_append_of_pos (by simp)]
    cases bytes with
    | nil => simp
    | cons b bs =>
      have hb : b ≠ 0 := hhead b rfl
      simp [hb]
  rw [EncodeBase58_eq, htake, List.drop_left' List.length_replicate]
  rfl

/-! ### The decoding loop -/

/-- Over characters of the alphabet, the loop of `DecodeBase58` runs one pass per character. -/
theorem DecodeBase58.loop_append (acc : List Nat × Nat) {run : List UInt8} (rest : List UInt8)
    (hrun : ∀ c ∈ run, c ∈ pszBase58) :
    DecodeBase58.loop acc (run ++ rest) =
      DecodeBase58.loop ((run.map fun c => pszBase58.idxOf c).foldl (DigitBuffer.step 256 58) acc)
        rest := by
  induction run generalizing acc with
  | nil => rfl
  | cons c run ih =>
    obtain ⟨hidx, -, -, hne, hsp⟩ := pszBase58_mem_spec c (hrun c (List.mem_cons_self ..))
    rw [List.cons_append, DecodeBase58.loop, if_pos (by simp [hne, hsp]), hidx]
    exact ih _ (fun x hx => hrun x (List.mem_cons_of_mem c hx))

/-- What the loop of `DecodeBase58` returns: it ran one pass for each character of a run of the
alphabet, and stopped at a NUL, at a space or at the end. -/
theorem DecodeBase58.loop_eq_some {acc acc' : List Nat × Nat} {psz rest : List UInt8}
    (h : DecodeBase58.loop acc psz = some (rest, acc')) :
    ∃ run, psz = run ++ rest ∧ (∀ c ∈ run, c ∈ pszBase58) ∧
      acc' = (run.map fun c => pszBase58.idxOf c).foldl (DigitBuffer.step 256 58) acc ∧
      (rest.headD 0 = 0 ∨ DecodeBase58.IsSpace (rest.headD 0) = true) := by
  induction psz generalizing acc with
  | nil =>
    simp only [DecodeBase58.loop, Option.some.injEq, Prod.mk.injEq] at h
    obtain ⟨rfl, rfl⟩ := h
    exact ⟨[], rfl, by simp, rfl, Or.inl rfl⟩
  | cons c cs ih =>
    unfold DecodeBase58.loop at h
    split_ifs at h with hgo
    · -- a character of the run: it was found in the alphabet
      cases hidx : pszBase58.idxOf? c with
      | none => simp [hidx] at h
      | some ch =>
        rw [hidx] at h
        obtain ⟨run, hcs, hrun, hacc, hstop⟩ := ih h
        have hmem : c ∈ pszBase58 := List.isSome_idxOf?.1 (by rw [hidx]; rfl)
        have hch : pszBase58.idxOf c = ch := by
          have := (pszBase58_mem_spec c hmem).1
          rw [hidx, Option.some.injEq] at this
          exact this.symm
        refine ⟨c :: run, by rw [hcs]; rfl, ?_, by rw [hacc, List.map_cons, List.foldl_cons, hch],
          hstop⟩
        intro x hx
        rcases List.mem_cons.1 hx with rfl | hx
        · exact hmem
        · exact hrun x hx
    · -- a NUL or a space ends the run
      simp only [Option.some.injEq, Prod.mk.injEq] at h
      obtain ⟨rfl, rfl⟩ := h
      refine ⟨[], rfl, by simp, rfl, ?_⟩
      simp only [List.headD_cons]
      by_cases hc : c = 0
      · exact Or.inl hc
      · right
        simpa [hc] using hgo

/-- The buffer of `DecodeBase58` has room for every input: `58 ^ 1000 ≤ 256 ^ 733`. -/
theorem DecodeBase58_room (n : Nat) : 58 ^ n ≤ 256 ^ (n * 733 / 1000 + 1) :=
  DigitBuffer.pow_le_pow_div_add_one (by decide) (by decide) (by decide +kernel) n

/-- Every pass of the loop of `DecodeBase58` over the digits of a run of the alphabet, in the
buffer of the size it allocates for a string of at least that length, ends with `carry == 0`:
the assertion holds. -/
theorem DecodeBase58_carry_eq_zero (strlen : Nat) {pre post : List Nat} {x : Nat}
    (hds : ∀ d ∈ pre ++ x :: post, d < 58) (hlen : (pre ++ x :: post).length ≤ strlen) :
    DigitBuffer.carryOut 256 58 (pre.foldl (DigitBuffer.step 256 58)
      (List.replicate (strlen * 733 / 1000 + 1) 0, 0)) x = 0 := by
  apply (DigitBuffer.holds_replicate (by decide) _).carryOut_eq_zero (by decide) hds
  rw [Nat.zero_add, Nat.one_mul]
  exact (Nat.pow_le_pow_right (by decide) hlen).trans (DecodeBase58_room strlen)

/-- Decoding the digits of a run of the alphabet in a buffer for a string of at least that
length: the buffer holds their value. -/
theorem DecodeBase58_holds {strlen : Nat} {ds : List Nat} (hds : ∀ d ∈ ds, d < 58)
    (hlen : ds.length ≤ strlen) :
    DigitBuffer.Holds 256 (strlen * 733 / 1000 + 1)
      (ds.foldl (DigitBuffer.step 256 58) (List.replicate (strlen * 733 / 1000 + 1) 0, 0))
      (Nat.ofDigits 58 ds.reverse) := by
  have hroom : (0 + 1) * 58 ^ (ds.length + 0) ≤ 256 ^ (strlen * 733 / 1000 + 1) := by
    simp only [Nat.add_zero, Nat.zero_add, Nat.one_mul]
    exact (Nat.pow_le_pow_right (by decide) hlen).trans (DecodeBase58_room strlen)
  have hrun := DigitBuffer.Holds.foldl (by decide) ds
    (DigitBuffer.holds_replicate (by decide) (strlen * 733 / 1000 + 1)) hds hroom
  rw [DigitBuffer.foldl_mul_add, Nat.zero_mul, Nat.zero_add] at hrun
  exact hrun.1

/-- Byte values read back as bytes. -/
theorem map_toUInt8_toNat {ds : List Nat} (hds : ∀ d ∈ ds, d < 256) :
    (ds.map Nat.toUInt8).map UInt8.toNat = ds := by
  rw [List.map_map]
  conv_rhs => rw [← List.map_id ds]
  apply List.map_congr_left
  intro d hd
  show (UInt8.ofNat d).toNat = d
  exact UInt8.toNat_ofNat_of_lt' (hds d hd)

/-! ### Round trip and grammar -/

/-- `DecodeBase58` on `1`s followed by the characters of base-58 digits whose first one is not
zero: a zero byte for each `1`, then the bytes of the digits' value. -/
theorem DecodeBase58_replicate_append (z : Nat) {ds : List Nat} (hds : ∀ d ∈ ds, d < 58)
    (hhead : ∀ d ∈ ds.head?, d ≠ 0) :
    DecodeBase58 (List.replicate z '1'.toUInt8 ++ ds.map fun d => pszBase58.getD d 0) =
      some (List.replicate z 0 ++
        (Nat.digits 256 (Nat.ofDigits 58 ds.reverse)).reverse.map Nat.toUInt8) := by
  have hchars : ∀ c ∈ ds.map (fun d => pszBase58.getD d 0), c ∈ pszBase58 := by
    intro c hc
    obtain ⟨d, hd, rfl⟩ := List.mem_map.1 hc
    exact getD_pszBase58_mem d (hds d hd)
  have hall : ∀ c ∈ List.replicate z '1'.toUInt8 ++ ds.map (fun d => pszBase58.getD d 0),
      c ∈ pszBase58 := by
    intro c hc
    rcases List.mem_append.1 hc with hc | hc
    · rw [(List.mem_replicate.1 hc).2]; decide
    · exact hchars c hc
  -- no leading space, and the `1`s end where the digits begin
  have hspace : (List.replicate z '1'.toUInt8 ++ ds.map fun d => pszBase58.getD d 0).dropWhile
      (fun c => c != 0 && DecodeBase58.IsSpace c) =
      List.replicate z '1'.toUInt8 ++ ds.map fun d => pszBase58.getD d 0 := by
    cases hl : List.replicate z '1'.toUInt8 ++ ds.map (fun d => pszBase58.getD d 0) with
    | nil => rfl
    | cons c cs =>
      have := (pszBase58_mem_spec c (hall c (by rw [hl]; exact List.mem_cons_self ..))).2.2.2.2
      rw [List.dropWhile_cons_of_neg (by simp [this])]
  have hones : ((List.replicate z '1'.toUInt8 ++ ds.map fun d => pszBase58.getD d 0).takeWhile
      (· = '1'.toUInt8)).length = z := by
    rw [List.takeWhile_append_of_pos (by simp)]
    cases ds with
    | nil => simp
    | cons d ds =>
      have hd0 : d ≠ 0 := hhead d rfl
      have hne : pszBase58.getD d 0 ≠ '1'.toUInt8 := fun h =>
        hd0 ((getD_pszBase58_eq_one_iff d (hds d (List.mem_cons_self ..))).1 h)
      rw [List.map_cons, List.takeWhile_cons_of_neg (by simpa using hne)]
      simp
  have hlen : ((ds.map fun d => pszBase58.getD d 0).takeWhile (· ≠ 0)).length = ds.length := by
    rw [List.takeWhile_eq_self_iff.2, List.length_map]
    intro c hc
    simpa using (pszBase58_mem_spec c (hchars c hc)).2.2.2.1
  have hidx : (ds.map fun d => pszBase58.getD d 0).map (fun c => pszBase58.idxOf c) = ds := by
    rw [List.map_map]
    conv_rhs => rw [← List.map_id ds]
    exact List.map_congr_left fun d hd => idxOf_getD_pszBase58 d (hds d hd)
  have hloop := DecodeBase58.loop_append (List.replicate (ds.length * 733 / 1000 + 1) 0, 0)
    [] hchars
  rw [List.append_nil, hidx] at hloop
  have hholds := DecodeBase58_holds hds (Nat.le_refl ds.length)
  unfold DecodeBase58
  dsimp only
  rw [hspace, hones, List.drop_left' List.length_replicate, hlen, hloop]
  generalize ds.foldl (DigitBuffer.step 256 58) (List.replicate (ds.length * 733 / 1000 + 1) 0, 0)
    = acc at hholds
  obtain ⟨b256, length⟩ := acc
  simp only [DecodeBase58.loop, List.dropWhile_nil, List.headD_nil, ne_eq, not_true_eq_false,
    if_false]
  rw [hholds.readout (by decide)]

/-- A byte string is its leading zeros followed by bytes that do not start with a zero. -/
theorem eq_replicate_append_of_leading_zeros (v : List UInt8) :
    ∃ z bytes, v = List.replicate z 0 ++ bytes ∧ ∀ b ∈ bytes.head?, b ≠ 0 := by
  induction v with
  | nil => exact ⟨0, [], rfl, by simp⟩
  | cons b v ih =>
    by_cases hb : b = 0
    · obtain ⟨z, bytes, rfl, h⟩ := ih
      exact ⟨z + 1, bytes, by rw [hb]; rfl, h⟩
    · exact ⟨0, b :: v, rfl, by simpa using hb⟩

/-- The bytes of the value of a byte string that does not start with a zero are that string. -/
theorem digits_bytes {bytes : List UInt8} (hhead : ∀ b ∈ bytes.head?, b ≠ 0) :
    (Nat.digits 256 (Nat.ofDigits 256 (bytes.map UInt8.toNat).reverse)).reverse = bytes.map UInt8.toNat := by
  apply DigitBuffer.digits_ofDigits_reverse (by decide)
  · intro d hd
    obtain ⟨b, _, rfl⟩ := List.mem_map.1 hd
    exact UInt8.toNat_lt _
  · intro d hd
    rw [List.head?_map, Option.mem_def, Option.map_eq_some_iff] at hd
    obtain ⟨b, hb, rfl⟩ := hd
    have := hhead b hb
    intro h0
    exact this (UInt8.toNat_inj.1 (h0.trans UInt8.toNat_zero.symm))

/-- `DecodeBase58` inverts `EncodeBase58` on every byte string. -/
theorem DecodeBase58_EncodeBase58 (v : List UInt8) : DecodeBase58 (EncodeBase58 v) = some v := by
  obtain ⟨z, bytes, rfl, hhead⟩ := eq_replicate_append_of_leading_zeros v
  rw [EncodeBase58_replicate_append z hhead,
    DecodeBase58_replicate_append z (fun d hd => Nat.digits_lt_base (by decide) (List.mem_reverse.1 hd))
      (DigitBuffer.head_digits_reverse_ne_zero _ _),
    List.reverse_reverse, Nat.ofDigits_digits, digits_bytes hhead, List.map_map]
  congr 2
  conv_rhs => rw [← List.map_id bytes]
  exact List.map_congr_left fun b _ => UInt8.ofNat_toNat

/-- What `DecodeBase58` accepts, in the C string that it reads: spaces, a run of the alphabet,
spaces, then the terminating NUL, at the end or embedded; and `EncodeBase58` of the result is
that run. -/
theorem DecodeBase58_eq_some {s v : List UInt8} (h : DecodeBase58 s = some v) :
    ∃ ws run ws' rest, s = ws ++ run ++ ws' ++ rest ∧
      (∀ c ∈ ws ++ ws', DecodeBase58.IsSpace c = true) ∧ (∀ c ∈ run, c ∈ pszBase58) ∧
      rest.headD 0 = 0 ∧ EncodeBase58 v = run := by
  unfold DecodeBase58 at h
  dsimp only at h
  -- the string after its leading spaces, and after its leading `1`s
  generalize hs1 : s.dropWhile (fun c => c != 0 && DecodeBase58.IsSpace c) = s1 at h
  generalize hones : s1.takeWhile (· = '1'.toUInt8) = ones at h
  generalize hs2 : s1.drop ones.length = s2 at h
  generalize hstr : (s2.takeWhile (· ≠ 0)).length = strlen at h
  cases hloop : DecodeBase58.loop (List.replicate (strlen * 733 / 1000 + 1) 0, 0) s2 with
  | none => rw [hloop] at h; cases h
  | some res =>
    obtain ⟨rest', b256, length⟩ := res
    rw [hloop] at h
    simp only at h
    split_ifs at h with hend
    obtain ⟨run', hs2', hrun', hacc, -⟩ := DecodeBase58.loop_eq_some hloop
    have hdrop : s1.dropWhile (· = '1'.toUInt8) = s2 := by
      rw [← hs2, ← hones]
      have := @List.drop_left' _ (s1.takeWhile (· = '1'.toUInt8)) (s1.dropWhile (· = '1'.toUInt8))
        _ rfl
      rw [List.takeWhile_append_dropWhile] at this
      exact this.symm
    have hs1eq : s1 = ones ++ s2 := by rw [← hones, ← hdrop, List.takeWhile_append_dropWhile]
    -- the digits of the run, and the value that the buffer holds
    have hds : ∀ d ∈ run'.map (fun c => pszBase58.idxOf c), d < 58 := by
      intro d hd
      obtain ⟨c, hc, rfl⟩ := List.mem_map.1 hd
      exact (pszBase58_mem_spec c (hrun' c hc)).2.1
    have hlen : (run'.map fun c => pszBase58.idxOf c).length ≤ strlen := by
      rw [List.length_map, ← hstr, hs2', List.takeWhile_append_of_pos
        (fun c hc => by simpa using (pszBase58_mem_spec c (hrun' c hc)).2.2.2.1), List.length_append]
      omega
    have hholds := DecodeBase58_holds hds hlen
    rw [← hacc] at hholds
    have hread := hholds.readout (by decide)
    simp only at hread
    rw [hread, Option.some.injEq] at h
    subst h
    -- the run does not start with a `1`: those were all counted
    have hfirst : ∀ d ∈ (run'.map fun c => pszBase58.idxOf c).head?, d ≠ 0 := by
      intro d hd
      rw [List.head?_map, Option.mem_def, Option.map_eq_some_iff] at hd
      obtain ⟨c, hc, rfl⟩ := hd
      have hrest := List.head?_dropWhile_not (· = '1'.toUInt8) s1
      simp only [hdrop, hs2', List.head?_append, hc, Option.some_or] at hrest
      have hc1 : c ≠ '1'.toUInt8 := by simpa using hrest
      obtain ⟨-, hlt, hget, -, -⟩ := pszBase58_mem_spec c (hrun' c (List.mem_of_mem_head? hc))
      intro h0
      exact hc1 (hget ▸ (getD_pszBase58_eq_one_iff _ hlt).2 h0)
    -- the bytes decoded do not start with a zero, and encode back to the run
    have hdig : ∀ d ∈ (Nat.digits 256 (Nat.ofDigits 58 (run'.map fun c => pszBase58.idxOf c).reverse)).reverse,
        d < 256 := fun d hd => Nat.digits_lt_base (by decide) (List.mem_reverse.1 hd)
    have hB : ∀ b ∈ ((Nat.digits 256 (Nat.ofDigits 58
        (run'.map fun c => pszBase58.idxOf c).reverse)).reverse.map Nat.toUInt8).head?, b ≠ 0 := by
      intro b hb
      rw [List.head?_map, Option.mem_def, Option.map_eq_some_iff] at hb
      obtain ⟨d, hd, rfl⟩ := hb
      have hd0 := DigitBuffer.head_digits_reverse_ne_zero 256 _ d hd
      have hd256 := hdig d (List.mem_of_mem_head? hd)
      intro h0
      apply hd0
      have := congrArg UInt8.toNat h0
      rwa [show (Nat.toUInt8 d).toNat = d from UInt8.toNat_ofNat_of_lt' hd256, UInt8.toNat_zero] at this
    have henc : EncodeBase58 (List.replicate ones.length 0 ++ (Nat.digits 256 (Nat.ofDigits 58
        (run'.map fun c => pszBase58.idxOf c).reverse)).reverse.map Nat.toUInt8) = ones ++ run' := by
      rw [EncodeBase58_replicate_append _ hB, map_toUInt8_toNat hdig, List.reverse_reverse,
        Nat.ofDigits_digits, DigitBuffer.digits_ofDigits_reverse (by decide) hds hfirst, List.map_map]
      congr 1
      · refine (List.eq_replicate_iff.2 ⟨rfl, fun c hc => ?_⟩).symm
        rw [← hones] at hc
        simpa using List.mem_takeWhile_imp hc
      · conv_rhs => rw [← List.map_id run']
        exact List.map_congr_left fun c hc => (pszBase58_mem_spec c (hrun' c hc)).2.2.1
    refine ⟨s.takeWhile (fun c => c != 0 && DecodeBase58.IsSpace c), ones ++ run',
      rest'.takeWhile DecodeBase58.IsSpace, rest'.dropWhile DecodeBase58.IsSpace, ?_, ?_, ?_, ?_,
      henc⟩
    · simp only [List.append_assoc]
      rw [List.takeWhile_append_dropWhile, ← hs2', ← hs1eq, ← hs1, List.takeWhile_append_dropWhile]
    · intro c hc
      rcases List.mem_append.1 hc with hc | hc
      · have := List.mem_takeWhile_imp hc
        simp only [Bool.and_eq_true] at this
        exact this.2
      · exact List.mem_takeWhile_imp hc
    · intro c hc
      rcases List.mem_append.1 hc with hc | hc
      · rw [← hones] at hc
        have : c = '1'.toUInt8 := by simpa using List.mem_takeWhile_imp hc
        rw [this]
        decide
      · exact hrun' c hc
    · simpa using hend

end Ravencoin
