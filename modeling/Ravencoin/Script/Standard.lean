import Ravencoin.Script.Script
import Ravencoin.Base58

/-!
# Output templates and addresses (`script/standard.cpp`, `base58.cpp`)

`Solver` classifies an output script: pay-to-script-hash, an asset script (whose key hash the
asset layer reads at bytes `3..23`), a witness program, a data carrier, or one of the three
templates pay-to-pubkey, pay-to-pubkey-hash and bare multisig. `ExtractDestination` turns the
solution into an address, and `EncodeDestination` prints it in base58check.

## Main definitions

* `Ravencoin.Hashes` — SHA-256d and HASH160, which the model takes as parameters.
* `Ravencoin.CChainParams` — the chain parameters the asset layer reads.
* `Ravencoin.Solver`, `Ravencoin.ExtractDestination`, `Ravencoin.EncodeDestination`.
* `Ravencoin.DecodeBase58Check` — base58check, read back.

## Main results

* `Ravencoin.DecodeBase58Check_EncodeBase58Check`, `Ravencoin.DecodeBase58Check_eq_some` — the
  round trip of base58check, and what its decoder accepts.
-/

set_option autoImplicit false

namespace Ravencoin

open txnouttype

/-- The hash functions of `hash.h` that the model does not embed, on byte strings: `Hash`
(double SHA-256, 32 bytes) and `Hash160` (RIPEMD-160 of SHA-256, 20 bytes). -/
structure Hashes where
  Hash : List UInt8 → List UInt8
  Hash160 : List UInt8 → List UInt8

/-- The parameters of `CChainParams` that the asset layer reads. -/
structure CChainParams where
  base58PubkeyAddress : List UInt8
  base58ScriptAddress : List UInt8
  nIssueAssetBurnAmount : CAmount
  nReissueAssetBurnAmount : CAmount
  nIssueSubAssetBurnAmount : CAmount
  nIssueUniqueAssetBurnAmount : CAmount
  strIssueAssetBurnAddress : List UInt8
  strReissueAssetBurnAddress : List UInt8
  strIssueSubAssetBurnAddress : List UInt8
  strIssueUniqueAssetBurnAddress : List UInt8

/-- The main network's parameters (`CMainParams`). -/
def MainParams : CChainParams where
  base58PubkeyAddress := [60]
  base58ScriptAddress := [122]
  nIssueAssetBurnAmount := 500 * COIN
  nReissueAssetBurnAmount := 100 * COIN
  nIssueSubAssetBurnAmount := 100 * COIN
  nIssueUniqueAssetBurnAmount := 5 * COIN
  strIssueAssetBurnAddress := str "RXissueAssetXXXXXXXXXXXXXXXXXhhZGt"
  strReissueAssetBurnAddress := str "RXReissueAssetXXXXXXXXXXXXXXVEFAWu"
  strIssueSubAssetBurnAddress := str "RXissueSubAssetXXXXXXXXXXXXXWcwhwL"
  strIssueUniqueAssetBurnAddress := str "RXissueUniqueAssetXXXXXXXXXXWEAe58"

/-- `CTxDestination`. -/
inductive CTxDestination
  | CNoDestination
  | CKeyID (id : List UInt8)
  | CScriptID (id : List UInt8)
deriving DecidableEq, Repr

open CTxDestination

/-! ### Templates -/

/-- The `OP_PUBKEYS` loop of the template matcher: collect pushes of 33 to 65 bytes starting
with the current instruction. The result is the solutions, the first instruction that is not
such a push (`OP_INVALIDOPCODE` with no data once the script is exhausted or unreadable), and
the rest of the script. Every instruction consumes a byte, so `s.length` passes suffice. -/
def takePubkeys : Nat → UInt8 × List UInt8 → CScript → List (List UInt8) →
    List (List UInt8) × (UInt8 × List UInt8) × CScript
  | 0, cur, s, acc => (acc, cur, s)
  | fuel + 1, (op1, vch1), s, acc =>
    if 33 ≤ vch1.length ∧ vch1.length ≤ 65 then
      match GetOp s with
      | none => (acc ++ [vch1], (OP_INVALIDOPCODE, []), s)
      | some (op, vch, rest) => takePubkeys fuel (op, vch) rest (acc ++ [vch1])
    else (acc, (op1, vch1), s)

/-- One comparison of the template matcher: the script's instruction `(op1, vch1)` against the
template opcode `op2`, which pushes no data. -/
def matchOne (op1 : UInt8) (vch1 : List UInt8) (op2 : UInt8) (acc : List (List UInt8)) :
    Option (List (List UInt8)) :=
  if op2 = OP_PUBKEY then
    if vch1.length < 33 ∨ vch1.length > 65 then none else some (acc ++ [vch1])
  else if op2 = OP_PUBKEYHASH then
    if vch1.length ≠ 20 then none else some (acc ++ [vch1])
  else if op2 = OP_SMALLINTEGER then
    if op1 = OP_0 ∨ (OP_1 ≤ op1 ∧ op1 ≤ OP_16) then some (acc ++ [[(DecodeOP_N op1).toUInt8]])
    else none
  else if op1 ≠ op2 ∨ vch1 ≠ [] then none
  else some acc

/-- The template matching loop of `Solver`: walk the script and the template together. -/
def matchTemplate : CScript → List UInt8 → List (List UInt8) → Option (List (List UInt8))
  | s, [], acc => if s.isEmpty then some acc else none
  | s, op2 :: t, acc =>
    match GetOp s with
    | none => none
    | some (op1, vch1, rest) =>
      if op2 = OP_PUBKEYS then
        match t with
        | [] => none
        | op2' :: t' =>
          let r := takePubkeys rest.length (op1, vch1) rest acc
          match matchOne r.2.1.1 r.2.1.2 op2' r.1 with
          | none => none
          | some acc' => matchTemplate r.2.2 t' acc'
      else
        match matchOne op1 vch1 op2 acc with
        | none => none
        | some acc' => matchTemplate rest t acc'

/-- The template table `mTemplates`, in the multimap's order. -/
def mTemplates : List (txnouttype × List UInt8) :=
  [(TX_PUBKEY, [OP_PUBKEY, OP_CHECKSIG]),
   (TX_PUBKEYHASH, [OP_DUP, OP_HASH160, OP_PUBKEYHASH, OP_EQUALVERIFY, OP_CHECKSIG]),
   (TX_MULTISIG, [OP_SMALLINTEGER, OP_PUBKEYS, OP_SMALLINTEGER, OP_CHECKMULTISIG])]

/-- The multisig check after a template match: `1 ≤ m ≤ n` and `n` keys. -/
def MultisigOk (sols : List (List UInt8)) : Bool :=
  let m := (sols.headD []).headD 0
  let n := (sols.getLastD []).headD 0
  !(m < 1 || n < 1 || m > n || sols.length - 2 != n.toNat)

/-- Scan the templates in order; the first match decides. -/
def scanTemplates (s : CScript) : List (txnouttype × List UInt8) → Option (txnouttype × List (List UInt8))
  | [] => none
  | (t, tmpl) :: rest =>
    match matchTemplate s tmpl [] with
    | none => scanTemplates s rest
    | some sols =>
      if t = TX_MULTISIG ∧ !MultisigOk sols then none else some (t, sols)

/-- `Solver`: the output type and its solutions. -/
def Solver (s : CScript) : Option (txnouttype × List (List UInt8)) :=
  if IsPayToScriptHash s then some (TX_SCRIPTHASH, [(s.drop 2).take 20])
  else match IsAssetScript s with
  | some (nType, _, _) => some (nType, [(s.drop 3).take 20])
  | none =>
    match IsWitnessProgram s with
    | some (v, program) =>
      if v = 0 ∧ program.length = 20 then some (TX_WITNESS_V0_KEYHASH, [program])
      else if v = 0 ∧ program.length = 32 then some (TX_WITNESS_V0_SCRIPTHASH, [program])
      else none
    | none =>
      if s.length ≥ 1 ∧ s[0]? = some OP_RETURN ∧ IsPushOnly (s.drop 1) then
        some (TX_NULL_DATA, [])
      else scanTemplates s mTemplates

/-! ### Destinations -/

/-- `CPubKey::GetLen`. -/
def CPubKey.GetLen (chHeader : UInt8) : Nat :=
  if chHeader = 2 ∨ chHeader = 3 then 33
  else if chHeader = 4 ∨ chHeader = 6 ∨ chHeader = 7 then 65
  else 0

/-- `CPubKey(vch).IsValid()`: the length announced by the header byte is the length. -/
def CPubKey.IsValid (vch : List UInt8) : Bool :=
  match vch with
  | [] => false
  | h :: _ => CPubKey.GetLen h != 0 && CPubKey.GetLen h == vch.length

/-- `ExtractDestination`; `none` when it returns `false`. -/
def ExtractDestination (H : Hashes) (s : CScript) : Option CTxDestination :=
  match Solver s with
  | none => none
  | some (whichType, vSolutions) =>
    let sol := vSolutions.headD []
    if whichType = TX_PUBKEY then
      if CPubKey.IsValid sol then some (CKeyID (H.Hash160 sol)) else none
    else if whichType = TX_PUBKEYHASH then some (CKeyID sol)
    else if whichType = TX_SCRIPTHASH then some (CScriptID sol)
    else if whichType = TX_NEW_ASSET ∨ whichType = TX_REISSUE_ASSET ∨
        whichType = TX_TRANSFER_ASSET then some (CKeyID sol)
    else none

/-- `IsValidDestination`. -/
def IsValidDestination (d : CTxDestination) : Bool := d != CNoDestination

/-- `EncodeBase58Check`: the data followed by the first four bytes of its double SHA-256. -/
def EncodeBase58Check (H : Hashes) (vch : List UInt8) : List UInt8 :=
  EncodeBase58 (vch ++ (H.Hash vch).take 4)

/-- `DecodeBase58Check`: the data before the last four bytes, when those are the first four
bytes of its double SHA-256; `false` otherwise. -/
def DecodeBase58Check (H : Hashes) (psz : List UInt8) : Option (List UInt8) :=
  match DecodeBase58 psz with
  | none => none
  | some vchRet =>
    if vchRet.length < 4 then none
    else if (H.Hash (vchRet.take (vchRet.length - 4))).take 4 ≠ vchRet.drop (vchRet.length - 4)
    then none
    else some (vchRet.take (vchRet.length - 4))

/-- `DecodeBase58Check` inverts `EncodeBase58Check` when the hash has at least four bytes. -/
theorem DecodeBase58Check_EncodeBase58Check (H : Hashes) (vch : List UInt8)
    (hH : 4 ≤ (H.Hash vch).length) :
    DecodeBase58Check H (EncodeBase58Check H vch) = some vch := by
  have hlen : (vch ++ (H.Hash vch).take 4).length - 4 = vch.length := by
    rw [List.length_append, List.length_take, Nat.min_eq_left hH, Nat.add_sub_cancel]
  unfold DecodeBase58Check EncodeBase58Check
  rw [DecodeBase58_EncodeBase58]
  dsimp only
  rw [if_neg (by rw [List.length_append, List.length_take]; omega), hlen,
    List.take_left' rfl, List.drop_left' rfl, if_neg (not_not.2 rfl)]

/-- What `DecodeBase58Check` accepts is what `DecodeBase58` accepts, and `EncodeBase58Check` of
the result is the run of the alphabet read. -/
theorem DecodeBase58Check_eq_some (H : Hashes) {s v : List UInt8}
    (h : DecodeBase58Check H s = some v) :
    ∃ ws run ws' rest, s = ws ++ run ++ ws' ++ rest ∧
      (∀ c ∈ ws ++ ws', DecodeBase58.IsSpace c = true) ∧ (∀ c ∈ run, c ∈ pszBase58) ∧
      rest.headD 0 = 0 ∧ EncodeBase58Check H v = run := by
  unfold DecodeBase58Check at h
  cases hdec : DecodeBase58 s with
  | none => rw [hdec] at h; cases h
  | some w =>
    rw [hdec] at h
    dsimp only at h
    split_ifs at h with hshort hsum
    rw [Option.some.injEq] at h
    subst h
    obtain ⟨ws, run, ws', rest, hs, hsp, hrun, hend, henc⟩ := DecodeBase58_eq_some hdec
    refine ⟨ws, run, ws', rest, hs, hsp, hrun, hend, ?_⟩
    -- the checksum read is the one `EncodeBase58Check` appends
    rw [EncodeBase58Check, not_not.1 hsum, List.take_append_drop, henc]

/-- `EncodeDestination`: the version prefix and the 20-byte hash in base58check, or `""` for
what `CRavenAddress` does not accept. -/
def EncodeDestination (H : Hashes) (P : CChainParams) : CTxDestination → List UInt8
  | CNoDestination => []
  | CKeyID id => if id.length = 20 then EncodeBase58Check H (P.base58PubkeyAddress ++ id) else []
  | CScriptID id =>
    if id.length = 20 then EncodeBase58Check H (P.base58ScriptAddress ++ id) else []

/-- The address `AssetFromScript` and its siblings report: they ignore `ExtractDestination`'s
result and encode whatever destination it left, `CNoDestination` if none. -/
def ScriptAddress (H : Hashes) (P : CChainParams) (s : CScript) : List UInt8 :=
  EncodeDestination H P ((ExtractDestination H s).getD CNoDestination)

/-- `GetScriptForDestination(CKeyID)`: the pay-to-pubkey-hash script. -/
def P2PKH (h : List UInt8) : CScript :=
  [OP_DUP, OP_HASH160, 0x14] ++ h ++ [OP_EQUALVERIFY, OP_CHECKSIG]

/-! ### Keys and hashes for concrete runs -/

/-- The key hash of the main network's issue burn address `strIssueAssetBurnAddress`. -/
def IssueBurnKey : List UInt8 :=
  [246, 46, 99, 185, 51, 149, 58, 104, 15, 60, 58, 99, 50, 73, 72, 41, 59, 164, 125, 22]

/-- The key hash of the main network's reissue burn address. -/
def ReissueBurnKey : List UInt8 :=
  [242, 236, 86, 28, 119, 67, 94, 30, 106, 67, 225, 25, 32, 54, 140, 156, 138, 65, 197, 164]

/-- The key hash of the main network's sub-asset burn address. -/
def SubBurnKey : List UInt8 :=
  [246, 46, 99, 185, 71, 107, 172, 27, 147, 40, 50, 109, 102, 143, 160, 24, 199, 34, 10, 222]

/-- Two key hashes of users. -/
def SampleKeyA : List UInt8 := List.replicate 20 0x11
def SampleKeyB : List UInt8 := List.replicate 20 0x22

/-- Hash functions for concrete runs: `Hash` returns the double SHA-256 of the payloads of the
main network's issue, reissue and sub-asset burn addresses and of the sample keys' addresses,
and zeros elsewhere; no run hashes anything else. -/
def SampleHashes : Hashes where
  Hash := fun v =>
    if v = 60 :: IssueBurnKey then
      [79, 102, 186, 25, 98, 34, 169, 218, 157, 181, 134, 93, 23, 126, 41, 75, 243, 153, 156, 107, 180, 120, 94, 239, 5, 164, 56, 130, 125, 246, 245, 232]
    else if v = 60 :: ReissueBurnKey then
      [95, 147, 123, 10, 203, 23, 15, 182, 14, 170, 75, 82, 201, 166, 94, 81, 118, 65, 103, 31, 133, 50, 139, 90, 11, 208, 16, 174, 79, 116, 122, 73]
    else if v = 60 :: SubBurnKey then
      [36, 10, 67, 47, 179, 132, 8, 36, 186, 244, 160, 180, 94, 60, 15, 121, 58, 28, 8, 17, 88, 205, 103, 0, 204, 119, 47, 42, 32, 57, 212, 64]
    else if v = 60 :: SampleKeyA then
      [24, 134, 180, 153, 168, 76, 97, 212, 156, 29, 153, 166, 146, 76, 194, 129, 15, 237, 237, 9, 65, 145, 180, 208, 88, 33, 165, 97, 90, 245, 203, 57]
    else if v = 60 :: SampleKeyB then
      [54, 74, 252, 84, 187, 44, 30, 34, 165, 16, 218, 178, 227, 19, 160, 108, 183, 107, 162, 244, 36, 18, 118, 74, 228, 79, 20, 212, 156, 28, 154, 209]
    else List.replicate 32 0
  Hash160 := fun _ => List.replicate 20 0

/-- The address of `SampleKeyA`. -/
def SampleAddressA : List UInt8 := EncodeDestination SampleHashes MainParams (CKeyID SampleKeyA)

/-- With these hashes, a pay-to-pubkey-hash output to `SubBurnKey` pays the main network's
sub-asset burn address. -/
example : EncodeDestination SampleHashes MainParams (CKeyID SubBurnKey) =
    MainParams.strIssueSubAssetBurnAddress := by
  decide +kernel


end Ravencoin
