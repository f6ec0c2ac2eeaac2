import Ravencoin.Primitives

/-!
# Scripts (`script/script.h`, `script/script.cpp`)

Opcodes, the instruction reader `GetOp`, the push encoding `CScript << vch`, the fixed-form
tests (`IsPayToPublicKeyHash`, `IsPayToScriptHash`, `IsWitnessProgram`, `IsPushOnly`) and the
asset-script recogniser `CScript::IsAssetScript`.

## Main definitions

* `Ravencoin.txnouttype` — the output types of `script/standard.h`.
* `Ravencoin.GetOp` — `CScript::GetOp2`: one instruction and its pushed data.
* `Ravencoin.PushData` — `CScript::operator<<(const std::vector<unsigned char>&)`.
* `Ravencoin.IsAssetScript` — `CScript::IsAssetScript(nType, fIsOwner, nStartingIndex)`.

## Implementation notes

`IsAssetScript` inspects bytes `25` to `31` of a script longer than `30` bytes. When the
script is exactly `31` bytes long and `"rvn"` sits at `28..30`, the C++ reads byte `31`, one
past the end; the model reads no byte there, so no type tag matches and the script is not an
asset script.
-/

set_option autoImplicit false

namespace Ravencoin

open ByteStream

/-! ### Opcodes -/

def OP_0 : UInt8 := 0x00
def OP_PUSHDATA1 : UInt8 := 0x4c
def OP_PUSHDATA2 : UInt8 := 0x4d
def OP_PUSHDATA4 : UInt8 := 0x4e
def OP_1NEGATE : UInt8 := 0x4f
def OP_1 : UInt8 := 0x51
def OP_16 : UInt8 := 0x60
def OP_NOP : UInt8 := 0x61
def OP_IF : UInt8 := 0x63
def OP_NOTIF : UInt8 := 0x64
def OP_ELSE : UInt8 := 0x67
def OP_ENDIF : UInt8 := 0x68
def OP_VERIFY : UInt8 := 0x69
def OP_RETURN : UInt8 := 0x6a
def OP_TOALTSTACK : UInt8 := 0x6b
def OP_FROMALTSTACK : UInt8 := 0x6c
def OP_2DROP : UInt8 := 0x6d
def OP_2DUP : UInt8 := 0x6e
def OP_3DUP : UInt8 := 0x6f
def OP_2OVER : UInt8 := 0x70
def OP_2ROT : UInt8 := 0x71
def OP_2SWAP : UInt8 := 0x72
def OP_IFDUP : UInt8 := 0x73
def OP_DEPTH : UInt8 := 0x74
def OP_DROP : UInt8 := 0x75
def OP_DUP : UInt8 := 0x76
def OP_NIP : UInt8 := 0x77
def OP_OVER : UInt8 := 0x78
def OP_PICK : UInt8 := 0x79
def OP_ROLL : UInt8 := 0x7a
def OP_ROT : UInt8 := 0x7b
def OP_SWAP : UInt8 := 0x7c
def OP_TUCK : UInt8 := 0x7d
def OP_CAT : UInt8 := 0x7e
def OP_SUBSTR : UInt8 := 0x7f
def OP_LEFT : UInt8 := 0x80
def OP_RIGHT : UInt8 := 0x81
def OP_SIZE : UInt8 := 0x82
def OP_INVERT : UInt8 := 0x83
def OP_AND : UInt8 := 0x84
def OP_OR : UInt8 := 0x85
def OP_XOR : UInt8 := 0x86
def OP_EQUAL : UInt8 := 0x87
def OP_EQUALVERIFY : UInt8 := 0x88
def OP_1ADD : UInt8 := 0x8b
def OP_1SUB : UInt8 := 0x8c
def OP_2MUL : UInt8 := 0x8d
def OP_2DIV : UInt8 := 0x8e
def OP_NEGATE : UInt8 := 0x8f
def OP_ABS : UInt8 := 0x90
def OP_NOT : UInt8 := 0x91
def OP_0NOTEQUAL : UInt8 := 0x92
def OP_ADD : UInt8 := 0x93
def OP_SUB : UInt8 := 0x94
def OP_MUL : UInt8 := 0x95
def OP_DIV : UInt8 := 0x96
def OP_MOD : UInt8 := 0x97
def OP_LSHIFT : UInt8 := 0x98
def OP_RSHIFT : UInt8 := 0x99
def OP_BOOLAND : UInt8 := 0x9a
def OP_BOOLOR : UInt8 := 0x9b
def OP_NUMEQUAL : UInt8 := 0x9c
def OP_NUMEQUALVERIFY : UInt8 := 0x9d
def OP_NUMNOTEQUAL : UInt8 := 0x9e
def OP_LESSTHAN : UInt8 := 0x9f
def OP_GREATERTHAN : UInt8 := 0xa0
def OP_LESSTHANOREQUAL : UInt8 := 0xa1
def OP_GREATERTHANOREQUAL : UInt8 := 0xa2
def OP_MIN : UInt8 := 0xa3
def OP_MAX : UInt8 := 0xa4
def OP_WITHIN : UInt8 := 0xa5
def OP_RIPEMD160 : UInt8 := 0xa6
def OP_SHA1 : UInt8 := 0xa7
def OP_SHA256 : UInt8 := 0xa8
def OP_HASH160 : UInt8 := 0xa9
def OP_HASH256 : UInt8 := 0xaa
def OP_CODESEPARATOR : UInt8 := 0xab
def OP_CHECKSIG : UInt8 := 0xac
def OP_CHECKSIGVERIFY : UInt8 := 0xad
def OP_CHECKMULTISIG : UInt8 := 0xae
def OP_CHECKMULTISIGVERIFY : UInt8 := 0xaf
def OP_NOP1 : UInt8 := 0xb0
def OP_CHECKLOCKTIMEVERIFY : UInt8 := 0xb1
def OP_CHECKSEQUENCEVERIFY : UInt8 := 0xb2
def OP_NOP4 : UInt8 := 0xb3
def OP_NOP10 : UInt8 := 0xb9
def OP_RVN_ASSET : UInt8 := 0xc0
def OP_SMALLINTEGER : UInt8 := 0xfa
def OP_PUBKEYS : UInt8 := 0xfb
def OP_PUBKEYHASH : UInt8 := 0xfd
def OP_PUBKEY : UInt8 := 0xfe
def OP_INVALIDOPCODE : UInt8 := 0xff

/-- The asset marker bytes `RVN_R`, `RVN_V`, `RVN_N` and the type tags `RVN_Q` (new asset),
`RVN_T` (transfer), `RVN_O` (owner). -/
def RVN_R : UInt8 := 114
def RVN_V : UInt8 := 118
def RVN_N : UInt8 := 110
def RVN_Q : UInt8 := 113
def RVN_T : UInt8 := 116
def RVN_O : UInt8 := 111

/-- `txnouttype`. -/
inductive txnouttype
  | TX_NONSTANDARD
  | TX_PUBKEY
  | TX_PUBKEYHASH
  | TX_SCRIPTHASH
  | TX_MULTISIG
  | TX_NULL_DATA
  | TX_WITNESS_V0_SCRIPTHASH
  | TX_WITNESS_V0_KEYHASH
  | TX_NEW_ASSET
  | TX_REISSUE_ASSET
  | TX_TRANSFER_ASSET
deriving DecidableEq, Repr

open txnouttype

/-! ### Reading and writing instructions -/

/-- The length of the data pushed by an opcode at most `OP_PUSHDATA4`: the opcode itself
below `OP_PUSHDATA1`, else a 1-, 2- or 4-byte little-endian length read after it. -/
def PushSize (opcode : UInt8) (pc : CScript) : Option (Nat × CScript) :=
  if opcode < OP_PUSHDATA1 then some (opcode.toNat, pc)
  else if opcode = OP_PUSHDATA1 then readLE 1 pc
  else if opcode = OP_PUSHDATA2 then readLE 2 pc
  else readLE 4 pc

/-- `CScript::GetOp2`: the opcode at the front, the data it pushes, and the rest of the
script; `none` at the end of the script or when a push runs past it. -/
def GetOp (s : CScript) : Option (UInt8 × List UInt8 × CScript) :=
  match s with
  | [] => none
  | opcode :: pc =>
    if opcode ≤ OP_PUSHDATA4 then
      match PushSize opcode pc with
      | none => none
      | some (nSize, pc) =>
        if nSize ≤ pc.length then some (opcode, pc.take nSize, pc.drop nSize) else none
    else some (opcode, [], pc)

/-- `CScript::operator<<(const std::vector<unsigned char>&)`: the shortest push opcode for
the length, then the data. -/
def PushData (b : List UInt8) : CScript :=
  (if b.length < OP_PUSHDATA1.toNat then [b.length.toUInt8]
   else if b.length ≤ 0xff then [OP_PUSHDATA1, b.length.toUInt8]
   else if b.length ≤ 0xffff then OP_PUSHDATA2 :: leBytes 2 b.length
   else OP_PUSHDATA4 :: leBytes 4 b.length) ++ b

theorem length_PushData_le {b : List UInt8} : (PushData b).length ≤ b.length + 5 := by
  unfold PushData
  split_ifs <;> simp [length_leBytes] <;> omega

/-- A push of at most `0xffff` bytes starts with a push opcode. -/
theorem PushData_headD_le {b : List UInt8} (hb : b.length ≤ 0xffff) :
    (PushData b).headD 0 ≤ OP_PUSHDATA4 := by
  unfold PushData
  split_ifs with h1 h2
  · simp only [OP_PUSHDATA1, OP_PUSHDATA4, List.cons_append, List.headD_cons,
      UInt8.le_iff_toNat_le] at h1 ⊢
    simp at h1 ⊢
    omega
  all_goals
    simp only [List.cons_append, List.headD_cons]
    decide

theorem GetOp_cons_of_lt {op : UInt8} (pc : CScript) (h : OP_PUSHDATA4 < op) :
    GetOp (op :: pc) = some (op, [], pc) := by
  simp [GetOp, UInt8.not_le.2 h]

/-- `GetOp` reads back what `PushData` wrote: the push opcode and exactly the pushed bytes. -/
theorem GetOp_PushData_append {b : List UInt8} (rest : CScript) (hb : b.length ≤ 0xffff) :
    GetOp (PushData b ++ rest) = some ((PushData b).headD 0, b, rest) := by
  unfold PushData
  split_ifs with h1 h2
  · -- the length is the opcode
    have hle : b.length.toUInt8 ≤ OP_PUSHDATA4 := by
      simp [OP_PUSHDATA1, OP_PUSHDATA4, UInt8.le_iff_toNat_le] at h1 ⊢; omega
    have hlt : b.length.toUInt8 < OP_PUSHDATA1 := by
      simp [OP_PUSHDATA1, UInt8.lt_iff_toNat_lt] at h1 ⊢; omega
    have hn : b.length.toUInt8.toNat = b.length := by simp [OP_PUSHDATA1] at h1 ⊢; omega
    simp [GetOp, PushSize, hle, hlt, hn]
  · -- a one-byte length after `OP_PUSHDATA1`
    have hread : readLE 1 (b.length.toUInt8 :: (b ++ rest)) = some (b.length, b ++ rest) := by
      have h := readLE_append [b.length.toUInt8] (b ++ rest)
      simp only [List.length_singleton, List.singleton_append, leNat] at h
      rw [h]
      simp
      omega
    simp [GetOp, PushSize, OP_PUSHDATA1, OP_PUSHDATA4, hread]
  · -- a two-byte length after `OP_PUSHDATA2`
    have hread : readLE 2 (leBytes 2 b.length ++ (b ++ rest)) = some (b.length, b ++ rest) := by
      have h := readLE_append (leBytes 2 b.length) (b ++ rest)
      rw [length_leBytes, leNat_leBytes] at h
      rw [h, Nat.mod_eq_of_lt (by omega)]
    simp [GetOp, PushSize, OP_PUSHDATA1, OP_PUSHDATA2, OP_PUSHDATA4, hread]

/-- `CScript::DecodeOP_N` on `OP_0` and `OP_1 .. OP_16`. -/
def DecodeOP_N (opcode : UInt8) : Nat :=
  if opcode = OP_0 then 0 else opcode.toNat - (OP_1.toNat - 1)

/-! ### Fixed-form tests -/

/-- `CScript::IsPayToPublicKeyHash`. -/
def IsPayToPublicKeyHash (s : CScript) : Bool :=
  s.length == 25 && s[0]? == some OP_DUP && s[1]? == some OP_HASH160 && s[2]? == some 0x14 &&
    s[23]? == some OP_EQUALVERIFY && s[24]? == some OP_CHECKSIG

/-- `CScript::IsPayToScriptHash`. -/
def IsPayToScriptHash (s : CScript) : Bool :=
  s.length == 23 && s[0]? == some OP_HASH160 && s[1]? == some 0x14 && s[22]? == some OP_EQUAL

/-- `CScript::IsWitnessProgram`: the version and the program. -/
def IsWitnessProgram (s : CScript) : Option (Nat × List UInt8) :=
  if s.length < 4 || s.length > 42 then none
  else match s with
    | v :: len :: program =>
      if v ≠ OP_0 && (v < OP_1 || v > OP_16) then none
      else if len.toNat + 2 = s.length then some (DecodeOP_N v, program)
      else none
    | _ => none

/-- `CScript::IsPushOnly(pc)`: every instruction from here on reads and is at most `OP_16`.
Each instruction consumes a byte, so `s.length` steps reach the end. -/
def IsPushOnly (s : CScript) : Bool :=
  go s.length s
where
  go : Nat → CScript → Bool
    | 0, s => s.isEmpty
    | fuel + 1, s =>
      match GetOp s with
      | none => s.isEmpty
      | some (opcode, _, rest) => opcode ≤ OP_16 && go fuel rest

/-! ### Asset scripts -/

/-- Where the type tag of an asset script sits: `"rvn"` at `27..29` (after a one-byte push) puts
it at `30`, `"rvn"` at `28..30` (after an `OP_PUSHDATA1` push) at `31`. -/
def AssetTagIndex (s : CScript) : Option Nat :=
  if s[27]? = some RVN_R then
    if s[28]? = some RVN_V ∧ s[29]? = some RVN_N then some 30 else none
  else if s[28]? = some RVN_R ∧ s[29]? = some RVN_V ∧ s[30]? = some RVN_N then some 31
  else none

/-- The asset type the tag at `index` announces, the owner flag, and where the data starts. -/
def AssetTypeAt (s : CScript) (index : Nat) : Option (txnouttype × Bool × Nat) :=
  if s[index]? = some RVN_T then some (TX_TRANSFER_ASSET, false, index + 1)
  else if s[index]? = some RVN_Q ∧ s.length > 39 then some (TX_NEW_ASSET, false, index + 1)
  else if s[index]? = some RVN_O then some (TX_NEW_ASSET, true, index + 1)
  else if s[index]? = some RVN_R then some (TX_REISSUE_ASSET, false, index + 1)
  else none

/-- `CScript::IsAssetScript(nType, fIsOwner, nStartingIndex)`: `OP_RVN_ASSET` at byte `25`,
`"rvn"` and then the type tag; the result is the type, the owner flag and the index where the
asset data starts. -/
def IsAssetScript (s : CScript) : Option (txnouttype × Bool × Nat) :=
  if s.length > 30 ∧ s[25]? = some OP_RVN_ASSET then
    match AssetTagIndex s with
    | none => none
    | some index => AssetTypeAt s index
  else none

/-- `CScript::IsAssetScript()` without outputs. -/
def IsAssetScriptB (s : CScript) : Bool := (IsAssetScript s).isSome

/-- `CScript::IsTransferAsset`. -/
def IsTransferAsset (s : CScript) : Bool :=
  match IsAssetScript s with
  | some (t, _, _) => t == TX_TRANSFER_ASSET
  | none => false

/-- `CScript::IsReissueAsset`. -/
def IsReissueAsset (s : CScript) : Bool :=
  match IsAssetScript s with
  | some (t, _, _) => t == TX_REISSUE_ASSET
  | none => false

/-- `CScript::Find(op)`: the number of instructions equal to `op`, counted until the first
unreadable one. Each instruction consumes a byte, so `s.length` steps reach the end. -/
def FindOp (op : UInt8) (s : CScript) : Nat :=
  go s.length s
where
  go : Nat → CScript → Nat
    | 0, _ => 0
    | fuel + 1, s =>
      match GetOp s with
      | none => 0
      | some (opcode, _, rest) => (if opcode = op then 1 else 0) + go fuel rest

/-- `Coin::IsAsset`. -/
def Coin.IsAsset (c : Coin) : Bool := IsAssetScriptB c.out.scriptPubKey

end Ravencoin
