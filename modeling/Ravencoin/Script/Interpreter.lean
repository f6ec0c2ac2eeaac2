import Ravencoin.Assets.Scripts
import Ravencoin.Script.ScriptNum

/-!
# The script interpreter (`script/interpreter.cpp`)

`EvalScript` runs a script on a stack of byte strings. It reads one instruction at a time,
enforces the limits on element size, opcode count and stack size, keeps the stack `vfExec` of
open conditionals, and executes an instruction when every enclosing branch is taken (the
conditionals themselves always execute). `OP_RVN_ASSET` executes as a no-op. `VerifyScript`
runs an input's `scriptSig`, then the spent output's `scriptPubKey` on the stack it left, and
adds what the flags ask for: the pay-to-script-hash evaluation, the witness programs, and the
clean-stack rule.

## Main definitions

* `Ravencoin.ScriptError` — `ScriptError_t`.
* `Ravencoin.BaseSignatureChecker` — the checker interface: signatures, lock times, sequences.
* `Ravencoin.ScriptCrypto` — the hash functions and `CPubKey::CheckLowS`.
* `Ravencoin.FindAndDelete` — `CScript::FindAndDelete`.
* `Ravencoin.EvalStep` — one pass of the instruction loop; `Ravencoin.EvalScript`.
* `Ravencoin.VerifyScript`.

## Main results

* `Ravencoin.EvalLoop_of_GetOp`, `Ravencoin.EvalStep_push`, `Ravencoin.EvalStep_op` — the loop
  and its two kinds of step in an executed branch, for running a script symbolically.
* `Ravencoin.ExecCheckSig_false_ok` — what a successful `OP_CHECKSIG` leaves.
* `Ravencoin.VerifyScript_ok` — a verified input ran `scriptPubKey` to a true top element.

## Implementation notes

A stack is a list with its top first: `stacktop(-i)` is the element at index `i - 1`, and the
open conditionals of `vfExec` are listed innermost first. The position `pbegincodehash` is kept
as the part of the script from it to the end, which is all `CScript(pbegincodehash, pend)`
reads. An exception thrown inside the instruction loop (a `scriptnum_error`) becomes the
`SCRIPT_ERR_UNKNOWN_ERROR` of the C++ `catch`; the other throws (`popstack` on an empty stack,
`stack.at` out of range) cannot happen after the size checks. A witness is the list of its
elements in the C++ order (last element on top). A failed `assert` of `VerifyScript` is an
abort.
-/

set_option autoImplicit false

namespace Ravencoin

/-- `ScriptError_t`, without `SCRIPT_ERR_OK`. -/
inductive ScriptError
  | SCRIPT_ERR_UNKNOWN_ERROR
  | SCRIPT_ERR_EVAL_FALSE
  | SCRIPT_ERR_OP_RETURN
  | SCRIPT_ERR_SCRIPT_SIZE
  | SCRIPT_ERR_PUSH_SIZE
  | SCRIPT_ERR_OP_COUNT
  | SCRIPT_ERR_STACK_SIZE
  | SCRIPT_ERR_SIG_COUNT
  | SCRIPT_ERR_PUBKEY_COUNT
  | SCRIPT_ERR_VERIFY
  | SCRIPT_ERR_EQUALVERIFY
  | SCRIPT_ERR_CHECKMULTISIGVERIFY
  | SCRIPT_ERR_CHECKSIGVERIFY
  | SCRIPT_ERR_NUMEQUALVERIFY
  | SCRIPT_ERR_BAD_OPCODE
  | SCRIPT_ERR_DISABLED_OPCODE
  | SCRIPT_ERR_INVALID_STACK_OPERATION
  | SCRIPT_ERR_INVALID_ALTSTACK_OPERATION
  | SCRIPT_ERR_UNBALANCED_CONDITIONAL
  | SCRIPT_ERR_NEGATIVE_LOCKTIME
  | SCRIPT_ERR_UNSATISFIED_LOCKTIME
  | SCRIPT_ERR_SIG_HASHTYPE
  | SCRIPT_ERR_SIG_DER
  | SCRIPT_ERR_MINIMALDATA
  | SCRIPT_ERR_SIG_PUSHONLY
  | SCRIPT_ERR_SIG_HIGH_S
  | SCRIPT_ERR_SIG_NULLDUMMY
  | SCRIPT_ERR_PUBKEYTYPE
  | SCRIPT_ERR_CLEANSTACK
  | SCRIPT_ERR_MINIMALIF
  | SCRIPT_ERR_SIG_NULLFAIL
  | SCRIPT_ERR_DISCOURAGE_UPGRADABLE_NOPS
  | SCRIPT_ERR_DISCOURAGE_UPGRADABLE_WITNESS_PROGRAM
  | SCRIPT_ERR_WITNESS_PROGRAM_WRONG_LENGTH
  | SCRIPT_ERR_WITNESS_PROGRAM_WITNESS_EMPTY
  | SCRIPT_ERR_WITNESS_PROGRAM_MISMATCH
  | SCRIPT_ERR_WITNESS_MALLEATED
  | SCRIPT_ERR_WITNESS_MALLEATED_P2SH
  | SCRIPT_ERR_WITNESS_UNEXPECTED
  | SCRIPT_ERR_WITNESS_PUBKEYTYPE
deriving DecidableEq, Repr

open ScriptError

/-- How `VerifyScript` ends when it does not succeed: `false` with an error code, or a failed
`assert`. -/
inductive VerifyFailure
  | error (serror : ScriptError)
  | abort (what : List UInt8)
deriving DecidableEq, Repr

/-! ### Flags and limits -/

def SCRIPT_VERIFY_NONE : UInt32 := 0
def SCRIPT_VERIFY_P2SH : UInt32 := (1 : UInt32) <<< 0
def SCRIPT_VERIFY_STRICTENC : UInt32 := (1 : UInt32) <<< 1
def SCRIPT_VERIFY_DERSIG : UInt32 := (1 : UInt32) <<< 2
def SCRIPT_VERIFY_LOW_S : UInt32 := (1 : UInt32) <<< 3
def SCRIPT_VERIFY_NULLDUMMY : UInt32 := (1 : UInt32) <<< 4
def SCRIPT_VERIFY_SIGPUSHONLY : UInt32 := (1 : UInt32) <<< 5
def SCRIPT_VERIFY_MINIMALDATA : UInt32 := (1 : UInt32) <<< 6
def SCRIPT_VERIFY_DISCOURAGE_UPGRADABLE_NOPS : UInt32 := (1 : UInt32) <<< 7
def SCRIPT_VERIFY_CLEANSTACK : UInt32 := (1 : UInt32) <<< 8
def SCRIPT_VERIFY_CHECKLOCKTIMEVERIFY : UInt32 := (1 : UInt32) <<< 9
def SCRIPT_VERIFY_CHECKSEQUENCEVERIFY : UInt32 := (1 : UInt32) <<< 10
def SCRIPT_VERIFY_WITNESS : UInt32 := (1 : UInt32) <<< 11
def SCRIPT_VERIFY_DISCOURAGE_UPGRADABLE_WITNESS_PROGRAM : UInt32 := (1 : UInt32) <<< 12
def SCRIPT_VERIFY_MINIMALIF : UInt32 := (1 : UInt32) <<< 13
def SCRIPT_VERIFY_NULLFAIL : UInt32 := (1 : UInt32) <<< 14
def SCRIPT_VERIFY_WITNESS_PUBKEYTYPE : UInt32 := (1 : UInt32) <<< 15

/-- `MANDATORY_SCRIPT_VERIFY_FLAGS` (`script/standard.h`). -/
def MANDATORY_SCRIPT_VERIFY_FLAGS : UInt32 := SCRIPT_VERIFY_P2SH

/-- `STANDARD_SCRIPT_VERIFY_FLAGS` (`policy/policy.h`). -/
def STANDARD_SCRIPT_VERIFY_FLAGS : UInt32 :=
  MANDATORY_SCRIPT_VERIFY_FLAGS ||| SCRIPT_VERIFY_DERSIG ||| SCRIPT_VERIFY_STRICTENC |||
    SCRIPT_VERIFY_MINIMALDATA ||| SCRIPT_VERIFY_NULLDUMMY |||
    SCRIPT_VERIFY_DISCOURAGE_UPGRADABLE_NOPS ||| SCRIPT_VERIFY_CLEANSTACK |||
    SCRIPT_VERIFY_MINIMALIF ||| SCRIPT_VERIFY_NULLFAIL ||| SCRIPT_VERIFY_CHECKLOCKTIMEVERIFY |||
    SCRIPT_VERIFY_CHECKSEQUENCEVERIFY ||| SCRIPT_VERIFY_LOW_S ||| SCRIPT_VERIFY_WITNESS |||
    SCRIPT_VERIFY_DISCOURAGE_UPGRADABLE_WITNESS_PROGRAM ||| SCRIPT_VERIFY_WITNESS_PUBKEYTYPE

/-- Whether `flags` has the flag `f` set: `(flags & f) != 0`. -/
def HasFlag (flags f : UInt32) : Bool := flags &&& f != 0

def MAX_SCRIPT_ELEMENT_SIZE : Nat := 520
def MAX_OPS_PER_SCRIPT : Nat := 201
def MAX_PUBKEYS_PER_MULTISIG : Int := 20
def MAX_STACK_SIZE : Nat := 1000

/-- `CTxIn::SEQUENCE_LOCKTIME_DISABLE_FLAG`. -/
def SEQUENCE_LOCKTIME_DISABLE_FLAG : Nat := 2 ^ 31

/-- The hash types of a signature's last byte. -/
def SIGHASH_ALL : UInt8 := 1
def SIGHASH_SINGLE : UInt8 := 3
def SIGHASH_ANYONECANPAY : UInt8 := 0x80

/-! ### The checker and the cryptography -/

/-- `SigVersion`. -/
inductive SigVersion
  | SIGVERSION_BASE
  | SIGVERSION_WITNESS_V0
deriving DecidableEq, Repr

open SigVersion

/-- `BaseSignatureChecker`: what the interpreter asks about the spending transaction. The
transaction checker hashes the transaction for `CheckSig`; the interpreter sees only the
answers. -/
structure BaseSignatureChecker where
  CheckSig : List UInt8 → List UInt8 → CScript → SigVersion → Bool
  CheckLockTime : CScriptNum → Bool
  CheckSequence : CScriptNum → Bool

/-- The hash functions the interpreter calls besides `Hash` (`CHash256`) and `Hash160`
(`CHash160`), and `CPubKey::CheckLowS`, which asks the secp256k1 library whether the `S` value
of a DER signature is at most half the group order. -/
structure ScriptCrypto extends Hashes where
  RIPEMD160 : List UInt8 → List UInt8
  SHA1 : List UInt8 → List UInt8
  SHA256 : List UInt8 → List UInt8
  CheckLowS : List UInt8 → Bool

/-- A stack element. -/
abbrev valtype := List UInt8

/-- `vchTrue`, `vchFalse`. -/
def vchTrue : valtype := [1]
def vchFalse : valtype := []

/-- `CastToBool`: some byte is nonzero, where a last byte `0x80` (negative zero) counts as
zero. -/
def CastToBool : valtype → Bool
  | [] => false
  | [b] => b != 0 && b != 0x80
  | b :: rest => b != 0 || CastToBool rest

/-! ### Encodings of signatures, keys and pushes -/

/-- `IsCompressedOrUncompressedPubKey`. -/
def IsCompressedOrUncompressedPubKey (vchPubKey : valtype) : Bool :=
  if vchPubKey.length < 33 then false
  else if vchPubKey.headD 0 = 0x04 then vchPubKey.length == 65
  else if vchPubKey.headD 0 = 0x02 ∨ vchPubKey.headD 0 = 0x03 then vchPubKey.length == 33
  else false

/-- `IsCompressedPubKey`. -/
def IsCompressedPubKey (vchPubKey : valtype) : Bool :=
  vchPubKey.length == 33 && (vchPubKey.headD 0 == 0x02 || vchPubKey.headD 0 == 0x03)

/-- `IsValidSignatureEncoding`: the strict DER form
`0x30 [total-length] 0x02 [R-length] [R] 0x02 [S-length] [S] [sighash]` of BIP66. Every byte
it reads lies inside the signature once the checks before the read hold. -/
def IsValidSignatureEncoding (sig : List UInt8) : Bool :=
  let byte (i : Nat) : Nat := (sig.getD i 0).toNat
  let lenR := byte 3
  let lenS := byte (5 + lenR)
  decide (9 ≤ sig.length) && decide (sig.length ≤ 73) && byte 0 == 0x30 &&
    byte 1 + 3 == sig.length && decide (5 + lenR < sig.length) &&
    lenR + lenS + 7 == sig.length &&
    -- `R`: an integer, not empty, not negative, not padded with a needless zero byte
    byte 2 == 0x02 && lenR != 0 && byte 4 &&& 0x80 == 0 &&
    !(lenR > 1 && byte 4 == 0 && byte 5 &&& 0x80 == 0) &&
    -- `S`: the same rules
    byte (lenR + 4) == 0x02 && lenS != 0 && byte (lenR + 6) &&& 0x80 == 0 &&
    !(lenS > 1 && byte (lenR + 6) == 0 && byte (lenR + 7) &&& 0x80 == 0)

/-- `IsDefinedHashtypeSignature`: the last byte, without `SIGHASH_ANYONECANPAY`, is one of
`SIGHASH_ALL`, `SIGHASH_NONE`, `SIGHASH_SINGLE`. -/
def IsDefinedHashtypeSignature (vchSig : valtype) : Bool :=
  match vchSig.getLast? with
  | none => false
  | some last =>
    let nHashType := last &&& ~~~SIGHASH_ANYONECANPAY
    SIGHASH_ALL ≤ nHashType && nHashType ≤ SIGHASH_SINGLE

section Encodings

variable (X : ScriptCrypto) (flags : UInt32)

/-- `IsLowDERSignature`. -/
def IsLowDERSignature (vchSig : valtype) : Except ScriptError Unit :=
  if !IsValidSignatureEncoding vchSig then .error SCRIPT_ERR_SIG_DER
  else if !X.CheckLowS vchSig.dropLast then .error SCRIPT_ERR_SIG_HIGH_S
  else .ok ()

/-- `CheckSignatureEncoding`: the empty signature always passes. -/
def CheckSignatureEncoding (vchSig : valtype) : Except ScriptError Unit :=
  if vchSig.length = 0 then .ok ()
  else if HasFlag flags (SCRIPT_VERIFY_DERSIG ||| SCRIPT_VERIFY_LOW_S ||| SCRIPT_VERIFY_STRICTENC) &&
      !IsValidSignatureEncoding vchSig then .error SCRIPT_ERR_SIG_DER
  else if HasFlag flags SCRIPT_VERIFY_LOW_S then IsLowDERSignature X vchSig
  else if HasFlag flags SCRIPT_VERIFY_STRICTENC && !IsDefinedHashtypeSignature vchSig then
    .error SCRIPT_ERR_SIG_HASHTYPE
  else .ok ()

/-- `CheckPubKeyEncoding`. -/
def CheckPubKeyEncoding (vchPubKey : valtype) (sigversion : SigVersion) :
    Except ScriptError Unit :=
  if HasFlag flags SCRIPT_VERIFY_STRICTENC && !IsCompressedOrUncompressedPubKey vchPubKey then
    .error SCRIPT_ERR_PUBKEYTYPE
  else if HasFlag flags SCRIPT_VERIFY_WITNESS_PUBKEYTYPE && sigversion = SIGVERSION_WITNESS_V0 &&
      !IsCompressedPubKey vchPubKey then .error SCRIPT_ERR_WITNESS_PUBKEYTYPE
  else .ok ()

end Encodings

/-- `CheckMinimalPush`: the data is pushed by the shortest opcode that can push it. -/
def CheckMinimalPush (data : valtype) (opcode : UInt8) : Bool :=
  let b := data.headD 0
  if data.length = 0 then opcode = OP_0
  else if data.length = 1 ∧ 1 ≤ b ∧ b ≤ 16 then opcode = OP_1 + (b - 1)
  else if data.length = 1 ∧ b = 0x81 then opcode = OP_1NEGATE
  else if data.length ≤ 75 then opcode.toNat = data.length
  else if data.length ≤ 255 then opcode = OP_PUSHDATA1
  else if data.length ≤ 65535 then opcode = OP_PUSHDATA2
  else true

/-- `PushData` writes a minimal push of a string of two bytes or more. -/
theorem CheckMinimalPush_PushData {b : List UInt8} (h2 : 2 ≤ b.length) (hb : b.length ≤ 0xffff) :
    CheckMinimalPush b ((PushData b).headD 0) = true := by
  have hne : b ≠ [] := by
    rintro rfl
    simp at h2
  have hone : b.length ≠ 1 := by omega
  unfold PushData
  split_ifs with h1 h3
  · simp [OP_PUSHDATA1] at h1
    simp [CheckMinimalPush, hne, hone, show b.length ≤ 75 by omega]
    omega
  · simp [OP_PUSHDATA1] at h1
    simp [CheckMinimalPush, hne, hone, show ¬ b.length ≤ 75 by omega, h3]
  · simp [CheckMinimalPush, hne, hone, show ¬ b.length ≤ 75 by omega, h3, hb]

/-! ### `FindAndDelete` -/

/-- The inner loop of `FindAndDelete`: the copies of `b` at the front of `s` skipped, and how
many. Each copy has a byte, so `s.length` passes suffice. -/
def SkipCopies (b : CScript) : Nat → CScript → CScript × Nat
  | 0, s => (s, 0)
  | fuel + 1, s =>
    if b.length ≤ s.length ∧ s.take b.length = b then
      let r := SkipCopies b fuel (s.drop b.length)
      (r.1, r.2 + 1)
    else (s, 0)

/-- The outer loop of `FindAndDelete`: at each instruction boundary skip the copies of `b`,
then keep the next instruction; an unreadable rest is kept whole. -/
def FindAndDeleteLoop (b : CScript) : Nat → CScript → CScript × Nat
  | 0, s => (s, 0)
  | fuel + 1, s =>
    let (s, nFound) := SkipCopies b s.length s
    match GetOp s with
    | none => (s, nFound)
    | some (_, _, rest) =>
      let r := FindAndDeleteLoop b fuel rest
      (s.take (s.length - rest.length) ++ r.1, nFound + r.2)

/-- `CScript::FindAndDelete(b)`: the script with every copy of `b` that starts at an
instruction boundary removed, and the number removed. -/
def FindAndDelete (script b : CScript) : CScript × Nat :=
  if b = [] then (script, 0)
  else
    let r := FindAndDeleteLoop b script.length script
    if r.2 > 0 then r else (script, 0)

/-! ### The instruction loop -/

/-- The state the instruction loop of `EvalScript` carries. -/
structure ScriptState where
  stack : List valtype
  altstack : List valtype
  vfExec : List Bool
  nOpCount : Nat
  pbegincodehash : CScript
deriving DecidableEq, Repr

/-- The opcodes that fail even in an unexecuted branch. -/
def IsDisabledOpcode (opcode : UInt8) : Bool :=
  opcode = OP_CAT || opcode = OP_SUBSTR || opcode = OP_LEFT || opcode = OP_RIGHT ||
    opcode = OP_INVERT || opcode = OP_AND || opcode = OP_OR || opcode = OP_XOR ||
    opcode = OP_2MUL || opcode = OP_2DIV || opcode = OP_MUL || opcode = OP_DIV ||
    opcode = OP_MOD || opcode = OP_LSHIFT || opcode = OP_RSHIFT

theorem IsDisabledOpcode_of_le {opcode : UInt8} (h : opcode ≤ OP_PUSHDATA4) :
    IsDisabledOpcode opcode = false := by
  simp [OP_PUSHDATA4, UInt8.le_iff_toNat_le] at h
  simp [IsDisabledOpcode, OP_CAT, OP_SUBSTR, OP_LEFT, OP_RIGHT, OP_INVERT, OP_AND, OP_OR, OP_XOR,
    OP_2MUL, OP_2DIV, OP_MUL, OP_DIV, OP_MOD, OP_LSHIFT, OP_RSHIFT, ← UInt8.toNat_inj]
  omega

/-- `CScriptNum(vch, fRequireMinimal, nMaxNumSize)` inside the loop: its `scriptnum_error` is
caught as `SCRIPT_ERR_UNKNOWN_ERROR`. -/
def ScriptNumArg (fRequireMinimal : Bool) (nMaxNumSize : Nat) (vch : valtype) :
    Except ScriptError CScriptNum :=
  match CScriptNum.FromVch vch fRequireMinimal nMaxNumSize with
  | .ok n => .ok n
  | .error _ => .error SCRIPT_ERR_UNKNOWN_ERROR

/-- A truth value as a script number: `bn = (condition)`. -/
def BoolNum (b : Bool) : Int := if b then 1 else 0

/-- The one-operand numeric opcodes `OP_1ADD` to `OP_0NOTEQUAL`. -/
def UnaryNumOp (opcode : UInt8) (bn : Int) : Int :=
  if opcode = OP_1ADD then bn + 1
  else if opcode = OP_1SUB then bn - 1
  else if opcode = OP_NEGATE then -bn
  else if opcode = OP_ABS then (if bn < 0 then -bn else bn)
  else if opcode = OP_NOT then BoolNum (bn = 0)
  else BoolNum (bn ≠ 0)

/-- The two-operand numeric opcodes `OP_ADD` to `OP_MAX`; `bn1` was below `bn2`. -/
def BinaryNumOp (opcode : UInt8) (bn1 bn2 : Int) : Int :=
  if opcode = OP_ADD then bn1 + bn2
  else if opcode = OP_SUB then bn1 - bn2
  else if opcode = OP_BOOLAND then BoolNum (bn1 ≠ 0 ∧ bn2 ≠ 0)
  else if opcode = OP_BOOLOR then BoolNum (bn1 ≠ 0 ∨ bn2 ≠ 0)
  else if opcode = OP_NUMEQUAL ∨ opcode = OP_NUMEQUALVERIFY then BoolNum (bn1 = bn2)
  else if opcode = OP_NUMNOTEQUAL then BoolNum (bn1 ≠ bn2)
  else if opcode = OP_LESSTHAN then BoolNum (bn1 < bn2)
  else if opcode = OP_GREATERTHAN then BoolNum (bn1 > bn2)
  else if opcode = OP_LESSTHANOREQUAL then BoolNum (bn1 ≤ bn2)
  else if opcode = OP_GREATERTHANOREQUAL then BoolNum (bn1 ≥ bn2)
  else if opcode = OP_MIN then (if bn1 < bn2 then bn1 else bn2)
  else if bn1 > bn2 then bn1 else bn2

section Eval

variable (X : ScriptCrypto) (flags : UInt32) (checker : BaseSignatureChecker)
  (sigversion : SigVersion)

/-- The hash opcodes `OP_RIPEMD160` to `OP_HASH256`. -/
def HashOp (opcode : UInt8) (vch : valtype) : valtype :=
  if opcode = OP_RIPEMD160 then X.RIPEMD160 vch
  else if opcode = OP_SHA1 then X.SHA1 vch
  else if opcode = OP_SHA256 then X.SHA256 vch
  else if opcode = OP_HASH160 then X.Hash160 vch
  else X.Hash vch

/-- The stack-manipulating opcodes `OP_2DROP` to `OP_TUCK` other than `OP_PICK` and `OP_ROLL`,
and `OP_SIZE`: the new stack, or `none` when the stack holds too few elements. -/
def StackOp (opcode : UInt8) (stack : List valtype) : Option (List valtype) :=
  if opcode = OP_2DROP then
    match stack with | _ :: _ :: rest => some rest | _ => none
  else if opcode = OP_2DUP then
    match stack with | a :: b :: rest => some (a :: b :: a :: b :: rest) | _ => none
  else if opcode = OP_3DUP then
    match stack with | a :: b :: c :: rest => some (a :: b :: c :: a :: b :: c :: rest) | _ => none
  else if opcode = OP_2OVER then
    match stack with
    | a :: b :: c :: d :: rest => some (c :: d :: a :: b :: c :: d :: rest)
    | _ => none
  else if opcode = OP_2ROT then
    match stack with
    | a :: b :: c :: d :: e :: f :: rest => some (e :: f :: a :: b :: c :: d :: rest)
    | _ => none
  else if opcode = OP_2SWAP then
    match stack with | a :: b :: c :: d :: rest => some (c :: d :: a :: b :: rest) | _ => none
  else if opcode = OP_IFDUP then
    match stack with
    | a :: rest => some (if CastToBool a then a :: a :: rest else a :: rest)
    | _ => none
  else if opcode = OP_DROP then
    match stack with | _ :: rest => some rest | _ => none
  else if opcode = OP_DUP then
    match stack with | a :: rest => some (a :: a :: rest) | _ => none
  else if opcode = OP_NIP then
    match stack with | a :: _ :: rest => some (a :: rest) | _ => none
  else if opcode = OP_OVER then
    match stack with | a :: b :: rest => some (b :: a :: b :: rest) | _ => none
  else if opcode = OP_ROT then
    match stack with | a :: b :: c :: rest => some (c :: a :: b :: rest) | _ => none
  else if opcode = OP_SWAP then
    match stack with | a :: b :: rest => some (b :: a :: rest) | _ => none
  else if opcode = OP_TUCK then
    match stack with | a :: b :: rest => some (a :: b :: a :: rest) | _ => none
  else
    -- `OP_SIZE`
    match stack with
    | a :: rest => some ((CScriptNum.mk a.length).getvch :: a :: rest)
    | _ => none

/-- `OP_CHECKSIG` and `OP_CHECKSIGVERIFY` (`fVerify`). -/
def ExecCheckSig (fVerify : Bool) (st : ScriptState) : Except ScriptError ScriptState :=
  match st.stack with
  | vchPubKey :: vchSig :: rest => do
    -- the signature cannot sign itself: it is cut out of the legacy script code
    let scriptCode :=
      if sigversion = SIGVERSION_BASE then (FindAndDelete st.pbegincodehash (PushData vchSig)).1
      else st.pbegincodehash
    CheckSignatureEncoding X flags vchSig
    CheckPubKeyEncoding flags vchPubKey sigversion
    let fSuccess := checker.CheckSig vchSig vchPubKey scriptCode sigversion
    if !fSuccess && HasFlag flags SCRIPT_VERIFY_NULLFAIL && vchSig.length != 0 then
      throw SCRIPT_ERR_SIG_NULLFAIL
    if fVerify then
      if fSuccess then pure { st with stack := rest } else throw SCRIPT_ERR_CHECKSIGVERIFY
    else pure { st with stack := (if fSuccess then vchTrue else vchFalse) :: rest }
  | _ => .error SCRIPT_ERR_INVALID_STACK_OPERATION

/-- The signature loop of `OP_CHECKMULTISIG`: the signatures, next first, are matched against
the keys in order; a key that does not verify the current signature is passed over, and the
loop fails as soon as fewer keys than signatures remain. -/
def MultisigLoop (scriptCode : CScript) : List valtype → List valtype → Except ScriptError Bool
  | [], _ => .ok true
  | _ :: _, [] => .ok false
  | vchSig :: sigs, vchPubKey :: keys => do
    CheckSignatureEncoding X flags vchSig
    CheckPubKeyEncoding flags vchPubKey sigversion
    let sigs' := if checker.CheckSig vchSig vchPubKey scriptCode sigversion then sigs
      else vchSig :: sigs
    if sigs'.length > keys.length then pure false
    else MultisigLoop scriptCode sigs' keys

/-- `OP_CHECKMULTISIG` and `OP_CHECKMULTISIGVERIFY` (`fVerify`): the stack holds the key count,
the keys, the signature count, the signatures and one extra element. The key count adds to
the opcode count. -/
def ExecCheckMultiSig (fRequireMinimal fVerify : Bool) (st : ScriptState) :
    Except ScriptError ScriptState := do
  let stack := st.stack
  let some keyCount := stack.head? | throw SCRIPT_ERR_INVALID_STACK_OPERATION
  let nKeysCount := (← ScriptNumArg fRequireMinimal 4 keyCount).getint
  if nKeysCount < 0 ∨ nKeysCount > MAX_PUBKEYS_PER_MULTISIG then throw SCRIPT_ERR_PUBKEY_COUNT
  let nKeys := nKeysCount.toNat
  let nOpCount := st.nOpCount + nKeys
  if nOpCount > MAX_OPS_PER_SCRIPT then throw SCRIPT_ERR_OP_COUNT
  let some sigCount := stack[nKeys + 1]? | throw SCRIPT_ERR_INVALID_STACK_OPERATION
  let nSigsCount := (← ScriptNumArg fRequireMinimal 4 sigCount).getint
  if nSigsCount < 0 ∨ nSigsCount > nKeysCount then throw SCRIPT_ERR_SIG_COUNT
  let nSigs := nSigsCount.toNat
  if stack.length < nKeys + nSigs + 3 then throw SCRIPT_ERR_INVALID_STACK_OPERATION
  let keys := (stack.drop 1).take nKeys
  let sigs := (stack.drop (nKeys + 2)).take nSigs
  let scriptCode :=
    if sigversion = SIGVERSION_BASE then
      sigs.foldl (fun code vchSig => (FindAndDelete code (PushData vchSig)).1) st.pbegincodehash
    else st.pbegincodehash
  let fSuccess ← MultisigLoop X flags checker sigversion scriptCode sigs keys
  -- the elements are popped; a failed check must leave every signature empty under NULLFAIL
  if !fSuccess && HasFlag flags SCRIPT_VERIFY_NULLFAIL && sigs.any (·.length != 0) then
    throw SCRIPT_ERR_SIG_NULLFAIL
  match stack.drop (nKeys + nSigs + 2) with
  | [] => throw SCRIPT_ERR_INVALID_STACK_OPERATION
  | dummy :: rest =>
    if HasFlag flags SCRIPT_VERIFY_NULLDUMMY && dummy.length != 0 then
      throw SCRIPT_ERR_SIG_NULLDUMMY
    if fVerify then
      if fSuccess then pure { st with stack := rest, nOpCount }
      else throw SCRIPT_ERR_CHECKMULTISIGVERIFY
    else pure { st with stack := (if fSuccess then vchTrue else vchFalse) :: rest, nOpCount }

/-- `OP_CHECKLOCKTIMEVERIFY` and `OP_CHECKSEQUENCEVERIFY` (`fSequence`): a no-op unless their
flag is set; then the top element, a number of up to five bytes, must be a lock time the
checker accepts. -/
def ExecCheckLockTime (fRequireMinimal fSequence : Bool) (st : ScriptState) :
    Except ScriptError ScriptState :=
  let flag := if fSequence then SCRIPT_VERIFY_CHECKSEQUENCEVERIFY
    else SCRIPT_VERIFY_CHECKLOCKTIMEVERIFY
  if !HasFlag flags flag then
    if HasFlag flags SCRIPT_VERIFY_DISCOURAGE_UPGRADABLE_NOPS then
      .error SCRIPT_ERR_DISCOURAGE_UPGRADABLE_NOPS
    else .ok st
  else match st.stack with
    | [] => .error SCRIPT_ERR_INVALID_STACK_OPERATION
    | top :: _ => do
      let n ← ScriptNumArg fRequireMinimal 5 top
      if n.m_value < 0 then throw SCRIPT_ERR_NEGATIVE_LOCKTIME
      if fSequence then
        -- a sequence with the disable flag set is not checked
        if n.m_value.toNat &&& SEQUENCE_LOCKTIME_DISABLE_FLAG ≠ 0 then return st
        if !checker.CheckSequence n then throw SCRIPT_ERR_UNSATISFIED_LOCKTIME
      else if !checker.CheckLockTime n then throw SCRIPT_ERR_UNSATISFIED_LOCKTIME
      pure st

/-- `OP_IF` and `OP_NOTIF`: when executed, the top element decides the branch (negated for
`OP_NOTIF`); an unexecuted one opens an unexecuted branch. -/
def ExecIf (fExec fNotIf : Bool) (st : ScriptState) : Except ScriptError ScriptState :=
  if fExec then
    match st.stack with
    | [] => .error SCRIPT_ERR_UNBALANCED_CONDITIONAL
    | vch :: rest =>
      if sigversion = SIGVERSION_WITNESS_V0 && HasFlag flags SCRIPT_VERIFY_MINIMALIF &&
          (vch.length > 1 || (vch.length == 1 && vch.headD 0 != 1)) then
        .error SCRIPT_ERR_MINIMALIF
      else
        let fValue := if fNotIf then !CastToBool vch else CastToBool vch
        .ok { st with stack := rest, vfExec := fValue :: st.vfExec }
  else .ok { st with vfExec := false :: st.vfExec }

/-- The `switch (opcode)` of `EvalScript`, on an instruction that is not an executed push:
`fExec` says whether every open branch is taken, `rest` is the script after the instruction. -/
def ExecOpcode (opcode : UInt8) (rest : CScript) (fExec : Bool) (st : ScriptState) :
    Except ScriptError ScriptState :=
  let fRequireMinimal := HasFlag flags SCRIPT_VERIFY_MINIMALDATA
  let stack := st.stack
  if opcode = OP_1NEGATE ∨ (OP_1 ≤ opcode ∧ opcode ≤ OP_16) then
    .ok { st with stack := (CScriptNum.mk (opcode.toNat - (OP_1.toNat - 1 : Int))).getvch :: stack }
  else if opcode = OP_NOP then .ok st
  else if opcode = OP_CHECKLOCKTIMEVERIFY then
    ExecCheckLockTime flags checker fRequireMinimal false st
  else if opcode = OP_CHECKSEQUENCEVERIFY then
    ExecCheckLockTime flags checker fRequireMinimal true st
  else if opcode = OP_NOP1 ∨ (OP_NOP4 ≤ opcode ∧ opcode ≤ OP_NOP10) then
    if HasFlag flags SCRIPT_VERIFY_DISCOURAGE_UPGRADABLE_NOPS then
      .error SCRIPT_ERR_DISCOURAGE_UPGRADABLE_NOPS
    else .ok st
  else if opcode = OP_IF ∨ opcode = OP_NOTIF then
    ExecIf flags sigversion fExec (opcode = OP_NOTIF) st
  else if opcode = OP_ELSE then
    match st.vfExec with
    | [] => .error SCRIPT_ERR_UNBALANCED_CONDITIONAL
    | b :: bs => .ok { st with vfExec := (!b) :: bs }
  else if opcode = OP_ENDIF then
    match st.vfExec with
    | [] => .error SCRIPT_ERR_UNBALANCED_CONDITIONAL
    | _ :: bs => .ok { st with vfExec := bs }
  else if opcode = OP_VERIFY then
    match stack with
    | [] => .error SCRIPT_ERR_INVALID_STACK_OPERATION
    | top :: rest => if CastToBool top then .ok { st with stack := rest } else .error SCRIPT_ERR_VERIFY
  else if opcode = OP_RETURN then .error SCRIPT_ERR_OP_RETURN
  else if opcode = OP_TOALTSTACK then
    match stack with
    | [] => .error SCRIPT_ERR_INVALID_STACK_OPERATION
    | top :: rest => .ok { st with stack := rest, altstack := top :: st.altstack }
  else if opcode = OP_FROMALTSTACK then
    match st.altstack with
    | [] => .error SCRIPT_ERR_INVALID_ALTSTACK_OPERATION
    | top :: rest => .ok { st with stack := top :: stack, altstack := rest }
  else if opcode = OP_DEPTH then
    .ok { st with stack := (CScriptNum.mk stack.length).getvch :: stack }
  else if opcode = OP_PICK ∨ opcode = OP_ROLL then
    match stack with
    | top :: below@(_ :: _) => do
      let n := (← ScriptNumArg fRequireMinimal 4 top).getint
      match below[n.toNat]? with
      | some vch =>
        if n < 0 then throw SCRIPT_ERR_INVALID_STACK_OPERATION
        let below := if opcode = OP_ROLL then below.eraseIdx n.toNat else below
        pure { st with stack := vch :: below }
      | none => throw SCRIPT_ERR_INVALID_STACK_OPERATION
    | _ => .error SCRIPT_ERR_INVALID_STACK_OPERATION
  else if (OP_2DROP ≤ opcode ∧ opcode ≤ OP_TUCK) ∨ opcode = OP_SIZE then
    match StackOp opcode stack with
    | some stack => .ok { st with stack }
    | none => .error SCRIPT_ERR_INVALID_STACK_OPERATION
  else if opcode = OP_EQUAL ∨ opcode = OP_EQUALVERIFY then
    match stack with
    | vch2 :: vch1 :: rest =>
      let fEqual := vch1 == vch2
      if opcode = OP_EQUALVERIFY then
        if fEqual then .ok { st with stack := rest } else .error SCRIPT_ERR_EQUALVERIFY
      else .ok { st with stack := (if fEqual then vchTrue else vchFalse) :: rest }
    | _ => .error SCRIPT_ERR_INVALID_STACK_OPERATION
  else if OP_1ADD ≤ opcode ∧ opcode ≤ OP_0NOTEQUAL then
    -- `OP_2MUL` and `OP_2DIV` in this range were refused as disabled
    match stack with
    | top :: rest => do
      let bn ← ScriptNumArg fRequireMinimal 4 top
      pure { st with stack := (CScriptNum.mk (UnaryNumOp opcode bn.m_value)).getvch :: rest }
    | _ => .error SCRIPT_ERR_INVALID_STACK_OPERATION
  else if OP_ADD ≤ opcode ∧ opcode ≤ OP_MAX then
    -- `OP_MUL` to `OP_RSHIFT` in this range were refused as disabled
    match stack with
    | top :: below :: rest => do
      let bn1 ← ScriptNumArg fRequireMinimal 4 below
      let bn2 ← ScriptNumArg fRequireMinimal 4 top
      let bn := (CScriptNum.mk (BinaryNumOp opcode bn1.m_value bn2.m_value)).getvch
      if opcode = OP_NUMEQUALVERIFY then
        if CastToBool bn then pure { st with stack := rest } else throw SCRIPT_ERR_NUMEQUALVERIFY
      else pure { st with stack := bn :: rest }
    | _ => .error SCRIPT_ERR_INVALID_STACK_OPERATION
  else if opcode = OP_WITHIN then
    match stack with
    | c :: b :: a :: rest => do
      let bn1 ← ScriptNumArg fRequireMinimal 4 a
      let bn2 ← ScriptNumArg fRequireMinimal 4 b
      let bn3 ← ScriptNumArg fRequireMinimal 4 c
      let fValue := bn2.m_value ≤ bn1.m_value ∧ bn1.m_value < bn3.m_value
      pure { st with stack := (if fValue then vchTrue else vchFalse) :: rest }
    | _ => .error SCRIPT_ERR_INVALID_STACK_OPERATION
  else if OP_RIPEMD160 ≤ opcode ∧ opcode ≤ OP_HASH256 then
    match stack with
    | top :: rest => .ok { st with stack := HashOp X opcode top :: rest }
    | _ => .error SCRIPT_ERR_INVALID_STACK_OPERATION
  else if opcode = OP_CODESEPARATOR then .ok { st with pbegincodehash := rest }
  else if opcode = OP_CHECKSIG ∨ opcode = OP_CHECKSIGVERIFY then
    ExecCheckSig X flags checker sigversion (opcode = OP_CHECKSIGVERIFY) st
  else if opcode = OP_CHECKMULTISIG ∨ opcode = OP_CHECKMULTISIGVERIFY then
    ExecCheckMultiSig X flags checker sigversion fRequireMinimal (opcode = OP_CHECKMULTISIGVERIFY) st
  else if opcode = OP_RVN_ASSET then .ok st
  else .error SCRIPT_ERR_BAD_OPCODE

/-- The count of the opcodes above `OP_16`, executed or not, against `MAX_OPS_PER_SCRIPT`. -/
def CountOp (opcode : UInt8) (st : ScriptState) : Except ScriptError ScriptState :=
  if opcode > OP_16 then
    if st.nOpCount + 1 > MAX_OPS_PER_SCRIPT then .error SCRIPT_ERR_OP_COUNT
    else .ok { st with nOpCount := st.nOpCount + 1 }
  else .ok st

/-- An instruction that passed the checks before it: an executed push, or the `switch`, which
runs for executed instructions and for the conditionals. -/
def ExecInstruction (opcode : UInt8) (vchPushValue : valtype) (rest : CScript) (fExec : Bool)
    (st : ScriptState) : Except ScriptError ScriptState :=
  if fExec && opcode ≤ OP_PUSHDATA4 then
    if HasFlag flags SCRIPT_VERIFY_MINIMALDATA && !CheckMinimalPush vchPushValue opcode then
      .error SCRIPT_ERR_MINIMALDATA
    else .ok { st with stack := vchPushValue :: st.stack }
  else if fExec || (OP_IF ≤ opcode && opcode ≤ OP_ENDIF) then
    ExecOpcode X flags checker sigversion opcode rest fExec st
  else .ok st

/-- The check after every instruction: the two stacks hold at most `MAX_STACK_SIZE` elements. -/
def CheckStackSize (st : ScriptState) : Except ScriptError ScriptState :=
  if st.stack.length + st.altstack.length > MAX_STACK_SIZE then .error SCRIPT_ERR_STACK_SIZE
  else .ok st

/-- One pass of the instruction loop of `EvalScript`, on the instruction `opcode` with the data
`vchPushValue` it pushes; `rest` is the script after it. -/
def EvalStep (opcode : UInt8) (vchPushValue : valtype) (rest : CScript) (st : ScriptState) :
    Except ScriptError ScriptState := do
  let fExec := !st.vfExec.contains false
  if vchPushValue.length > MAX_SCRIPT_ELEMENT_SIZE then throw SCRIPT_ERR_PUSH_SIZE
  let st ← CountOp opcode st
  if IsDisabledOpcode opcode then throw SCRIPT_ERR_DISABLED_OPCODE
  let st ← ExecInstruction X flags checker sigversion opcode vchPushValue rest fExec st
  CheckStackSize st

/-- The instruction loop of `EvalScript` over the script from `pc` on. Each instruction consumes
a byte, so `pc.length` passes suffice. -/
def EvalLoop : Nat → CScript → ScriptState → Except ScriptError ScriptState
  | 0, _, st => .ok st
  | fuel + 1, pc, st =>
    match pc with
    | [] => .ok st
    | _ :: _ =>
      match GetOp pc with
      | none => .error SCRIPT_ERR_BAD_OPCODE
      | some (opcode, vchPushValue, rest) =>
        match EvalStep X flags checker sigversion opcode vchPushValue rest st with
        | .error e => .error e
        | .ok st => EvalLoop fuel rest st

/-- `EvalScript(stack, script, flags, checker, sigversion)`: the stack the script leaves. -/
def EvalScript (stack : List valtype) (script : CScript) : Except ScriptError (List valtype) :=
  if script.length > MAX_SCRIPT_SIZE then .error SCRIPT_ERR_SCRIPT_SIZE
  else
    match EvalLoop X flags checker sigversion script.length script ⟨stack, [], [], 0, script⟩ with
    | .error e => .error e
    | .ok st => if st.vfExec ≠ [] then .error SCRIPT_ERR_UNBALANCED_CONDITIONAL else .ok st.stack

/-! ### Running instructions

Symbolic execution of a script outside any conditional: the loop takes one instruction at a
time (`EvalLoop_of_GetOp`), a push and an executed opcode each have their own step lemma, and the
opcodes later proofs run have theirs, so that no proof unfolds `ExecOpcode`. -/

/-- The opcodes above `OP_16` push nothing. -/
theorem OP_PUSHDATA4_lt {opcode : UInt8} (h : OP_16 < opcode) : OP_PUSHDATA4 < opcode := by
  simp only [OP_PUSHDATA4, OP_16, UInt8.lt_iff_toNat_lt] at h ⊢
  simp at h ⊢
  omega

theorem ok_bind {ε α β : Type} (a : α) (f : α → Except ε β) : (Except.ok a >>= f) = f a := rfl

@[simp] theorem EvalLoop_nil (fuel : Nat) (st : ScriptState) :
    EvalLoop X flags checker sigversion fuel [] st = .ok st := by
  cases fuel <;> rfl

theorem EvalLoop_of_GetOp {fuel : Nat} {pc rest : CScript} {opcode : UInt8} {vch : valtype}
    (st : ScriptState) (h : GetOp pc = some (opcode, vch, rest)) :
    EvalLoop X flags checker sigversion (fuel + 1) pc st =
      EvalStep X flags checker sigversion opcode vch rest st >>=
        EvalLoop X flags checker sigversion fuel rest := by
  match pc, h with
  | _ :: _, h =>
    simp only [EvalLoop, h]
    cases EvalStep X flags checker sigversion opcode vch rest st <;> rfl

theorem EvalLoop_cons_of_lt {fuel : Nat} {opcode : UInt8} (rest : CScript) (st : ScriptState)
    (hop : OP_PUSHDATA4 < opcode) :
    EvalLoop X flags checker sigversion (fuel + 1) (opcode :: rest) st =
      EvalStep X flags checker sigversion opcode [] rest st >>=
        EvalLoop X flags checker sigversion fuel rest :=
  EvalLoop_of_GetOp X flags checker sigversion st (GetOp_cons_of_lt rest hop)

/-- A push in an executed branch: only the element size, the minimal-push rule and the stack
size can fail it. -/
theorem EvalStep_push {opcode : UInt8} {vch : valtype} {rest : CScript} {st : ScriptState}
    (hop : opcode ≤ OP_PUSHDATA4) (hsize : vch.length ≤ MAX_SCRIPT_ELEMENT_SIZE)
    (hexec : st.vfExec = []) :
    EvalStep X flags checker sigversion opcode vch rest st =
      if HasFlag flags SCRIPT_VERIFY_MINIMALDATA && !CheckMinimalPush vch opcode then
        .error SCRIPT_ERR_MINIMALDATA
      else CheckStackSize { st with stack := vch :: st.stack } := by
  have hcount : ¬ opcode > OP_16 := fun h => absurd hop (UInt8.not_le.2 (OP_PUSHDATA4_lt h))
  simp [EvalStep, CountOp, hcount, IsDisabledOpcode_of_le hop, ExecInstruction, hop, hexec,
    not_lt.2 hsize, bind, Except.bind]
  split_ifs <;> rfl

/-- An enabled opcode above `OP_16` in an executed branch: it counts, runs, and the stack size
is checked after it. -/
theorem EvalStep_op {opcode : UInt8} {rest : CScript} {st : ScriptState}
    (hop : OP_16 < opcode) (hdis : IsDisabledOpcode opcode = false) (hexec : st.vfExec = []) :
    EvalStep X flags checker sigversion opcode [] rest st =
      if st.nOpCount + 1 > MAX_OPS_PER_SCRIPT then .error SCRIPT_ERR_OP_COUNT
      else ExecOpcode X flags checker sigversion opcode rest true
        { st with nOpCount := st.nOpCount + 1 } >>= CheckStackSize := by
  have hpush : ¬ opcode ≤ OP_PUSHDATA4 := UInt8.not_le.2 (OP_PUSHDATA4_lt hop)
  simp [EvalStep, CountOp, hop, hdis, ExecInstruction, hpush, hexec, MAX_SCRIPT_ELEMENT_SIZE,
    bind, Except.bind]
  split_ifs <;> rfl

theorem ExecOpcode_EQUALVERIFY (rest : CScript) (fExec : Bool) (st : ScriptState) :
    ExecOpcode X flags checker sigversion OP_EQUALVERIFY rest fExec st =
      match st.stack with
      | vch2 :: vch1 :: r =>
        if vch1 == vch2 then .ok { st with stack := r } else .error SCRIPT_ERR_EQUALVERIFY
      | _ => .error SCRIPT_ERR_INVALID_STACK_OPERATION := by
  obtain ⟨stack, altstack, vfExec, nOpCount, code⟩ := st
  match stack with
  | [] => rfl
  | [_] => rfl
  | _ :: _ :: _ => rfl

theorem ExecOpcode_DROP (rest : CScript) (fExec : Bool) (st : ScriptState) :
    ExecOpcode X flags checker sigversion OP_DROP rest fExec st =
      match st.stack with
      | _ :: r => .ok { st with stack := r }
      | [] => .error SCRIPT_ERR_INVALID_STACK_OPERATION := by
  obtain ⟨stack, altstack, vfExec, nOpCount, code⟩ := st
  cases stack <;> rfl

theorem ExecOpcode_RVN_ASSET (rest : CScript) (fExec : Bool) (st : ScriptState) :
    ExecOpcode X flags checker sigversion OP_RVN_ASSET rest fExec st = .ok st := rfl

theorem CheckStackSize_bind_of_le {α : Type} {st : ScriptState}
    (f : ScriptState → Except ScriptError α)
    (h : st.stack.length + st.altstack.length ≤ MAX_STACK_SIZE) :
    CheckStackSize st >>= f = f st := by
  simp [CheckStackSize, not_lt.2 h, bind, Except.bind]

theorem CheckStackSize_bind_of_lt {α : Type} {st : ScriptState}
    (f : ScriptState → Except ScriptError α)
    (h : MAX_STACK_SIZE < st.stack.length + st.altstack.length) :
    CheckStackSize st >>= f = .error SCRIPT_ERR_STACK_SIZE := by
  simp [CheckStackSize, h, bind, Except.bind]

/-- A successful `OP_CHECKSIG` replaces the key and the signature by the verdict of the
checker on the script code with the signature cut out. -/
theorem ExecCheckSig_false_ok {st st' : ScriptState}
    (h : ExecCheckSig X flags checker sigversion false st = .ok st') :
    ∃ vchPubKey vchSig rest, st.stack = vchPubKey :: vchSig :: rest ∧
      st' = { st with stack := (if checker.CheckSig vchSig vchPubKey
        (if sigversion = SIGVERSION_BASE then (FindAndDelete st.pbegincodehash (PushData vchSig)).1
          else st.pbegincodehash) sigversion then vchTrue else vchFalse) :: rest } := by
  unfold ExecCheckSig at h
  split at h
  · next vchPubKey vchSig rest hstack =>
    refine ⟨vchPubKey, vchSig, rest, hstack, ?_⟩
    simp only [bind, Except.bind, pure, Except.pure, throw, throwThe, MonadExceptOf.throw,
      Bool.false_eq_true, if_false] at h
    generalize checker.CheckSig vchSig vchPubKey _ sigversion = fSuccess at h ⊢
    -- the two encoding checks and the null-fail rule are the only failures
    split at h
    · cases h
    · split at h
      · cases h
      · split at h
        · cases h
        · cases h
          rfl
  · cases h

end Eval

/-- A checker that accepts every signature and lock time. -/
def AcceptAllChecker : BaseSignatureChecker := ⟨fun _ _ _ _ => true, fun _ => true, fun _ => true⟩

/-- The cryptography of concrete runs: the sample hashes, and constant hashes where no run
reads them. -/
def SampleCrypto : ScriptCrypto :=
  { SampleHashes with
    RIPEMD160 := fun _ => List.replicate 20 0
    SHA1 := fun _ => List.replicate 20 0
    SHA256 := fun _ => List.replicate 32 0
    CheckLowS := fun _ => true }

/-! ### Verification -/

section Verify

variable (X : ScriptCrypto) (flags : UInt32) (checker : BaseSignatureChecker)

/-- The script a witness program runs and the stack it starts from (`none`: a version above
`0`, which succeeds for future soft forks). -/
def WitnessProgramScript (witness : List valtype) (witversion : Nat) (program : List UInt8) :
    Except ScriptError (Option (CScript × List valtype)) :=
  if witversion = 0 then
    if program.length = 32 then
      -- the script is the last witness element and must hash to the program
      match witness.getLast? with
      | none => .error SCRIPT_ERR_WITNESS_PROGRAM_WITNESS_EMPTY
      | some script =>
        if X.SHA256 script ≠ program then .error SCRIPT_ERR_WITNESS_PROGRAM_MISMATCH
        else .ok (some (script, witness.dropLast.reverse))
    else if program.length = 20 then
      -- pay to a key hash: signature and key in the witness
      if witness.length ≠ 2 then .error SCRIPT_ERR_WITNESS_PROGRAM_MISMATCH
      else .ok (some (P2PKH program, witness.reverse))
    else .error SCRIPT_ERR_WITNESS_PROGRAM_WRONG_LENGTH
  else if HasFlag flags SCRIPT_VERIFY_DISCOURAGE_UPGRADABLE_WITNESS_PROGRAM then
    .error SCRIPT_ERR_DISCOURAGE_UPGRADABLE_WITNESS_PROGRAM
  else .ok none

/-- `VerifyWitnessProgram(witness, witversion, program, flags, checker)`. -/
def VerifyWitnessProgram (witness : List valtype) (witversion : Nat) (program : List UInt8) :
    Except ScriptError Unit := do
  let some (scriptPubKey, stack) ← WitnessProgramScript X flags witness witversion program
    | pure ()
  if stack.any (·.length > MAX_SCRIPT_ELEMENT_SIZE) then throw SCRIPT_ERR_PUSH_SIZE
  let stack ← EvalScript X flags checker SIGVERSION_WITNESS_V0 stack scriptPubKey
  -- a witness script must leave exactly one true element
  match stack with
  | [top] => if CastToBool top then pure () else throw SCRIPT_ERR_EVAL_FALSE
  | _ => throw SCRIPT_ERR_EVAL_FALSE

/-- The error of a script evaluation as `VerifyScript` reports it. -/
def liftScript {α : Type} (r : Except ScriptError α) : Except VerifyFailure α :=
  r.mapError VerifyFailure.error

/-- `stack.resize(1)` on a nonempty stack: only the bottom element stays. -/
def ResizeOne (stack : List valtype) : List valtype := stack.drop (stack.length - 1)

/-- The pay-to-script-hash part of `VerifyScript`: the serialized script on top of the stack
`scriptSig` left is run on the rest of that stack. The result is whether a witness program was
found, and the stack for the clean-stack rule. -/
def VerifyP2SH (scriptSig : CScript) (witness : List valtype) (stackCopy : List valtype) :
    Except VerifyFailure (Bool × List valtype) := do
  if !IsPushOnly scriptSig then throw (.error SCRIPT_ERR_SIG_PUSHONLY)
  match stackCopy with
  | [] => throw (.abort (str "assert(!stack.empty())"))
  | pubKeySerialized :: stack =>
    let pubKey2 := pubKeySerialized
    let stack ← liftScript (EvalScript X flags checker SIGVERSION_BASE stack pubKey2)
    match stack with
    | [] => throw (.error SCRIPT_ERR_EVAL_FALSE)
    | top :: _ =>
      if !CastToBool top then throw (.error SCRIPT_ERR_EVAL_FALSE)
      match IsWitnessProgram pubKey2 with
      | some (witnessversion, witnessprogram) =>
        if HasFlag flags SCRIPT_VERIFY_WITNESS then
          -- the scriptSig must be exactly the push of the redeem script
          if scriptSig ≠ PushData pubKey2 then throw (.error SCRIPT_ERR_WITNESS_MALLEATED_P2SH)
          liftScript (VerifyWitnessProgram X flags checker witness witnessversion witnessprogram)
          pure (true, ResizeOne stack)
        else pure (false, stack)
      | none => pure (false, stack)

/-- `VerifyScript(scriptSig, scriptPubKey, witness, flags, checker)`. -/
def VerifyScript (scriptSig scriptPubKey : CScript) (witness : List valtype) :
    Except VerifyFailure Unit := do
  if HasFlag flags SCRIPT_VERIFY_SIGPUSHONLY && !IsPushOnly scriptSig then
    throw (.error SCRIPT_ERR_SIG_PUSHONLY)
  let stack ← liftScript (EvalScript X flags checker SIGVERSION_BASE [] scriptSig)
  let stackCopy := stack
  let stack ← liftScript (EvalScript X flags checker SIGVERSION_BASE stack scriptPubKey)
  match stack with
  | [] => throw (.error SCRIPT_ERR_EVAL_FALSE)
  | top :: _ => if !CastToBool top then throw (.error SCRIPT_ERR_EVAL_FALSE)
  -- bare witness programs
  let (hadWitness, stack) ←
    match IsWitnessProgram scriptPubKey with
    | some (witnessversion, witnessprogram) =>
      if HasFlag flags SCRIPT_VERIFY_WITNESS then
        if scriptSig.length ≠ 0 then throw (.error SCRIPT_ERR_WITNESS_MALLEATED)
        liftScript (VerifyWitnessProgram X flags checker witness witnessversion witnessprogram)
        pure (true, ResizeOne stack)
      else pure (false, stack)
    | none => pure (false, stack)
  let (hadWitness, stack) ←
    if HasFlag flags SCRIPT_VERIFY_P2SH && IsPayToScriptHash scriptPubKey then
      let (p2shWitness, stack) ← VerifyP2SH X flags checker scriptSig witness stackCopy
      pure (hadWitness || p2shWitness, stack)
    else pure (hadWitness, stack)
  if HasFlag flags SCRIPT_VERIFY_CLEANSTACK then
    if !HasFlag flags SCRIPT_VERIFY_P2SH then
      throw (.abort (str "assert((flags & SCRIPT_VERIFY_P2SH) != 0)"))
    if !HasFlag flags SCRIPT_VERIFY_WITNESS then
      throw (.abort (str "assert((flags & SCRIPT_VERIFY_WITNESS) != 0)"))
    if stack.length ≠ 1 then throw (.error SCRIPT_ERR_CLEANSTACK)
  if HasFlag flags SCRIPT_VERIFY_WITNESS then
    if !HasFlag flags SCRIPT_VERIFY_P2SH then
      throw (.abort (str "assert((flags & SCRIPT_VERIFY_P2SH) != 0)"))
    if !hadWitness && witness ≠ [] then throw (.error SCRIPT_ERR_WITNESS_UNEXPECTED)

/-- A verified input: `scriptSig` ran, and `scriptPubKey` ran on the stack it left and left a
true element on top. -/
theorem VerifyScript_ok {scriptSig scriptPubKey : CScript} {witness : List valtype}
    (h : VerifyScript X flags checker scriptSig scriptPubKey witness = .ok ()) :
    ∃ stack top rest, EvalScript X flags checker SIGVERSION_BASE [] scriptSig = .ok stack ∧
      EvalScript X flags checker SIGVERSION_BASE stack scriptPubKey = .ok (top :: rest) ∧
      CastToBool top = true := by
  unfold VerifyScript at h
  simp only [bind, Except.bind, liftScript, Except.mapError, throw, throwThe,
    MonadExceptOf.throw, pure, Except.pure] at h
  -- whichever way the push-only rule goes, an error of either evaluation is the result
  cases hsig : EvalScript X flags checker SIGVERSION_BASE [] scriptSig with
  | error e => simp only [hsig] at h; split_ifs at h
  | ok stack =>
    cases hpk : EvalScript X flags checker SIGVERSION_BASE stack scriptPubKey with
    | error e => simp only [hsig, hpk] at h; split_ifs at h
    | ok stack' =>
      cases stack' with
      | nil => simp only [hsig, hpk] at h; split_ifs at h
      | cons top rest =>
        refine ⟨stack, top, rest, rfl, hpk, ?_⟩
        by_contra hf
        rw [Bool.not_eq_true] at hf
        simp only [hsig, hpk, hf, Bool.not_false, if_true] at h
        split_ifs at h

end Verify

end Ravencoin
