import Ravencoin.Script.Interpreter
import Ravencoin.Consensus.TxVerify

/-!
# Who can spend an asset output

An asset output's script is a spending script followed by `OP_RVN_ASSET <payload> OP_DROP`.
The interpreter executes `OP_RVN_ASSET` as a no-op and drops the payload, so the coin is spent
by whatever satisfies the script in front. When that script is the pay-to-pubkey-hash script
of a key hash, as the wallet builds it, spending needs a key with that hash and a signature the
checker accepts, exactly as for a plain pay-to-pubkey-hash output; only the script code the
signature commits to is the whole asset script.

The node, on the other hand, reads the owner of the asset at fixed offsets: `Solver` reports
bytes `3..23` as the key hash of a pay-to-pubkey-hash script, and `IsAssetScript` looks only at
bytes `25..31`. `CheckTransaction` checks the payload of a transfer and nothing of the script in
front, so an output whose first 25 bytes are not a pay-to-pubkey-hash script is credited to an
owner who is not the one who can spend it.

## Main results

* `Ravencoin.EvalScript_AppendAssetPayload_P2PKH` — the run of a pay-to-pubkey-hash script with
  an asset payload: the key's hash is compared, then `OP_CHECKSIG` decides.
* `Ravencoin.asset_P2PKH_spend_needs_key` — a verified spend of such an output presents a key
  with the output's key hash and a signature the checker accepts.
* `Ravencoin.asset_spend_not_owner_p2pkh` — a transfer output `CheckTransaction` accepts,
  credited to the address of `SampleKeyA`, that an empty `scriptSig` spends under the standard
  flags while the pay-to-pubkey-hash script of `SampleKeyA` is not spent by it.

## Implementation notes

The runs are symbolic: each instruction is one step lemma of the interpreter
(`EvalLoop_of_GetOp`, `EvalStep_push`, `EvalStep_op`), with the stack-size check after every
instruction kept as an explicit case.
-/

set_option autoImplicit false

namespace Ravencoin

open ScriptError SigVersion txnouttype

/-! ### Running a pay-to-pubkey-hash asset script -/

section Run

variable (X : ScriptCrypto) (flags : UInt32) (checker : BaseSignatureChecker)
  (sigversion : SigVersion)

/-- `GetScriptForDestination(CKeyID)` as instructions: the key hash is one push. -/
theorem P2PKH_eq {h : List UInt8} (hh : h.length = 20) :
    P2PKH h = [OP_DUP, OP_HASH160] ++ PushData h ++ [OP_EQUALVERIFY, OP_CHECKSIG] := by
  simp [P2PKH, PushData, hh, OP_PUSHDATA1]

/-- The five instructions of a pay-to-pubkey-hash script at the start of a script: the stack
must hold a key, which grows the stack by three before `OP_EQUALVERIFY` and must hash to `h`;
then `OP_CHECKSIG` runs as the fifth instruction, and the loop goes on with what follows. -/
theorem EvalLoop_P2PKH_append {h : List UInt8} (hh : h.length = 20) (tail : CScript) (fuel : Nat)
    (stack : List valtype) (code : CScript) :
    EvalLoop X flags checker sigversion (fuel + 5) (P2PKH h ++ tail) ⟨stack, [], [], 0, code⟩ =
      match stack with
      | [] => .error SCRIPT_ERR_INVALID_STACK_OPERATION
      | vchPubKey :: rest =>
        if rest.length + 3 > MAX_STACK_SIZE then .error SCRIPT_ERR_STACK_SIZE
        else if X.Hash160 vchPubKey = h then
          ExecCheckSig X flags checker sigversion false ⟨vchPubKey :: rest, [], [], 4, code⟩ >>=
            CheckStackSize >>= EvalLoop X flags checker sigversion fuel tail
        else .error SCRIPT_ERR_EQUALVERIFY := by
  have hop : (PushData h).headD 0 = 0x14 := by simp [PushData, hh, OP_PUSHDATA1]
  have hget : GetOp (PushData h ++ OP_EQUALVERIFY :: OP_CHECKSIG :: tail) =
      some (0x14, h, OP_EQUALVERIFY :: OP_CHECKSIG :: tail) := by
    rw [GetOp_PushData_append _ (by omega), hop]
  have hmin : CheckMinimalPush h 0x14 = true := by
    rw [← hop]
    exact CheckMinimalPush_PushData (by omega) (by omega)
  have hscript : P2PKH h ++ tail =
      OP_DUP :: OP_HASH160 :: (PushData h ++ OP_EQUALVERIFY :: OP_CHECKSIG :: tail) := by
    simp [P2PKH_eq hh]
  rw [hscript, EvalLoop_cons_of_lt _ _ _ _ _ _ (by decide)]
  cases stack with
  | nil => rfl
  | cons vchPubKey rest =>
    -- the instructions one at a time; only the sizes and the hash comparison are open
    have hdup : EvalStep X flags checker sigversion OP_DUP [] (OP_HASH160 :: (PushData h ++
          OP_EQUALVERIFY :: OP_CHECKSIG :: tail)) ⟨vchPubKey :: rest, [], [], 0, code⟩ =
        CheckStackSize ⟨vchPubKey :: vchPubKey :: rest, [], [], 1, code⟩ := rfl
    have hhash : EvalStep X flags checker sigversion OP_HASH160 [] (PushData h ++
          OP_EQUALVERIFY :: OP_CHECKSIG :: tail) ⟨vchPubKey :: vchPubKey :: rest, [], [], 1, code⟩ =
        CheckStackSize ⟨X.Hash160 vchPubKey :: vchPubKey :: rest, [], [], 2, code⟩ := rfl
    have hpush : EvalStep X flags checker sigversion 0x14 h (OP_EQUALVERIFY :: OP_CHECKSIG :: tail)
          ⟨X.Hash160 vchPubKey :: vchPubKey :: rest, [], [], 2, code⟩ =
        CheckStackSize ⟨h :: X.Hash160 vchPubKey :: vchPubKey :: rest, [], [], 2, code⟩ := by
      rw [EvalStep_push _ _ _ _ (by decide) (by simp [hh, MAX_SCRIPT_ELEMENT_SIZE]) rfl]
      simp [hmin]
    have hequal : EvalStep X flags checker sigversion OP_EQUALVERIFY [] (OP_CHECKSIG :: tail)
          ⟨h :: X.Hash160 vchPubKey :: vchPubKey :: rest, [], [], 2, code⟩ =
        if X.Hash160 vchPubKey = h then CheckStackSize ⟨vchPubKey :: rest, [], [], 3, code⟩
        else .error SCRIPT_ERR_EQUALVERIFY := by
      rw [EvalStep_op _ _ _ _ (by decide : OP_16 < OP_EQUALVERIFY) (by decide),
        ExecOpcode_EQUALVERIFY]
      · by_cases hc : X.Hash160 vchPubKey = h <;> simp [hc, MAX_OPS_PER_SCRIPT, bind, Except.bind]
      · rfl
    have hsig : EvalStep X flags checker sigversion OP_CHECKSIG [] tail
          ⟨vchPubKey :: rest, [], [], 3, code⟩ =
        ExecCheckSig X flags checker sigversion false ⟨vchPubKey :: rest, [], [], 4, code⟩ >>=
          CheckStackSize := rfl
    -- the stack grows to `rest.length + 3` at the push of the key hash and shrinks after it
    dsimp only
    rw [hdup]
    by_cases hsz : rest.length + 3 > MAX_STACK_SIZE
    · rw [if_pos hsz]
      by_cases hsz2 : MAX_STACK_SIZE < rest.length + 2
      · exact CheckStackSize_bind_of_lt _ (by simp only [List.length_cons, List.length_nil]; omega)
      · rw [CheckStackSize_bind_of_le _ (by simp; omega),
          EvalLoop_cons_of_lt _ _ _ _ _ _ (by decide), hhash,
          CheckStackSize_bind_of_le _ (by simp; omega), EvalLoop_of_GetOp _ _ _ _ _ hget, hpush,
          CheckStackSize_bind_of_lt _ (by simp; omega)]
    · rw [if_neg hsz, CheckStackSize_bind_of_le _ (by simp; omega),
        EvalLoop_cons_of_lt _ _ _ _ _ _ (by decide), hhash,
        CheckStackSize_bind_of_le _ (by simp; omega), EvalLoop_of_GetOp _ _ _ _ _ hget, hpush,
        CheckStackSize_bind_of_le _ (by simp; omega), EvalLoop_cons_of_lt _ _ _ _ _ _ (by decide),
        hequal]
      split_ifs with hc
      · rw [CheckStackSize_bind_of_le _ (by simp; omega),
          EvalLoop_cons_of_lt _ _ _ _ _ _ (by decide), hsig]
      · rfl

/-- `OP_RVN_ASSET <P> OP_DROP` in an executed branch counts two opcodes and leaves the stack as
it was, when both limits leave room. -/
theorem EvalLoop_asset_suffix {P : List UInt8} (hP : 2 ≤ P.length)
    (hP' : P.length ≤ MAX_SCRIPT_ELEMENT_SIZE) (fuel : Nat) (st : ScriptState)
    (hexec : st.vfExec = []) (hops : st.nOpCount + 2 ≤ MAX_OPS_PER_SCRIPT)
    (hsize : st.stack.length + st.altstack.length + 1 ≤ MAX_STACK_SIZE) :
    EvalLoop X flags checker sigversion (fuel + 3) (OP_RVN_ASSET :: (PushData P ++ [OP_DROP])) st =
      .ok { st with nOpCount := st.nOpCount + 2 } := by
  have hb : P.length ≤ 0xffff := by simp [MAX_SCRIPT_ELEMENT_SIZE] at hP'; omega
  have hasset : EvalStep X flags checker sigversion OP_RVN_ASSET [] (PushData P ++ [OP_DROP]) st =
      CheckStackSize { st with nOpCount := st.nOpCount + 1 } := by
    rw [EvalStep_op _ _ _ _ (by decide) (by decide) hexec, if_neg (by omega),
      ExecOpcode_RVN_ASSET]
    rfl
  have hpush : EvalStep X flags checker sigversion ((PushData P).headD 0) P [OP_DROP]
        { st with nOpCount := st.nOpCount + 1 } =
      CheckStackSize { st with stack := P :: st.stack, nOpCount := st.nOpCount + 1 } := by
    rw [EvalStep_push _ _ _ _ (PushData_headD_le hb) hP']
    · rw [CheckMinimalPush_PushData hP hb]
      simp
    · exact hexec
  have hdrop : EvalStep X flags checker sigversion OP_DROP [] []
        { st with stack := P :: st.stack, nOpCount := st.nOpCount + 1 } =
      CheckStackSize { st with nOpCount := st.nOpCount + 2 } := by
    rw [EvalStep_op _ _ _ _ (by decide : OP_16 < OP_DROP) (by decide), if_neg (by simp; omega),
      ExecOpcode_DROP]
    · rfl
    · exact hexec
  rw [EvalLoop_cons_of_lt _ _ _ _ _ _ (by decide), hasset,
    CheckStackSize_bind_of_le _ (by simp; omega),
    EvalLoop_of_GetOp _ _ _ _ _ (GetOp_PushData_append _ hb), hpush,
    CheckStackSize_bind_of_le _ (by simp; omega), EvalLoop_cons_of_lt _ _ _ _ _ _ (by decide),
    hdrop, CheckStackSize_bind_of_le _ (by simp; omega), EvalLoop_nil]

/-- The whole run of a pay-to-pubkey-hash script of `h` that carries an asset payload of at
most `516` bytes: the top element must hash to `h`, and `OP_CHECKSIG` on the rest of the stack
decides, with the whole asset script as its script code. -/
theorem EvalScript_AppendAssetPayload_P2PKH {h : List UInt8} (hh : h.length = 20) (tag : UInt8)
    {payload : List UInt8} (hp : payload.length + 4 ≤ MAX_SCRIPT_ELEMENT_SIZE)
    (stack : List valtype) :
    EvalScript X flags checker SIGVERSION_BASE stack (AppendAssetPayload (P2PKH h) tag payload) =
      match stack with
      | [] => .error SCRIPT_ERR_INVALID_STACK_OPERATION
      | vchPubKey :: rest =>
        if rest.length + 3 > MAX_STACK_SIZE then .error SCRIPT_ERR_STACK_SIZE
        else if X.Hash160 vchPubKey = h then
          ScriptState.stack <$> ExecCheckSig X flags checker SIGVERSION_BASE false
            ⟨vchPubKey :: rest, [], [], 4, AppendAssetPayload (P2PKH h) tag payload⟩
        else .error SCRIPT_ERR_EQUALVERIFY := by
  set s := AppendAssetPayload (P2PKH h) tag payload with hs
  set P := [RVN_R, RVN_V, RVN_N, tag] ++ payload with hPdef
  have hP : 2 ≤ P.length := by simp [hPdef]
  have hP' : P.length ≤ MAX_SCRIPT_ELEMENT_SIZE := by simp [hPdef]; omega
  have hsplit : s = P2PKH h ++ OP_RVN_ASSET :: (PushData P ++ [OP_DROP]) := by
    simp [hs, hPdef, AppendAssetPayload]
  have hlen : s.length = (P2PKH h).length + (PushData P).length + 2 := by
    rw [hsplit]; simp; omega
  have hsize : ¬ s.length > MAX_SCRIPT_SIZE := by
    have := @length_PushData_le P
    simp [hlen, P2PKH, hh, MAX_SCRIPT_SIZE, MAX_SCRIPT_ELEMENT_SIZE] at hP' ⊢
    omega
  have hfuel : s.length = (s.length - 8) + 3 + 5 := by simp [hlen, P2PKH, hh]; omega
  have hrun := EvalLoop_P2PKH_append X flags checker SIGVERSION_BASE hh
    (OP_RVN_ASSET :: (PushData P ++ [OP_DROP])) (s.length - 8 + 3) stack s
  rw [← hsplit] at hrun
  unfold EvalScript
  rw [if_neg hsize, hfuel, hrun]
  cases stack with
  | nil => rfl
  | cons vchPubKey rest =>
    dsimp only
    split_ifs with hsz hkey
    · rfl
    · cases hc : ExecCheckSig X flags checker SIGVERSION_BASE false
          ⟨vchPubKey :: rest, [], [], 4, s⟩ with
      | error e => rfl
      | ok st1 =>
        -- `OP_CHECKSIG` leaves one element for two, so the payload fits on the stack
        obtain ⟨pk, sig, r, hstack, rfl⟩ := ExecCheckSig_false_ok X flags checker SIGVERSION_BASE hc
        obtain ⟨rfl, rfl⟩ : vchPubKey = pk ∧ rest = sig :: r := by simpa using hstack
        simp only [List.length_cons] at hsz
        rw [ok_bind, CheckStackSize_bind_of_le _ (by simp; omega),
          EvalLoop_asset_suffix X flags checker SIGVERSION_BASE hP hP']
        · rfl
        · rfl
        · simp [MAX_OPS_PER_SCRIPT]
        · simp; omega
    · rfl

end Run

/-! ### Only the key's owner spends such an output -/

section Owner

variable (X : ScriptCrypto) (flags : UInt32) (checker : BaseSignatureChecker)

/-- Whatever the flags and the `scriptSig`, a verified spend of a pay-to-pubkey-hash asset
output presents a key whose hash is the output's key hash and a signature the checker accepts
for it. -/
theorem asset_P2PKH_spend_needs_key {h : List UInt8} (hh : h.length = 20) {tag : UInt8}
    {payload : List UInt8} (hp : payload.length + 4 ≤ MAX_SCRIPT_ELEMENT_SIZE)
    {scriptSig : CScript} {witness : List valtype}
    (hok : VerifyScript X flags checker scriptSig (AppendAssetPayload (P2PKH h) tag payload)
      witness = .ok ()) :
    ∃ vchSig vchPubKey, X.Hash160 vchPubKey = h ∧
      checker.CheckSig vchSig vchPubKey
        (FindAndDelete (AppendAssetPayload (P2PKH h) tag payload) (PushData vchSig)).1
        SIGVERSION_BASE = true := by
  obtain ⟨stack, top, rest, -, hrun, htop⟩ := VerifyScript_ok X flags checker hok
  rw [EvalScript_AppendAssetPayload_P2PKH X flags checker hh tag hp] at hrun
  cases stack with
  | nil => cases hrun
  | cons vchPubKey r =>
    dsimp only at hrun
    split_ifs at hrun with hsz hkey
    cases hc : ExecCheckSig X flags checker SIGVERSION_BASE false
        ⟨vchPubKey :: r, [], [], 4, AppendAssetPayload (P2PKH h) tag payload⟩ with
    | error e => rw [hc] at hrun; cases hrun
    | ok st1 =>
      rw [hc] at hrun
      obtain ⟨pk, sig, r', hstack, rfl⟩ := ExecCheckSig_false_ok X flags checker SIGVERSION_BASE hc
      obtain ⟨rfl, rfl⟩ : vchPubKey = pk ∧ r = sig :: r' := by simpa using hstack
      -- the element `OP_CHECKSIG` leaves is the one the script ends with
      refine ⟨sig, vchPubKey, hkey, ?_⟩
      by_contra hf
      simp only [Functor.map, Except.map, if_true, hf, if_false,
        Except.ok.injEq, List.cons.injEq] at hrun
      rw [← hrun.1] at htop
      exact absurd htop (by decide)

end Owner

/-- A transfer of one `ABC` to the key hash that `SampleCrypto` gives every key. -/
def ZeroKeyTransferScript : CScript :=
  CAssetTransfer.ConstructTransaction ⟨str "ABC", COIN⟩ (P2PKH (List.replicate 20 0))

/-- A signature and a compressed key. -/
def ZeroKeySpendSig : CScript := PushData [1] ++ PushData (2 :: List.replicate 32 0)

theorem ZeroKeyTransferScript_spend :
    VerifyScript SampleCrypto SCRIPT_VERIFY_NONE AcceptAllChecker ZeroKeySpendSig
        ZeroKeyTransferScript [] = .ok () ∧
      ∃ vchSig vchPubKey, SampleCrypto.Hash160 vchPubKey = List.replicate 20 0 ∧
        AcceptAllChecker.CheckSig vchSig vchPubKey
          (FindAndDelete ZeroKeyTransferScript (PushData vchSig)).1 SIGVERSION_BASE = true :=
  have hok : VerifyScript SampleCrypto SCRIPT_VERIFY_NONE AcceptAllChecker ZeroKeySpendSig
      ZeroKeyTransferScript [] = .ok () := by
    decide +kernel
  ⟨hok, asset_P2PKH_spend_needs_key SampleCrypto SCRIPT_VERIFY_NONE AcceptAllChecker
    (by decide) (by decide +kernel) hok⟩

/-! ### A spending script that is not the owner's -/

/-- A transfer of one `ABC` whose first 25 bytes push 24 bytes instead of forming a
pay-to-pubkey-hash script; bytes `3..23` are the key hash `SampleKeyA`. -/
def PushPrefixTransferScript : CScript :=
  CAssetTransfer.ConstructTransaction ⟨str "ABC", COIN⟩ (0x18 :: List.replicate 24 0x11)

/-- Spend the unit of `ABC` of `TransferCoinView` into `PushPrefixTransferScript`. -/
def PushPrefixTransferTx : CTransaction :=
  SpendTx 8 [⟨5, 0⟩] [⟨0, PushPrefixTransferScript⟩]

/-- `CheckTransaction` and `CheckTxAssets` accept `PushPrefixTransferTx`, the node reads its
output as a transfer to the address of `SampleKeyA`, and an empty `scriptSig` satisfies the
output under the standard flags, while it does not satisfy the pay-to-pubkey-hash script of
`SampleKeyA`, whatever the checker answers. -/
theorem asset_spend_not_owner_p2pkh :
    (CheckTransaction SampleConfig SampleNode PushPrefixTransferTx true true false true true
        ⟨RootIssuedGlobals.passets, RootIssuedGlobals⟩).1 = .ok () ∧
      (CheckTxAssets SampleConfig SampleNode PushPrefixTransferTx TransferCoinView false
        RootIssuedGlobals).1 = .ok [] ∧
      IsAssetScript PushPrefixTransferScript = some (TX_TRANSFER_ASSET, false, 31) ∧
      Solver PushPrefixTransferScript = some (TX_TRANSFER_ASSET, [SampleKeyA]) ∧
      (TransferAssetFromScript SampleHashes MainParams PushPrefixTransferScript).map (·.2) =
        some SampleAddressA ∧
      VerifyScript SampleCrypto STANDARD_SCRIPT_VERIFY_FLAGS AcceptAllChecker []
        PushPrefixTransferScript [] = .ok () ∧
      VerifyScript SampleCrypto STANDARD_SCRIPT_VERIFY_FLAGS AcceptAllChecker [] (P2PKH SampleKeyA)
        [] = .error (.error SCRIPT_ERR_INVALID_STACK_OPERATION) := by
  decide +kernel

end Ravencoin
