import Ravencoin.Primitives

/-!
# Amount strings (`utilmoneystr.cpp`, `utilstrencodings.cpp`, `core_write.cpp`)

The node writes an amount as a decimal string in two ways: `FormatMoney` prints the whole
coins, a point and the eight decimals with trailing zeros trimmed down to two, and
`ValueFromAmountString`, behind the RPC replies, prints the decimals a unit count asks for.
It reads amounts back in two ways: `ParseMoney` reads up to ten digits of whole coins and up to
eight decimals, and `ParseFixedPoint`, behind the RPC `AmountFromValue`, reads a decimal with
an optional exponent into a mantissa of at most eighteen significant digits, scaled by a power of
ten.

This module models the four functions, `AmountFromValue` and the loops they run, over lists of
characters. It shows that neither reader takes back everything the writers print: the amount
`20999999999.99999999` coins, within `MAX_MONEY`, has nineteen significant digits, more than
`ParseFixedPoint` keeps, and eleven digits of whole coins, more than `ParseMoney` reads.

## Main definitions

* `Ravencoin.FormatMoney`, `Ravencoin.ParseMoney`.
* `Ravencoin.ProcessMantissaDigit`, `Ravencoin.ParseFixedPoint`.
* `Ravencoin.ValueFromAmountString`, `Ravencoin.ValueFromAmount`, `Ravencoin.AmountFromValue`.

## Main results

* `Ravencoin.money_strings_not_round_tripped` — an amount within `MAX_MONEY` whose printed forms
  the readers reject.

## Implementation notes

A `std::string` is a list of characters; the functions only compare them with ASCII
characters, and `isdigit` and `isspace` are those of the C locale. `ParseMoney` reads the
string up to its first NUL, as its `const char*` overload does. The `int` counters of
`ParseFixedPoint` (`ptr`, `point_ofs`, `mantissa_tzeros`) are unbounded, which differs only on
strings of more than `2^31` characters; its `int64_t` arithmetic is on `Int`, where the source's
own checks keep it within range. `%d` of a nonnegative number is `Nat.toDigits 10`. In
`ValueFromAmountString` the quotient by the `double` `pow(10, 8 - units)` of a remainder below
`COIN` is exact before its truncation back to `int64_t`, so it is the integer quotient; the unit
counts are those of assets, `0` to `8`.
-/

set_option autoImplicit false

namespace Ravencoin

/-! ### Characters -/

/-- `isspace` in the C locale: the space and the characters from tab to carriage return. -/
def IsSpace (c : Char) : Bool := c.val = 32 || (9 ≤ c.val && c.val ≤ 13)

/-- `ch - '0'` of a digit. -/
def DigitValue (c : Char) : Int := (c.toNat : Int) - ('0'.toNat : Int)

/-- `%d` of an `int64_t`. -/
def FormatInt (n : Int) : List Char :=
  if n < 0 then '-' :: Nat.toDigits 10 n.natAbs else Nat.toDigits 10 n.toNat

/-- `%0wd` of a nonnegative number: its digits, padded with zeros on the left to `w`. -/
def ZeroPad (w : Nat) (ds : List Char) : List Char := List.replicate (w - ds.length) '0' ++ ds

/-! ### `FormatMoney` and `ParseMoney` -/

/-- `CENT`. -/
def CENT : CAmount := 1000000

/-- The loop of `FormatMoney` that counts the zeros to trim, from index `i` down: a `'0'` is
trimmed while the character two places before it is a digit. Below index `2` the source would
read before the string; the strings it formats never get there. -/
def TrimLoop (str : List Char) : Nat → Nat → Nat
  | i + 2, nTrim =>
    if str.getD (i + 2) ' ' = '0' && (str.getD i ' ').isDigit then TrimLoop str (i + 1) (nTrim + 1)
    else nTrim
  | _, nTrim => nTrim

/-- `FormatMoney`: whole coins, a point and eight decimals, the trailing zeros of the decimals
trimmed down to two, and a sign for a negative amount. -/
def FormatMoney (n : CAmount) : List Char :=
  let n_abs := if n > 0 then n else -n
  let quotient := n_abs / COIN
  let remainder := n_abs % COIN
  let str := FormatInt quotient ++ '.' :: ZeroPad 8 (FormatInt remainder)
  -- right-trim excess zeros before the decimal point
  let nTrim := TrimLoop str (str.length - 1) 0
  let str := str.take (str.length - nTrim)
  if n < 0 then '-' :: str else str

/-- `atoi64`, that is `strtoll` in base ten: spaces, a sign and the leading digits, saturated to
the `int64_t` range. -/
def atoi64 (str : List Char) : Int :=
  let s := str.dropWhile IsSpace
  let (neg, s) : Bool × List Char :=
    match s with
    | '-' :: s => (true, s)
    | '+' :: s => (false, s)
    | s => (false, s)
  let v : Int := Nat.ofDigitChars 10 (s.takeWhile Char.isDigit) 0
  let v := if neg then -v else v
  max (-2 ^ 63) (min v (2 ^ 63 - 1))

/-- The loop of `ParseMoney` over the decimals: a digit is read while `nMult`, from `CENT * 10`
down by tenths, is positive. It returns `nUnits` and the rest of the string. -/
def UnitsLoop : List Char → CAmount → CAmount → CAmount × List Char
  | c :: cs, nMult, nUnits =>
    if c.isDigit && nMult > 0 then UnitsLoop cs (nMult / 10) (nUnits + nMult * DigitValue c)
    else (nUnits, c :: cs)
  | [], _, nUnits => (nUnits, [])

/-- The main loop of `ParseMoney`: digits go to `strWhole` up to a point, a space or the end; a
point hands over to `UnitsLoop`. It returns `strWhole`, `nUnits` and the rest of the string, or
`none` for a character that is none of these. -/
def WholeLoop : List Char → List Char → Option (List Char × CAmount × List Char)
  | c :: cs, strWhole =>
    if c = '.' then
      let r := UnitsLoop cs (CENT * 10) 0
      some (strWhole, r.1, r.2)
    else if IsSpace c then some (strWhole, 0, c :: cs)
    else if !c.isDigit then none
    else WholeLoop cs (strWhole ++ [c])
  | [], strWhole => some (strWhole, 0, [])

/-- `ParseMoney`, on the string up to its first NUL. -/
def ParseMoney (str : List Char) : Option CAmount := do
  let p := (str.takeWhile (· ≠ Char.ofNat 0)).dropWhile IsSpace
  let (strWhole, nUnits, p) ← WholeLoop p []
  -- only spaces may follow
  if !p.all IsSpace then none
  -- guard against 63 bit overflow
  if strWhole.length > 10 then none
  if nUnits < 0 || nUnits > COIN then none
  let nWhole := atoi64 strWhole
  pure (nWhole * COIN + nUnits)

/-! ### `ParseFixedPoint` -/

/-- `UPPER_BOUND`: `10^18 - 1`, the largest number of eighteen arbitrary digits. -/
def UPPER_BOUND : Int := 1000000000000000000 - 1

/-- The loop of `ProcessMantissaDigit` that multiplies the mantissa by ten `n` times, each time
only from at most `UPPER_BOUND / 10`. -/
def ShiftMantissa : Nat → Int → Option Int
  | 0, mantissa => some mantissa
  | n + 1, mantissa =>
    if mantissa > UPPER_BOUND / 10 then none -- overflow
    else ShiftMantissa n (mantissa * 10)

/-- `ProcessMantissaDigit`: a `'0'` is deferred as a trailing zero; any other digit brings the
deferred zeros and its own place into the mantissa, and is added. `none` on overflow. -/
def ProcessMantissaDigit (ch : Char) (mantissa : Int) (mantissa_tzeros : Nat) :
    Option (Int × Nat) :=
  if ch = '0' then some (mantissa, mantissa_tzeros + 1)
  else do
    -- `for (int i=0; i<=mantissa_tzeros; ++i)`
    let mantissa ← ShiftMantissa (mantissa_tzeros + 1) mantissa
    pure (mantissa + DigitValue ch, 0)

/-- A `while` loop of `ParseFixedPoint` over a run of digits, each passed to
`ProcessMantissaDigit`: it returns the rest of the string, the mantissa, the trailing zeros, and
`count` raised by one per digit (the `point_ofs` of the decimals). -/
def MantissaLoop : List Char → Int → Nat → Nat → Option (List Char × Int × Nat × Nat)
  | c :: cs, mantissa, mantissa_tzeros, count =>
    if c.isDigit then
      match ProcessMantissaDigit c mantissa mantissa_tzeros with
      | none => none -- overflow
      | some (mantissa, mantissa_tzeros) => MantissaLoop cs mantissa mantissa_tzeros (count + 1)
    else some (c :: cs, mantissa, mantissa_tzeros, count)
  | [], mantissa, mantissa_tzeros, count => some ([], mantissa, mantissa_tzeros, count)

/-- The loop of `ParseFixedPoint` over the digits of the exponent. -/
def ExponentLoop : List Char → Int → Option (List Char × Int)
  | c :: cs, exponent =>
    if c.isDigit then
      if exponent > UPPER_BOUND / 10 then none -- overflow
      else ExponentLoop cs (exponent * 10 + DigitValue c)
    else some (c :: cs, exponent)
  | [], exponent => some ([], exponent)

/-- The final loop of `ParseFixedPoint`: `exponent` multiplications by ten, each within the
bounds of the source. -/
def ScaleLoop : Nat → Int → Option Int
  | 0, mantissa => some mantissa
  | n + 1, mantissa =>
    if mantissa > 420000000000000000 || mantissa < -(UPPER_BOUND / 10) then none -- overflow
    else ScaleLoop n (mantissa * 10)

/-- `ParseFixedPoint`: the amount in units of `10 ^ -decimals`, or `none`. -/
def ParseFixedPoint (val : List Char) (decimals : Int) : Option Int := do
  let (mantissa_sign, s) : Bool × List Char :=
    match val with
    | '-' :: s => (true, s)
    | s => (false, s)
  -- the integer part: a single `0`, or digits from a nonzero one on
  let (s, mantissa, mantissa_tzeros) ← (match s with
    | '0' :: s => some (s, 0, 0) -- pass single 0
    | c :: cs =>
      if '1' ≤ c && c ≤ '9' then
        (MantissaLoop (c :: cs) 0 0 0).map fun r => (r.1, r.2.1, r.2.2.1)
      else none -- missing expected digit
    | [] => none : Option (List Char × Int × Nat)) -- empty string or loose '-'
  -- the decimals, each counted in `point_ofs`
  let (s, mantissa, mantissa_tzeros, point_ofs) ← (match s with
    | '.' :: s =>
      match s with
      | c :: _ => if c.isDigit then MantissaLoop s mantissa mantissa_tzeros 0 else none
      | [] => none -- missing expected digit
    | s => some (s, mantissa, mantissa_tzeros, 0) : Option (List Char × Int × Nat × Nat))
  -- the exponent
  let (s, exponent_sign, exponent) ← (match s with
    | c :: s =>
      if c = 'e' || c = 'E' then
        let (exponent_sign, s) : Bool × List Char :=
          match s with
          | '+' :: s => (false, s)
          | '-' :: s => (true, s)
          | s => (false, s)
        match s with
        | d :: _ =>
          if d.isDigit then (ExponentLoop s 0).map fun r => (r.1, exponent_sign, r.2)
          else none -- missing expected digit
        | [] => none
      else some (c :: s, false, 0)
    | [] => some ([], false, 0) : Option (List Char × Bool × Int))
  if s ≠ [] then none -- trailing garbage
  let exponent := (if exponent_sign then -exponent else exponent) - point_ofs + mantissa_tzeros
  let mantissa := if mantissa_sign then -mantissa else mantissa
  let exponent := exponent + decimals
  -- cannot represent values smaller than `10^-decimals`
  if exponent < 0 then none
  -- cannot represent values larger than or equal to `10^(18-decimals)`
  if exponent ≥ 18 then none
  let mantissa ← ScaleLoop exponent.toNat mantissa
  if mantissa > 4200000000000000000 || mantissa < -UPPER_BOUND then none -- overflow
  pure mantissa

/-! ### The RPC amounts -/

/-- `ValueFromAmountString`: the whole coins and, unless there are no units and nothing to
show, a point and `units` decimals. -/
def ValueFromAmountString (amount : CAmount) (units : Fin 9) : List Char :=
  let sign := decide (amount < 0)
  let n_abs := if sign then -amount else amount
  let quotient := n_abs / COIN
  let remainder := n_abs % COIN
  let remainder := remainder / 10 ^ (8 - units.val)
  let signStr := if sign then ['-'] else []
  if units.val = 0 && remainder = 0 then signStr ++ FormatInt quotient
  else signStr ++ FormatInt quotient ++ '.' :: ZeroPad units.val (FormatInt remainder)

/-- The types of a `UniValue`. -/
inductive UniValueType
  | VNULL | VOBJ | VARR | VSTR | VNUM | VBOOL
deriving DecidableEq, Repr

/-- A scalar `UniValue`: its type and the string it keeps. -/
structure UniValue where
  typ : UniValueType
  val : List Char
deriving DecidableEq, Repr

def UniValue.isNum (v : UniValue) : Bool := v.typ = .VNUM
def UniValue.isStr (v : UniValue) : Bool := v.typ = .VSTR
def UniValue.getValStr (v : UniValue) : List Char := v.val

/-- `ValueFromAmount`: the string as a JSON number. -/
def ValueFromAmount (amount : CAmount) (units : Fin 9 := 8) : UniValue :=
  ⟨.VNUM, ValueFromAmountString amount units⟩

/-- `JSONRPCError`: a code and a message. -/
structure JSONRPCError where
  code : Int
  message : List Char
deriving DecidableEq, Repr

/-- `RPC_TYPE_ERROR`. -/
def RPC_TYPE_ERROR : Int := -3

/-- `AmountFromValue`: a number or a string that `ParseFixedPoint` reads with eight decimals,
within the money range. -/
def AmountFromValue (value : UniValue) : Except JSONRPCError CAmount := do
  if !value.isNum && !value.isStr then
    throw ⟨RPC_TYPE_ERROR, "Amount is not a number or string".toList⟩
  match ParseFixedPoint value.getValStr 8 with
  | none => throw ⟨RPC_TYPE_ERROR, "Invalid amount (3): ".toList ++ value.getValStr⟩
  | some amount =>
    if !MoneyRange amount then throw ⟨RPC_TYPE_ERROR, "Amount out of range: ".toList ++ FormatInt amount⟩
    pure amount

/-! ### Amounts the readers reject -/

/-- `20999999999.99999999` coins, within the money range: `ParseFixedPoint` rejects its
nineteen significant digits, both as `FormatMoney` and as the RPC prints it, so `AmountFromValue`
rejects the node's own reply, and `ParseMoney` rejects its eleven digits of whole coins. -/
theorem money_strings_not_round_tripped :
    MoneyRange 2099999999999999999 = true ∧
      ParseFixedPoint (FormatMoney 2099999999999999999) 8 = none ∧
      ParseMoney (FormatMoney 2099999999999999999) = none ∧
      ParseFixedPoint (ValueFromAmountString 2099999999999999999 8) 8 = none ∧
      AmountFromValue (ValueFromAmount 2099999999999999999) =
        .error ⟨RPC_TYPE_ERROR, "Invalid amount (3): ".toList ++
          ValueFromAmountString 2099999999999999999 8⟩ := by
  have hparse : ParseFixedPoint (ValueFromAmountString 2099999999999999999 8) 8 = none := by
    decide
  refine ⟨by decide, by decide, by decide, hparse, ?_⟩
  simp only [AmountFromValue, ValueFromAmount, UniValue.getValStr, UniValue.isNum, hparse]
  rfl

end Ravencoin
