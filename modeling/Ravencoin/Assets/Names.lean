import Mathlib.Data.List.Basic
import Ravencoin.Assets.Types

/-!
# Asset names (`assets/assets.cpp`, name validation)

An asset name is a root segment, optionally followed by `/`-separated sub segments, and then
optionally by one tag: `#` for a unique asset, `~` for a message channel, `^` for a vote, or a
final `!` for the owner token. The C++ recognises each shape with `std::regex_match` against
ECMAScript patterns; the model states each pattern as a Boolean function on the bytes of the
name, with the pattern quoted in its docstring.

## Main definitions

* `Ravencoin.IsRootNameValid`, `Ravencoin.IsSubNameValid`, `Ravencoin.IsNameValidBeforeTag`.
* `Ravencoin.IsTypeCheckNameValid` — the length and character checks of each asset type,
  with the C++ error texts.
* `Ravencoin.IsAssetNameValid` — the type of a name, or the reason it is invalid.
* `Ravencoin.GetParentName`, `Ravencoin.IsAssetNameAnOwner`.

## Main results

* `Ravencoin.vote_name_with_inner_caret` — a vote name with a further `^` inside its tag is
  accepted, although its tag is not a vote tag.

## Implementation notes

In ECMAScript, `.` matches every character except the line terminators `\n` and `\r`, while
a negated class such as `[^^~#!]` matches every character outside the class. The patterns
anchored by `^...$` must match the whole name. `boost::split` keeps empty parts, like
`List.splitOn`.
-/

set_option autoImplicit false

namespace Ravencoin

/-- A character as the byte `std::string` stores. -/
def ch (c : Char) : UInt8 := c.toNat.toUInt8

/-- `MAX_NAME_LENGTH`, excluding the owner tag, and `MAX_CHANNEL_NAME_LENGTH`. -/
def MAX_NAME_LENGTH : Nat := 31
def MAX_CHANNEL_NAME_LENGTH : Nat := 12

/-! ### Character classes -/

/-- `[A-Z0-9]`. -/
def IsUpperOrDigit (c : UInt8) : Bool :=
  (ch 'A' ≤ c && c ≤ ch 'Z') || (ch '0' ≤ c && c ≤ ch '9')

/-- `[._]`. -/
def IsPunctuation (c : UInt8) : Bool := c == ch '.' || c == ch '_'

/-- `[A-Z0-9._]`. -/
def IsNameCharacter (c : UInt8) : Bool := IsUpperOrDigit c || IsPunctuation c

/-- `[-A-Za-z0-9@$%&*()[\]{}_.?:]`. -/
def IsUniqueTagCharacter (c : UInt8) : Bool :=
  IsUpperOrDigit c || (ch 'a' ≤ c && c ≤ ch 'z') ||
    (str "-@$%&*()[]_.?:").contains c || c == 123 || c == 125

/-- `.` in ECMAScript: any character but a line terminator. -/
def IsAnyCharacter (c : UInt8) : Bool := c != ch '\n' && c != ch '\r'

/-- `[^^~#!]`. -/
def IsNotTagDelimiter (c : UInt8) : Bool := !(str "^~#!").contains c

/-- `[^~#!\/]`. -/
def IsNotTagDelimiterOrSlash (c : UInt8) : Bool := !(str "~#!/").contains c

/-! ### Patterns -/

/-- `ROOT_NAME_CHARACTERS`: `^[A-Z0-9._]{3,}$`. -/
def ROOT_NAME_CHARACTERS (s : List UInt8) : Bool := 3 ≤ s.length && s.all IsNameCharacter

/-- `SUB_NAME_CHARACTERS`, `CHANNEL_TAG_CHARACTERS` and `VOTE_TAG_CHARACTERS`:
`^[A-Z0-9._]+$`. -/
def SUB_NAME_CHARACTERS (s : List UInt8) : Bool := !s.isEmpty && s.all IsNameCharacter

/-- `UNIQUE_TAG_CHARACTERS`: `^[-A-Za-z0-9@$%&*()[\]{}_.?:]+$`. -/
def UNIQUE_TAG_CHARACTERS (s : List UInt8) : Bool := !s.isEmpty && s.all IsUniqueTagCharacter

/-- Two punctuation characters side by side. -/
def HasDoublePunctuation : List UInt8 → Bool
  | a :: b :: t => (IsPunctuation a && IsPunctuation b) || HasDoublePunctuation (b :: t)
  | _ => false

/-- `DOUBLE_PUNCTUATION`: `^.*[._]{2,}.*$`. -/
def DOUBLE_PUNCTUATION (s : List UInt8) : Bool := s.all IsAnyCharacter && HasDoublePunctuation s

/-- `LEADING_PUNCTUATION`: `^[._].*$`. -/
def LEADING_PUNCTUATION : List UInt8 → Bool
  | c :: t => IsPunctuation c && t.all IsAnyCharacter
  | [] => false

/-- `TRAILING_PUNCTUATION`: `^.*[._]$`. -/
def TRAILING_PUNCTUATION (s : List UInt8) : Bool :=
  match s.getLast? with
  | some c => IsPunctuation c && s.dropLast.all IsAnyCharacter
  | none => false

/-- `RAVEN_NAMES`: `^RVN$|^RAVEN$|^RAVENCOIN$`. -/
def RAVEN_NAMES (s : List UInt8) : Bool :=
  s == str "RVN" || s == str "RAVEN" || s == str "RAVENCOIN"

/-- `^[^^~#!]+<sep>[^~#!\/]+$` for a delimiter `sep` among `#`, `~`, `^`: since the head
excludes `sep`, the delimiter matched is the first one. -/
def TagIndicator (sep : UInt8) (s : List UInt8) : Bool :=
  let head := s.takeWhile (· != sep)
  match s.drop head.length with
  | _ :: tag =>
    !head.isEmpty && head.all IsNotTagDelimiter && !tag.isEmpty && tag.all IsNotTagDelimiterOrSlash
  | [] => false

/-- `UNIQUE_INDICATOR`: `^[^^~#!]+#[^~#!\/]+$`. -/
def UNIQUE_INDICATOR (s : List UInt8) : Bool := TagIndicator (ch '#') s

/-- `CHANNEL_INDICATOR`: `^[^^~#!]+~[^~#!\/]+$`. -/
def CHANNEL_INDICATOR (s : List UInt8) : Bool := TagIndicator (ch '~') s

/-- `VOTE_INDICATOR`: `^[^^~#!]+\^[^~#!\/]+$`. -/
def VOTE_INDICATOR (s : List UInt8) : Bool := TagIndicator (ch '^') s

/-- `OWNER_INDICATOR`: `^[^^~#!]+!$`. -/
def OWNER_INDICATOR (s : List UInt8) : Bool :=
  match s.getLast? with
  | some c => c == ch '!' && !s.dropLast.isEmpty && s.dropLast.all IsNotTagDelimiter
  | none => false

/-! ### Names -/

/-- The checks shared by sub names and channel tags: the characters, and no leading,
trailing or double punctuation. -/
def IsPunctuatedNameValid (name : List UInt8) : Bool :=
  !DOUBLE_PUNCTUATION name && !LEADING_PUNCTUATION name && !TRAILING_PUNCTUATION name

/-- `IsRootNameValid`. -/
def IsRootNameValid (name : List UInt8) : Bool :=
  ROOT_NAME_CHARACTERS name && IsPunctuatedNameValid name && !RAVEN_NAMES name

/-- `IsSubNameValid`. -/
def IsSubNameValid (name : List UInt8) : Bool :=
  SUB_NAME_CHARACTERS name && IsPunctuatedNameValid name

/-- `IsUniqueTagValid`. -/
def IsUniqueTagValid (tag : List UInt8) : Bool := UNIQUE_TAG_CHARACTERS tag

/-- `IsVoteTagValid`. -/
def IsVoteTagValid (tag : List UInt8) : Bool := SUB_NAME_CHARACTERS tag

/-- `IsChannelTagValid`. -/
def IsChannelTagValid (tag : List UInt8) : Bool :=
  SUB_NAME_CHARACTERS tag && IsPunctuatedNameValid tag

/-- `boost::split(parts, name, boost::is_any_of(delimiter))`. -/
def SplitOn (delimiter : UInt8) (name : List UInt8) : List (List UInt8) := name.splitOn delimiter

/-- `IsNameValidBeforeTag`: a valid root segment, then valid sub segments. -/
def IsNameValidBeforeTag (name : List UInt8) : Bool :=
  let parts := SplitOn (ch '/') name
  IsRootNameValid (parts.headD []) && (parts.drop 1).all IsSubNameValid

/-- `IsAssetNameASubasset`. -/
def IsAssetNameASubasset (name : List UInt8) : Bool :=
  let parts := SplitOn (ch '/') name
  IsRootNameValid (parts.headD []) && decide (parts.length > 1)

/-- The error text naming a length limit. -/
def MaxLengthError (n : Nat) : List UInt8 :=
  str "Name is greater than max length of " ++ str (toString n)

/-- The tag checks of `IsTypeCheckNameValid` for `UNIQUE`, `MSGCHANNEL` and `VOTE`: split at
the delimiter, the part before must be a valid name and the last part a valid tag. -/
def IsTaggedNameValid (delimiter : UInt8) (tagValid : List UInt8 → Bool) (name : List UInt8) :
    Bool :=
  let parts := SplitOn delimiter name
  IsNameValidBeforeTag (parts.headD []) && tagValid (parts.getLastD [])

/-- `IsTypeCheckNameValid`: `none` when the name is valid for the type, else the error. -/
def IsTypeCheckNameValid : AssetType → List UInt8 → Option (List UInt8)
  | .UNIQUE, name =>
    if name.length > MAX_NAME_LENGTH then some (MaxLengthError MAX_NAME_LENGTH)
    else if !IsTaggedNameValid (ch '#') IsUniqueTagValid name then
      some (str "Unique name contains invalid characters (Valid characters are: A-Z a-z 0-9 @ $ % & * ( ) [ ] " ++
        [123, 32, 125] ++ str " _ . ? : -)")
    else none
  | .MSGCHANNEL, name =>
    if name.length > MAX_NAME_LENGTH then some (MaxLengthError MAX_NAME_LENGTH)
    else if ((SplitOn (ch '~') name).getLastD []).length > MAX_CHANNEL_NAME_LENGTH then
      some (str "Channel name is greater than max length of " ++ str (toString MAX_CHANNEL_NAME_LENGTH))
    else if !IsTaggedNameValid (ch '~') IsChannelTagValid name then
      some (str "Message Channel name contains invalid characters (Valid characters are: A-Z 0-9 _ .) (special characters can\x27t be the first or last characters)")
    else none
  | .OWNER, name =>
    if name.length > MAX_NAME_LENGTH then some (MaxLengthError MAX_NAME_LENGTH)
    else if !IsNameValidBeforeTag (name.take (name.length - 1)) then
      some (str "Owner name contains invalid characters (Valid characters are: A-Z 0-9 _ .) (special characters can\x27t be the first or last characters)")
    else none
  | .VOTE, name =>
    if name.length > MAX_NAME_LENGTH then some (MaxLengthError MAX_NAME_LENGTH)
    else if !IsTaggedNameValid (ch '^') IsVoteTagValid name then
      some (str "Vote name contains invalid characters (Valid characters are: A-Z 0-9 _ .) (special characters can\x27t be the first or last characters)")
    else none
  | _, name =>
    -- Roots and sub assets leave one character for the owner tag.
    if name.length > MAX_NAME_LENGTH - 1 then some (MaxLengthError (MAX_NAME_LENGTH - 1))
    else if !IsAssetNameASubasset name && name.length < MIN_ASSET_LENGTH then
      some (str "Name must be contain " ++ str (toString MIN_ASSET_LENGTH) ++ str " characters")
    else if !IsNameValidBeforeTag name && IsAssetNameASubasset name && name.length < 3 then
      some (str "Name must have at least 3 characters (Valid characters are: A-Z 0-9 _ .)")
    else if !IsNameValidBeforeTag name then
      some (str "Name contains invalid characters (Valid characters are: A-Z 0-9 _ .) (special characters can\x27t be the first or last characters)")
    else none

/-- The type whose check `IsAssetNameValid` runs: the first indicator pattern the name
matches, else `SUB` or `ROOT`. -/
def IndicatedType (name : List UInt8) : AssetType :=
  if UNIQUE_INDICATOR name then .UNIQUE
  else if CHANNEL_INDICATOR name then .MSGCHANNEL
  else if OWNER_INDICATOR name then .OWNER
  else if VOTE_INDICATOR name then .VOTE
  else if IsAssetNameASubasset name then .SUB
  else .ROOT

/-- `IsAssetNameValid(name, assetType, error)`: the indicated type when it passes
`IsTypeCheckNameValid`, else the error. -/
def IsAssetNameValid (name : List UInt8) : Except (List UInt8) AssetType :=
  match IsTypeCheckNameValid (IndicatedType name) name with
  | none => .ok (IndicatedType name)
  | some error => .error error

/-- `IsAssetNameValid(name)`. -/
def IsAssetNameValidB (name : List UInt8) : Bool := (IsAssetNameValid name).toBool

/-- The `assetType` that `IsAssetNameValid(name, assetType)` leaves: `INVALID` on failure. -/
def AssetTypeOf (name : List UInt8) : AssetType :=
  match IsAssetNameValid name with
  | .ok t => t
  | .error _ => .INVALID

/-- `IsAssetNameAnOwner`. -/
def IsAssetNameAnOwner (name : List UInt8) : Bool := IsAssetNameValidB name && OWNER_INDICATOR name

/-- `name.substr(0, name.find_last_of(delimiter))`, or the whole name when the delimiter does
not occur. -/
def BeforeLast (delimiter : UInt8) (name : List UInt8) : List UInt8 :=
  if delimiter ∈ name then ((name.reverse.dropWhile (· != delimiter)).drop 1).reverse else name

/-- `GetParentName`: the name before its last delimiter; `""` for an invalid name. -/
def GetParentName (name : List UInt8) : List UInt8 :=
  match IsAssetNameValid name with
  | .error _ => []
  | .ok .SUB => BeforeLast (ch '/') name
  | .ok .UNIQUE => BeforeLast (ch '#') name
  | .ok .MSGCHANNEL => BeforeLast (ch '~') name
  | .ok .VOTE => BeforeLast (ch '^') name
  | .ok _ => name

/-! ### Facts about names -/

/-- `IsTypeCheckNameValid` checks only the last `^`-part of a vote name as the tag, and the
vote indicator allows further `^` after the first. So `ABC^%^A` is a valid vote name although
its tag `%^A` is not a vote tag, and its parent name `ABC^%` is not a valid name. -/
theorem vote_name_with_inner_caret :
    IsAssetNameValid (str "ABC^%^A") = .ok .VOTE ∧ IsVoteTagValid (str "%^A") = false ∧
      GetParentName (str "ABC^%^A") = str "ABC^%" ∧ IsAssetNameValidB (str "ABC^%") = false := by
  decide +kernel

end Ravencoin
