import CatalystAsm.Text.Printable

/-!
# Values of flags

How the text after a flag is read as a number, a switch or a duration, and what is said about a text
that cannot be read so. Numbers may have a sign, a base in front and underscores between digits.
-/

namespace CatalystAsm.Command

/-! ## Numbers -/

/-- Why a text is no number. -/
inductive NumberFault where
  | malformed | tooLarge
  deriving DecidableEq, Repr

/-- The wording of a fault. -/
def NumberFault.text : NumberFault → String
  | .malformed => "invalid syntax"
  | .tooLarge => "value out of range"

/-- The lower case of an ASCII letter. -/
def lowerByte (b : UInt8) : UInt8 := if 0x41 ≤ b && b ≤ 0x5a then b + 0x20 else b

/-- The value of a digit or letter. -/
def digit? (b : UInt8) : Option Nat :=
  let c := lowerByte b
  if 0x30 ≤ c && c ≤ 0x39 then some (c.toNat - 0x30)
  else if 0x61 ≤ c && c ≤ 0x7a then some (c.toNat - 0x61 + 10)
  else none

/-- The base that a text without sign is written in, and its digits. -/
def baseOf : Bytes → Nat × Bytes
  | 0x30 :: mark :: d :: rest =>
    if lowerByte mark == 0x62 then (2, d :: rest)
    else if lowerByte mark == 0x6f then (8, d :: rest)
    else if lowerByte mark == 0x78 then (16, d :: rest)
    else (8, mark :: d :: rest)
  | 0x30 :: rest => (8, rest)
  | text => (10, text)

/-- Adds the digits to a number below `limit`. The first fault decides. -/
def addDigits (base limit : Nat) (n : Nat) : Bytes → Except NumberFault Nat
  | [] => .ok n
  | b :: rest =>
    if b == 0x5f then addDigits base limit n rest
    else match digit? b with
      | none => .error .malformed
      | some d =>
        if base ≤ d then .error .malformed
        else if limit ≤ n * base + d then .error .tooLarge
        else addDigits base limit (n * base + d) rest

/-- Whether every underscore stands between digits; `ready` tells whether one may come next, and
`pending` whether the byte before was one. -/
def underscoresFit (hex ready pending : Bool) : Bytes → Bool
  | [] => !pending
  | b :: rest =>
    let c := lowerByte b
    if (0x30 ≤ c && c ≤ 0x39) || (hex && 0x61 ≤ c && c ≤ 0x66) then
      underscoresFit hex true false rest
    else if b == 0x5f then ready && underscoresFit hex false true rest
    else !pending && underscoresFit hex false false rest

/-- Whether the underscores of a text without sign fit; a base counts as a digit. -/
def underscoresOk : Bytes → Bool
  | 0x30 :: mark :: rest =>
    let m := lowerByte mark
    if m == 0x62 || m == 0x6f || m == 0x78 then underscoresFit (m == 0x78) true false rest
    else underscoresFit false true false (mark :: rest)
  | text => underscoresFit false false false text

/-- The number below `limit` of a text without sign. -/
def natural (limit : Nat) (text : Bytes) : Except NumberFault Nat := do
  if text.isEmpty then throw .malformed
  let (base, digits) := baseOf text
  let n ← addDigits base limit 0 digits
  if text.contains 0x5f && !underscoresOk text then throw .malformed
  return n

/-- The least number that is too large for 64 bits with a sign. -/
def signBit : Nat := 0x8000000000000000

/-- The number of 64 bits of a text with or without a sign. -/
def integer (text : Bytes) : Except NumberFault Int := do
  let (negative, size) := match text with
    | 0x2b :: rest => (false, rest)
    | 0x2d :: rest => (true, rest)
    | _ => (false, text)
  let n : Int ← natural UInt64.size size
  if negative then
    if n ≤ signBit then return -n else throw .tooLarge
  else if n < signBit then return n else throw .tooLarge

/-! ## Switches -/

/-- The value of a switch. -/
def switch? (text : Bytes) : Option Bool :=
  let is (names : List String) := names.any fun n => Bytes.ofString n == text
  if is ["1", "t", "T", "TRUE", "true", "True"] then some true
  else if is ["0", "f", "F", "FALSE", "false", "False"] then some false
  else none

/-! ## Durations -/

/-- Why a text is no duration. -/
inductive DurationFault where
  | malformed
  | noUnit
  | unknownUnit (unit : Bytes)
  deriving DecidableEq, Repr

/-- The wording of a fault in a text. -/
def DurationFault.message (text : Bytes) : DurationFault → Bytes
  | .malformed => .ofString "time: invalid duration " ++ Text.quoted text
  | .noUnit => .ofString "time: missing unit in duration " ++ Text.quoted text
  | .unknownUnit unit =>
    .concat [.ofString "time: unknown unit ", Text.quoted unit, .ofString " in duration ",
      Text.quoted text]

/-- The nanoseconds of a unit. -/
def unit? (unit : Bytes) : Option Nat :=
  let units := [("ns", 1), ("us", 1000), ("µs", 1000), ("μs", 1000), ("ms", 1000000),
    ("s", 1000000000), ("m", 60000000000), ("h", 3600000000000)]
  (units.find? fun (name, _) => Bytes.ofString name == unit).map (·.2)

/-- Whether a byte is a decimal digit. -/
def isDecimal (b : UInt8) : Bool := 0x30 ≤ b && b ≤ 0x39

/-- The number of decimal digits. -/
def decimalOf (digits : Bytes) : Nat := digits.foldl (fun n d => n * 10 + (d.toNat - 0x30)) 0

/-- The sum of the parts of a duration, each a number with a unit; at most `fuel` of them. -/
def durationParts : Nat → Nat → Bytes → Except DurationFault Nat
  | _, sum, [] => .ok sum
  | 0, _, _ => .error .malformed
  | fuel + 1, sum, text =>
    let whole := text.takeWhile isDecimal
    let rest := text.dropWhile isDecimal
    let (fraction, rest) := match rest with
      | 0x2e :: after => (after.takeWhile isDecimal, after.dropWhile isDecimal)
      | _ => ([], rest)
    let unit := rest.takeWhile fun b => !(b == 0x2e || isDecimal b)
    let rest := rest.dropWhile fun b => !(b == 0x2e || isDecimal b)
    if whole.isEmpty && fraction.isEmpty then .error .malformed
    else if signBit < decimalOf whole then .error .malformed
    else if unit.isEmpty then .error .noUnit
    else match unit? unit with
      | none => .error (.unknownUnit unit)
      | some size =>
        let total := sum + decimalOf whole * size +
          decimalOf fraction * size / Nat.pow 10 fraction.length
        if signBit < total then .error .malformed else durationParts fuel total rest

/-- The nanoseconds of a duration. -/
def duration (text : Bytes) : Except DurationFault Int := do
  let (negative, size) := match text with
    | 0x2b :: rest => (false, rest)
    | 0x2d :: rest => (true, rest)
    | _ => (false, text)
  if size == [0x30] then return 0
  if size.isEmpty then throw .malformed
  let n : Int ← durationParts (size.length + 1) 0 size
  if negative then return -n else if n < signBit then return n else throw .malformed

end CatalystAsm.Command
