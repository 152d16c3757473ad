import CatalystAsm.Bytes

/-!
# Numbers and dates in TOML

The texts of integers, floats and dates, and which of them are well formed. Underscores stand
between digits, a decimal number has no leading zero, an integer fits 64 bits with sign, and a float
does not overflow.
-/

namespace CatalystAsm.Toml

/-- Whether a byte is a decimal digit. -/
def isDigit (b : UInt8) : Bool := 0x30 ≤ b && b ≤ 0x39

/-- The value of a hexadecimal digit. -/
def hexValue? (b : UInt8) : Option Nat :=
  if isDigit b then some (b.toNat - 0x30)
  else if 0x61 ≤ b && b ≤ 0x66 then some (b.toNat - 0x61 + 10)
  else if 0x41 ≤ b && b ≤ 0x46 then some (b.toNat - 0x41 + 10)
  else none

/-- Whether a byte is a hexadecimal digit. -/
def isHexDigit (b : UInt8) : Bool := (hexValue? b).isSome

/-- The number that digits spell in a base; other bytes are skipped. -/
def numberOf (base : Nat) (digits : Bytes) : Nat :=
  digits.foldl (fun n d => match hexValue? d with
    | some v => n * base + v
    | none => n) 0

namespace Number

/-- The underscore between digits. -/
def underscore : UInt8 := 0x5f

/-- Whether every underscore follows a digit and the text ends with a digit. `ready` tells whether
the byte before was a digit. -/
def underscoresFit (ready : Bool) : Bytes → Bool
  | [] => ready
  | b :: rest => (b != underscore || ready) && underscoresFit (isHexDigit b) rest

/-- Whether the byte is a plus or a minus. -/
def isSign (b : UInt8) : Bool := b == 0x2b || b == 0x2d

/-- Whether a decimal text has a zero in front of further digits. -/
def hasLeadingZero : Bytes → Bool
  | a :: b :: rest =>
    (a == 0x30 && !(b == 0x62 || b == 0x6f || b == 0x78)) ||
      (isSign a && b == 0x30 && !rest.isEmpty)
  | _ => false

/-- The base that a text is written in, and its digits. -/
def digitsOf : Bytes → Nat × Bytes
  | 0x30 :: 0x78 :: rest => (16, rest)
  | 0x30 :: 0x6f :: rest => (8, rest)
  | 0x30 :: 0x62 :: rest => (2, rest)
  | text => (10, text)

/-- The value of an integer text. -/
def integer? (text : Bytes) : Option Int :=
  if !underscoresFit false text || hasLeadingZero text then none
  else
    let (base, digits) := digitsOf text
    let size : Int := numberOf base digits
    let value := if text.head? == some 0x2d then -size else size
    if -0x8000000000000000 ≤ value && value < 0x8000000000000000 then some value else none

/-- Whether every period has a digit after it. -/
def periodsFit : Bytes → Bool
  | [] => true
  | 0x2e :: rest => rest.head?.any isDigit && periodsFit rest
  | _ :: rest => periodsFit rest

/-- Whether a byte begins the exponent of a float. -/
def isExponentMark (b : UInt8) : Bool := b == 0x65 || b == 0x45

/-- The text without a sign in front. -/
def withoutSign : Bytes → Bytes
  | a :: rest => if isSign a then rest else a :: rest
  | [] => []

/-- Whether `mantissa · 10 ^ exponent` is too large for a binary float of 64 bits. -/
def overflows (mantissa : Nat) (exponent : Int) : Bool :=
  if mantissa = 0 then false
  else
    let size := exponent + (Bytes.ofNat mantissa).length
    if size > 310 then true
    else if size < 300 then false
    else
      let limit := (1 <<< 1024) - (1 <<< 970)
      if 0 ≤ exponent then limit ≤ mantissa * Nat.pow 10 exponent.toNat
      else limit * Nat.pow 10 (-exponent).toNat ≤ mantissa

/-- Whether a text without underscores is a float that does not overflow. -/
def isFinite (text : Bytes) : Bool :=
  let body := withoutSign text
  let mantissa := body.takeWhile fun b => !isExponentMark b
  let tail := body.dropWhile fun b => !isExponentMark b
  let whole := mantissa.takeWhile isDigit
  let fraction := mantissa.dropWhile isDigit
  let exponent := tail.drop 1
  let power := numberOf 10 exponent
  (!whole.isEmpty &&
    (fraction.isEmpty || (fraction.head? == some 0x2e && (fraction.drop 1).all isDigit))) &&
    (tail.isEmpty || (!(withoutSign exponent).isEmpty && (withoutSign exponent).all isDigit)) &&
    !overflows (numberOf 10 mantissa)
      ((if exponent.head? == some 0x2d then -(power : Int) else power) - (fraction.drop 1).length)

/-- Whether a text is a float. -/
def isFloat (text : Bytes) : Bool :=
  let divides (b : UInt8) : Bool := isExponentMark b || b == 0x2e
  let parts := (text.splitBy fun a b => !(divides a || divides b)).filter (!·.any divides)
  withoutSign text == .ofString "inf" || withoutSign text == .ofString "nan" ||
    (parts.all (underscoresFit false) && !parts.head?.any hasLeadingZero && periodsFit text &&
      isFinite (text.filter (· != underscore)))

end Number

namespace Date

/-- The number of the first `width` bytes, when all of them are digits, and the rest. -/
def field? (width : Nat) (text : Bytes) : Option (Nat × Bytes) :=
  let digits := text.take width
  if digits.length = width && digits.all isDigit then some (numberOf 10 digits, text.drop width)
  else none

/-- The rest after the byte `mark`. -/
def after? (mark : UInt8) : Bytes → Option Bytes
  | b :: rest => if b == mark then some rest else none
  | [] => none

/-- The number of days of a month. -/
def daysOf (year month : Nat) : Nat :=
  if month = 2 then (if year % 4 = 0 && (year % 100 ≠ 0 || year % 400 = 0) then 29 else 28)
  else if month = 4 || month = 6 || month = 9 || month = 11 then 30
  else 31

/-- The rest after a date. -/
def date? (text : Bytes) : Option Bytes := do
  let (year, text) ← field? 4 text
  let (month, text) ← field? 2 (← after? 0x2d text)
  let (day, text) ← field? 2 (← after? 0x2d text)
  if 1 ≤ month && month ≤ 12 && 1 ≤ day && day ≤ daysOf year month then some text else none

/-- The rest after a time of day with any number of fractional digits. -/
def time? (text : Bytes) : Option Bytes := do
  let (hour, text) ← field? 2 text
  let (minute, text) ← field? 2 (← after? 0x3a text)
  let (second, text) ← field? 2 (← after? 0x3a text)
  if hour < 24 && minute < 60 && second < 60 then
    match text with
    | 0x2e :: d :: rest => if isDigit d then some (rest.dropWhile isDigit) else some text
    | _ => some text
  else none

/-- Whether a text is a time zone: the letter Z or hours and minutes with a sign. -/
def isZone : Bytes → Bool
  | [0x5a] => true
  | sign :: text => Number.isSign sign && (do
      let (hours, text) ← field? 2 text
      let (minutes, text) ← field? 2 (← after? 0x3a text)
      pure (hours ≤ 24 && minutes ≤ 60 && text.isEmpty)).getD false
  | [] => false

/-- A date text with the letters in upper case and T between date and time. -/
def spelled (text : Bytes) : Bytes :=
  text.map fun b => if b == 0x7a then 0x5a else if b == 0x74 || b == 0x20 then 0x54 else b

/-- Whether a text is a date, a time, or both with or without a zone. -/
def isDate (text : Bytes) : Bool :=
  let text := spelled text
  time? text == some [] || match date? text with
    | some [] => true
    | some (0x54 :: rest) => match time? rest with
      | some zone => zone.isEmpty || isZone zone
      | none => false
    | _ => false

end Date

end CatalystAsm.Toml
