import CatalystAsm.Text.Character
import CatalystAsm.Toml.Number

/-!
# Strings in TOML

A string stands in double or single quotes, single or tripled. Between double quotes a backslash
begins an escape; in a tripled one it also joins lines. Up to two quotes may stand before the three
that end a tripled string.
-/

namespace CatalystAsm.Toml

/-- A space or a tab. -/
def isBlank (b : UInt8) : Bool := b == 0x20 || b == 0x09

/-- A byte that ends a line. -/
def isLineEnd (b : UInt8) : Bool := b == 0x0a || b == 0x0d

/-- The double quote. -/
def doubleQuote : UInt8 := 0x22

/-- The single quote. -/
def singleQuote : UInt8 := 0x27

/-- The backslash. -/
def backslash : UInt8 := 0x5c

namespace Quote

/-- What a one-letter escape stands for. -/
def letter? (b : UInt8) : Option UInt8 :=
  if b == 0x62 then some 0x08
  else if b == 0x74 then some 0x09
  else if b == 0x6e then some 0x0a
  else if b == 0x66 then some 0x0c
  else if b == 0x72 then some 0x0d
  else if b == doubleQuote || b == backslash then some b
  else none

/-- How many hexadecimal digits an escape by number has. -/
def digitCount? (b : UInt8) : Option Nat :=
  if b == 0x75 then some 4 else if b == 0x55 then some 8 else none

/-- Whether a number is a code point that text can hold. -/
def isScalar (code : Nat) : Bool := code < 0xd800 || (0xe000 ≤ code && code < 0x110000)

/-- The character that `count` hexadecimal digits at the front name, and the rest. -/
def byNumber? (count : Nat) (text : Bytes) : Option (Bytes × Bytes) :=
  let digits := text.take count
  let code := numberOf 16 digits
  if digits.length = count && digits.all isHexDigit && isScalar code then
    some (Utf8.encode code, text.drop count)
  else none

/-- A character given by its number leaves no more text than there was. -/
theorem length_byNumber? {count : Nat} {text character rest : Bytes}
    (h : byNumber? count text = some (character, rest)) : rest.length ≤ text.length := by
  simp only [byNumber?, Option.ite_none_right_eq_some, Option.some.injEq, Prod.mk.injEq] at h
  rw [← h.2.2, List.length_drop]
  omega

/-- The text that an escaped text stands for. With `joins`, a backslash takes away the blanks and
line ends that follow it, if there is a line end among them. -/
def unescape? (joins : Bool) : Bytes → Option Bytes
  | [] => some []
  | b :: rest =>
    if b != backslash then (unescape? joins rest).map (b :: ·)
    else match rest with
      | [] => none
      | c :: rest =>
        if isBlank c || isLineEnd c then
          let space := (c :: rest).takeWhile fun b => isBlank b || isLineEnd b
          if joins && space.contains 0x0a then
            unescape? joins (rest.dropWhile fun b => isBlank b || isLineEnd b)
          else none
        else match letter? c, digitCount? c with
          | some d, _ => (unescape? joins rest).map (d :: ·)
          | none, some count =>
            match _ : byNumber? count rest with
            | some (character, rest') => (unescape? joins rest').map (character ++ ·)
            | none => none
          | none, none => none
  termination_by text => text.length
  decreasing_by
    · simp
    · simp only [List.length_cons]
      exact Nat.lt_of_le_of_lt (List.dropWhile_sublist _).length_le (by omega)
    · simp only [List.length_cons]; omega
    · have shorter := length_byNumber? ‹byNumber? count rest = some (character, rest')›
      simp only [List.length_cons]
      omega

/-- The text up to the closing quote, as it is written, and the rest after that quote. No line ends
before it. -/
def single? (quote : UInt8) (escapes : Bool) : Bytes → Option (Bytes × Bytes)
  | [] => none
  | b :: rest =>
    if b == quote then some ([], rest)
    else if isLineEnd b then none
    else if escapes && b == backslash then
      match rest with
      | [] => none
      | c :: rest => (single? quote escapes rest).map fun (text, rest) => (b :: c :: text, rest)
    else (single? quote escapes rest).map fun (text, rest) => (b :: text, rest)

/-- Whether the text read so far, last byte first, ends with so many quotes that a sixth may not
follow. A backslash before them takes the first as escaped. -/
def isFull (quote : UInt8) (escapes : Bool) (seen : Bytes) : Bool :=
  seen.take 2 == [quote, quote] && !(escapes && seen[2]? == some backslash)

/-- The text up to the three closing quotes, as it is written, and the rest after them. `seen` is
the text before, last byte first. -/
def tripled? (quote : UInt8) (escapes : Bool) (seen : Bytes) : Bytes → Option (Bytes × Bytes)
  | [] => none
  | b :: rest =>
    if escapes && b == backslash then
      match rest with
      | [] => none
      | c :: rest => tripled? quote escapes (c :: b :: seen) rest
    else if b == quote && rest.take 2 == [quote, quote] then
      if (rest.drop 2).head? == some quote then
        if isFull quote escapes seen then none else tripled? quote escapes (b :: seen) rest
      else some (seen.reverse, rest.drop 2)
    else tripled? quote escapes (b :: seen) rest

/-- The text without a line end at its very start. -/
def withoutFirstLineEnd : Bytes → Bytes
  | 0x0a :: rest => rest
  | 0x0d :: 0x0a :: rest => rest
  | text => text

end Quote

/-- Reads a string in single quote marks after its opening `quote`. -/
def line? (quote : UInt8) (text : Bytes) : Option (Bytes × Bytes) := do
  let escapes := quote == doubleQuote
  let (written, rest) ← Quote.single? quote escapes text
  let value ← if escapes then Quote.unescape? false written else some written
  return (value, rest)

/-- Reads a string after its opening `quote`, which may be tripled. -/
def string? (quote : UInt8) (text : Bytes) : Option (Bytes × Bytes) :=
  match Bytes.dropStart? [quote, quote] text with
  | none => line? quote text
  | some body => do
    let escapes := quote == doubleQuote
    let (written, rest) ← Quote.tripled? quote escapes [] body
    let written := Quote.withoutFirstLineEnd written
    let value ← if escapes then Quote.unescape? true written else some written
    return (value, rest)

/-! ## Characters of a document -/

/-- The document without a mark of its encoding in front. -/
def withoutMark (text : Bytes) : Bytes :=
  match text with
  | 0xff :: 0xfe :: rest => rest
  | 0xfe :: 0xff :: rest => rest
  | 0xef :: 0xbb :: 0xbf :: rest => rest
  | _ => text

/-- Whether a code point is a control character other than a tab and the line ends. -/
def isControl (code : Nat) : Bool :=
  (code < 0x20 && code ≠ 0x09 && code ≠ 0x0a && code ≠ 0x0d) || code = 0x7f

/-- Whether every carriage return stands before a line feed. -/
def returnsFit : Bytes → Bool
  | [] => true
  | b :: rest => (b != 0x0d || rest.head? == some 0x0a) && returnsFit rest

/-- Whether a document holds well-formed characters only, no control and no replacement character
among them. -/
def isReadable (text : Bytes) : Bool :=
  returnsFit text && (Utf8.characters text).all fun c => match c.code with
    | some code => !isControl code && code ≠ 0xfffd
    | none => false

end CatalystAsm.Toml
