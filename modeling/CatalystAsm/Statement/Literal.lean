import CatalystAsm.Statement.Number
import CatalystAsm.Text.Composition

/-!
# Character and string literals

Both kinds of literal share the escape sequences `\a \b \t \n \v \f \r \\ \" \'`, `\x` with one or
two hexadecimal digits, and `\` with one to three octal digits. In a string, text between escapes
that is valid UTF-8 and not plain ASCII is brought into composed normal form.
-/

namespace CatalystAsm.Statement

/-- The byte that starts an escape sequence. -/
def backslash : UInt8 := 0x5c

/-- The quote around strings. -/
def doubleQuote : UInt8 := 0x22

/-- The quote around characters. -/
def singleQuote : UInt8 := 0x27

/-- Whether a byte is an octal digit. -/
def isOctalDigit (b : UInt8) : Bool := 0x30 ≤ b && b ≤ 0x37

/-- The byte that a one-letter escape stands for. -/
def namedEscape? (b : UInt8) : Option UInt8 :=
  if b == 0x61 then some 0x07
  else if b == 0x62 then some 0x08
  else if b == 0x74 then some 0x09
  else if b == 0x6e then some 0x0a
  else if b == 0x76 then some 0x0b
  else if b == 0x66 then some 0x0c
  else if b == 0x72 then some 0x0d
  else if b == backslash || b == doubleQuote || b == singleQuote then some b
  else none

/-- The escape sequence at the cursor, which stands at a backslash. -/
def escape (c : Cursor) : Scanned UInt8 :=
  match c.rest with
  | _ :: b :: rest =>
    match namedEscape? b with
    | some v => .ok (v, c.advance 2)
    | none =>
      if b == 0x78 then
        let digits := (rest.take 2).takeWhile isHexDigit
        let e := c.advance (2 + digits.length)
        if digits.isEmpty then .error (.about [.missingHexDigit] (c.spanTo e) e)
        else .ok (UInt8.ofNat (digitsValue 16 digits), e)
      else if isOctalDigit b then
        let digits := b :: (rest.take 2).takeWhile isOctalDigit
        let e := c.advance (1 + digits.length)
        if 0xff < digitsValue 8 digits then .error (.about [.octalOutOfRange] (c.spanTo e) e)
        else .ok (UInt8.ofNat (digitsValue 8 digits), e)
      else .error (.about [.unknownEscape b] (c.spanTo (c.advance 2)) (c.advance 2))
  | _ => .error (.about [.unterminatedEscape] (c.spanTo c.toLimit) c.toLimit)

/-- The character literal at the cursor, which stands at the opening quote. -/
def character (c : Cursor) : Scanned UInt64 :=
  let d := c.advance 1
  let close (v : UInt8) (e : Cursor) : Scanned UInt64 :=
    match e.eat? singleQuote with
    | some f => .ok (v.toUInt64, f)
    | none => .error (.about [.unterminatedCharacter] (c.spanTo e) e)
  match d.rest with
  | [] => .error (.about [.emptyCharacter] (c.spanTo d) d)
  | b :: _ =>
    if b == singleQuote then .error (.about [.emptyCharacter] (c.spanTo d) d)
    else if b == backslash then
      match escape d with
      | .error s => .error s
      | .ok (v, e) => close v e
    else close b (d.advance 1)

/-- The text of a string between two escapes, as it is stored. -/
def storedText (raw : Bytes) : Bytes :=
  if Bytes.isAscii raw || !Utf8.isValid raw then raw else Text.compose raw

/-- An escape takes bytes. -/
theorem length_rest_escape {c d : Cursor} {v : UInt8} (h : escape c = .ok (v, d)) :
    d.rest.length < c.rest.length := by
  unfold escape at h
  split at h
  next b rest hr =>
    split at h
    next => cases h; simp only [Cursor.advance, hr, List.length_drop, List.length_cons]; omega
    next =>
      split at h
      next =>
        dsimp only at h
        split at h
        · cases h
        · cases h; simp only [Cursor.advance, hr, List.length_drop, List.length_cons]; omega
      next =>
        split at h
        next =>
          dsimp only at h
          split at h
          · cases h
          · cases h; simp only [Cursor.advance, hr, List.length_drop, List.length_cons]; omega
        next => cases h
  next => cases h

/-- The rest of the string that was opened at `start`. The text since `chunk` is not stored yet;
`out` holds what is. -/
def stringBody (start : Cursor) (out : Bytes) (chunk c : Cursor) : Scanned Bytes :=
  match _ : c.rest with
  | [] => .error (.about [.unterminatedString] (start.spanTo c) c)
  | b :: _ =>
    if b == doubleQuote then .ok (out ++ storedText (chunk.sliceTo c), c.advance 1)
    else if b == backslash then
      match _ : escape c with
      | .error s => .error s
      | .ok (v, d) => stringBody start (out ++ storedText (chunk.sliceTo c) ++ [v]) d d
    else stringBody start out chunk (c.advance 1)
termination_by c.rest.length
decreasing_by
  · exact length_rest_escape ‹escape c = .ok (v, d)›
  · simp only [Cursor.advance, ‹c.rest = b :: _›, List.length_drop, List.length_cons]; omega

/-- The string literal after blanks. -/
def quotedString (c : Cursor) : Scanned Bytes :=
  let start := c.skipBlanks
  match start.eat? doubleQuote with
  | none => .error (.about [.expectedString] start.here start)
  | some d => stringBody start [] d d

/-- The literal at the cursor that stands for a number: a character or an integer. -/
def numeric (c : Cursor) : Scanned UInt64 :=
  if c.peek? = some singleQuote then character c else integer c

/-- A number that begins with a digit takes bytes. -/
theorem length_rest_integer {c d : Cursor} {v : UInt64} {b : UInt8}
    (hb : c.peek? = some b) (hd : isDigit b = true) (h : integer c = .ok (v, d)) :
    d.rest.length < c.rest.length := by
  have hmove : ((literalBase c).2.advance
      ((literalBase c).2.rest.takeWhile (isLiteralDigit (literalBase c).1)).length).rest.length <
      c.rest.length := by
    unfold literalBase
    split
    next x y hr =>
      simp only [hr]
      split
      · simp only [Cursor.advance, hr, List.length_drop, List.length_cons]; omega
      · split <;> · simp only [Cursor.advance, hr, List.length_drop, List.length_cons]; omega
    next hr => simp only [Cursor.advance, hr, List.length_drop, List.length_cons]; omega
    next =>
      cases hr : c.rest with
      | nil => simp [Cursor.peek?, hr] at hb
      | cons a rest =>
        have hab : a = b := by simpa [Cursor.peek?, hr] using hb
        have ha : isLiteralDigit 10 a = true := by simp [isLiteralDigit, hab, hd]
        simp only [Cursor.advance, hr, List.takeWhile_cons_of_pos ha, List.length_drop,
          List.length_cons]
        omega
  unfold integer at h
  dsimp only at h
  split at h
  next => cases h
  next =>
    split at h
    next => cases h
    next =>
      split at h
      next =>
        split at h
        · cases h
        · split at h
          · cases h
          · cases h; exact hmove
      next =>
        split at h
        · cases h
        · cases h; exact hmove

/-- A character takes bytes. -/
theorem length_rest_character {c d : Cursor} {v : UInt64} (h : character c = .ok (v, d)) :
    d.rest.length < c.rest.length := by
  have hle : (c.advance 1).rest.length ≤ c.rest.length := by simp [Cursor.advance]
  unfold character at h
  dsimp only at h
  split at h
  next => cases h
  next b rest hr =>
    split at h
    next => cases h
    next =>
      split at h
      next =>
        split at h
        next => cases h
        next he =>
          split at h
          next hq =>
            cases h
            have := length_rest_escape he
            have := Cursor.length_rest_eat? hq
            omega
          next => cases h
      next =>
        split at h
        next hq =>
          cases h
          have := Cursor.length_rest_eat? hq
          have := Cursor.length_rest_advance (c.advance 1) 1
          omega
        next => cases h

/-- A name takes bytes. -/
theorem length_rest_name? {c d : Cursor} {n : Bytes} (h : name? c = some (n, d)) :
    d.rest.length < c.rest.length := by
  unfold name? at h
  split at h
  next => cases h
  next b rest hr =>
    split at h
    next hb =>
      cases h
      have hbyte : isNameByte b = true := by simp [isNameByte, hb]
      simp only [Cursor.skipWhile, Cursor.advance, hr, List.takeWhile_cons_of_pos hbyte,
        List.length_drop, List.length_cons]
      omega
    next => cases h

end CatalystAsm.Statement
