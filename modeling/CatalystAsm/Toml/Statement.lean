import CatalystAsm.Toml.Text

/-!
# Statements of a TOML document

A document is a list of table headers and assignments. This file reads them as they are written;
what they mean together is settled afterwards.
-/

namespace CatalystAsm.Toml

/-- A dotted key: the names from the outermost table to the innermost. -/
abbrev Key := List Bytes

/-- Whether a byte may stand in a name without quotes. -/
def isBare (b : UInt8) : Bool :=
  (0x41 ≤ b && b ≤ 0x5a) || (0x61 ≤ b && b ≤ 0x7a) || isDigit b || b == 0x5f || b == 0x2d

/-- A value as it is written. Floats and dates keep no value, as no field takes one. -/
inductive Written where
  | text (value : Bytes)
  | integer (value : Int)
  | flag (value : Bool)
  | float
  | date
  | array (items : List Written)
  | table (entries : List (Key × Written))
  deriving Repr, Inhabited

/-- A line of a document. -/
inductive Statement where
  | header (key : Key)
  /-- a header in doubled brackets, which adds a table to a list of tables -/
  | item (key : Key)
  | assignment (key : Key) (value : Written)
  deriving Repr, Inhabited

/-- The rest after spaces and tabs. -/
def skipBlanks (text : Bytes) : Bytes := text.dropWhile isBlank

/-- The rest after blanks, line ends and comments. -/
def skipVoid (inComment : Bool) : Bytes → Bytes
  | [] => []
  | b :: rest =>
    if isLineEnd b then skipVoid false rest
    else if inComment || isBlank b then skipVoid inComment rest
    else if b == 0x23 then skipVoid true rest
    else b :: rest

/-- The rest after the byte `mark` at the front. -/
def expect? (mark : UInt8) : Bytes → Option Bytes
  | b :: rest => if b == mark then some rest else none
  | [] => none

/-! ## Keys -/

/-- Reads one name of a key. -/
def name? (text : Bytes) : Option (Bytes × Bytes) :=
  match text with
  | [] => none
  | b :: rest =>
    if b == doubleQuote || b == singleQuote then line? b rest
    else if isBare b then some (text.takeWhile isBare, text.dropWhile isBare)
    else none

/-- Reads names with dots between them, `fuel` at most, and the blanks after them. -/
def keyWithin? : Nat → Bytes → Option (Key × Bytes)
  | 0, _ => none
  | fuel + 1, text => do
    let (name, rest) ← name? (skipBlanks text)
    let rest := skipBlanks rest
    match expect? 0x2e rest with
    | none => return ([name], rest)
    | some rest =>
      let (key, rest) ← keyWithin? fuel rest
      return (name :: key, rest)

/-- Reads a key. -/
def key? (text : Bytes) : Option (Key × Bytes) := keyWithin? (text.length + 1) text

/-! ## Values -/

/-- Whether a byte may stand in a float after its whole part. -/
def isFloatByte (b : UInt8) : Bool :=
  isDigit b || b == 0x5f || b == 0x2e || Number.isSign b || Number.isExponentMark b

/-- Whether a byte may stand in a date. -/
def isDateByte (b : UInt8) : Bool :=
  isDigit b || [0x2d, 0x3a, 0x54, 0x74, 0x20, 0x2e, 0x5a, 0x7a, 0x2b].contains b

/-- Reads a decimal integer or a float whose text begins with `start`. -/
def decimal? (start text : Bytes) : Option (Written × Bytes) :=
  let isRun b := isDigit b || b == Number.underscore
  let whole := start ++ text.takeWhile isRun
  let rest := text.dropWhile isRun
  if rest.head?.any fun b => b == 0x2e || Number.isExponentMark b then
    if Number.isFloat (whole ++ rest.takeWhile isFloatByte) then
      some (.float, rest.dropWhile isFloatByte)
    else none
  else (Number.integer? whole).map fun n => (.integer n, rest)

/-- Reads an integer with a base in front. -/
def based? (mark : UInt8) (isDigit : UInt8 → Bool) (text : Bytes) : Option (Written × Bytes) :=
  if text.head?.any isDigit then
    let isRun b := isDigit b || b == Number.underscore
    (Number.integer? ([0x30, mark] ++ text.takeWhile isRun)).map fun n =>
      (.integer n, text.dropWhile isRun)
  else none

/-- Reads a number or a date, or none at all. -/
def number? (text : Bytes) : Option (Written × Bytes) :=
  match text with
  | [] => none
  | b :: rest =>
    if Number.isSign b then
      if rest.take 3 == Bytes.ofString "inf" || rest.take 3 == Bytes.ofString "nan" then
        some (.float, rest.drop 3)
      else match rest with
        | c :: d :: _ =>
          if c == 0x30 && (d == 0x62 || d == 0x6f || d == 0x78) then none
          else if isDigit c then decimal? [b] rest else none
        | [c] => if isDigit c then decimal? [b] rest else none
        | [] => none
    else match text with
      | 0x30 :: 0x62 :: rest => based? 0x62 (fun d => d == 0x30 || d == 0x31) rest
      | 0x30 :: 0x6f :: rest => based? 0x6f (fun d => 0x30 ≤ d && d ≤ 0x37) rest
      | 0x30 :: 0x78 :: rest => based? 0x78 isHexDigit rest
      | _ =>
        if (text.dropWhile isDigit).head?.any fun c => c == 0x2d || c == 0x3a then
          let run := text.takeWhile isDateByte
          let date := (run.reverse.dropWhile (· == 0x20)).reverse
          if Date.isDate date then some (.date, text.dropWhile isDateByte) else none
        else decimal? [] text

/-- Whether a byte is a letter. -/
def isLetter (b : UInt8) : Bool := (0x41 ≤ b && b ≤ 0x5a) || (0x61 ≤ b && b ≤ 0x7a)

/-- The value of a word. -/
def word? (word : Bytes) : Option Written :=
  if word == .ofString "true" then some (.flag true)
  else if word == .ofString "false" then some (.flag false)
  else if word == .ofString "inf" || word == .ofString "nan" then some .float
  else none

/-- Reads a value that holds no other values. -/
def plain? (text : Bytes) : Option (Written × Bytes) :=
  match text with
  | [] => none
  | b :: rest =>
    if b == doubleQuote || b == singleQuote then
      (string? b rest).map fun (value, rest) => (.text value, rest)
    else if isDigit b || Number.isSign b then number? text
    else (word? (text.takeWhile isLetter)).map fun value => (value, text.dropWhile isLetter)

mutual

/-- Reads a value, after blanks. -/
def valueWithin? : Nat → Bytes → Option (Written × Bytes)
  | 0, _ => none
  | fuel + 1, text =>
    match skipBlanks text with
    | 0x5b :: rest => (itemsWithin? fuel rest).map fun (items, rest) => (.array items, rest)
    | 0x7b :: rest =>
      match expect? 0x7d (skipBlanks rest) with
      | some rest => some (.table [], rest)
      | none => (entriesWithin? fuel rest).map fun (entries, rest) => (.table entries, rest)
    | rest => plain? rest

/-- Reads the items of an array and the bracket that closes it. A comma may stand before it. -/
def itemsWithin? : Nat → Bytes → Option (List Written × Bytes)
  | 0, _ => none
  | fuel + 1, text =>
    let text := skipVoid false text
    match expect? 0x5d text with
    | some rest => some ([], rest)
    | none => do
      let (item, rest) ← valueWithin? fuel text
      let rest := skipVoid false rest
      match expect? 0x2c rest with
      | some rest =>
        let (items, rest) ← itemsWithin? fuel rest
        return (item :: items, rest)
      | none => return ([item], ← expect? 0x5d rest)

/-- Reads the entries of a table within a line and the brace that closes it. -/
def entriesWithin? : Nat → Bytes → Option (List (Key × Written) × Bytes)
  | 0, _ => none
  | fuel + 1, text => do
    let (key, rest) ← key? text
    let (value, rest) ← valueWithin? fuel (← expect? 0x3d rest)
    let rest := skipBlanks rest
    match expect? 0x2c rest with
    | some rest =>
      let (entries, rest) ← entriesWithin? fuel rest
      return ((key, value) :: entries, rest)
    | none => return ([(key, value)], ← expect? 0x7d rest)

end

/-- Reads a value. -/
def value? (text : Bytes) : Option (Written × Bytes) := valueWithin? (2 * text.length + 2) text

/-! ## Lines -/

/-- The rest after a line has ended: a comment may follow, and nothing else. -/
def lineEnd? (text : Bytes) : Option Bytes :=
  match skipBlanks text with
  | [] => some []
  | b :: rest => if b == 0x23 || isLineEnd b then some (b :: rest) else none

/-- Reads a header or an assignment. -/
def statement? (text : Bytes) : Option (Statement × Bytes) := do
  match expect? 0x5b text with
  | some rest =>
    match expect? 0x5b rest with
    | some rest =>
      let (key, rest) ← key? rest
      return (.item key, ← lineEnd? (← expect? 0x5d (← expect? 0x5d rest)))
    | none =>
      let (key, rest) ← key? rest
      return (.header key, ← lineEnd? (← expect? 0x5d rest))
  | none =>
    let (key, rest) ← key? text
    let (value, rest) ← value? (← expect? 0x3d rest)
    return (.assignment key value, ← lineEnd? rest)

/-- Reads at most `fuel` statements up to the end of the text. -/
def statementsWithin? : Nat → Bytes → Option (List Statement)
  | 0, _ => none
  | fuel + 1, text =>
    match skipVoid false text with
    | [] => some []
    | text => do
      let (statement, rest) ← statement? text
      return statement :: (← statementsWithin? fuel rest)

/-- The statements of a document. -/
def statements? (document : Bytes) : Option (List Statement) :=
  let text := withoutMark document
  if isReadable text then statementsWithin? (text.length + 1) text else none

end CatalystAsm.Toml
