import CatalystAsm.Text.Printable

/-!
# JSON documents

Texts are escaped so that they can stand in a page: angle brackets, ampersands and the two line
separators are written by number, and so is every control character without a letter of its own. A
byte that fits no encoding becomes the replacement character.
-/

namespace CatalystAsm

/-- A JSON document. -/
inductive Json where
  | flag (b : Bool)
  | number (n : Int)
  | text (b : Bytes)
  | list (items : List Json)
  | object (fields : List (Bytes × Json))
  deriving Repr, Inhabited

namespace Json

/-- A character of a JSON text. -/
def character (c : Utf8.Character) : Bytes :=
  match c.code with
  | none => Utf8.encode 0xfffd
  | some code =>
    if code = 0x22 || code = 0x5c then 0x5c :: c.bytes
    else if code = 0x08 then .ofString "\\b"
    else if code = 0x0c then .ofString "\\f"
    else if code = 0x0a then .ofString "\\n"
    else if code = 0x0d then .ofString "\\r"
    else if code = 0x09 then .ofString "\\t"
    else if code < 0x20 || code = 0x3c || code = 0x3e || code = 0x26 || code = 0x2028 ||
        code = 0x2029 then .ofString "\\u" ++ Text.hexDigits 4 code
    else c.bytes

/-- A JSON text with its quotes. -/
def quoted (b : Bytes) : Bytes := [0x22] ++ (Utf8.characters b).flatMap character ++ [0x22]

/-- The text of a flag. -/
def flagText (b : Bool) : Bytes := .ofString (if b then "true" else "false")

mutual

/-- The document on one line, without blanks. -/
def compact : Json → Bytes
  | .flag b => flagText b
  | .number n => .ofInt n
  | .text b => quoted b
  | .list items => [Bytes.char '['] ++ compactItems items ++ [Bytes.char ']']
  | .object fields => [0x7b] ++ compactFields fields ++ [0x7d]

/-- Items with commas between them. -/
def compactItems : List Json → Bytes
  | [] => []
  | [j] => j.compact
  | j :: items => j.compact ++ Bytes.char ',' :: compactItems items

/-- Fields with commas between them. -/
def compactFields : List (Bytes × Json) → Bytes
  | [] => []
  | [(name, j)] => quoted name ++ Bytes.char ':' :: j.compact
  | (name, j) :: fields =>
    quoted name ++ Bytes.char ':' :: (j.compact ++ Bytes.char ',' :: compactFields fields)

end

/-- A new line at a depth of nesting, two blanks for each. -/
def newLine (depth : Nat) : Bytes := 0x0a :: List.replicate (2 * depth) 0x20

mutual

/-- The document with an item or field on each line, `depth` deep. -/
def indented (depth : Nat) : Json → Bytes
  | .flag b => flagText b
  | .number n => .ofInt n
  | .text b => quoted b
  | .list [] => .ofString "[]"
  | .list items =>
    [Bytes.char '['] ++ indentedItems depth items ++ newLine depth ++ [Bytes.char ']']
  | .object [] => [0x7b, 0x7d]
  | .object fields => [0x7b] ++ indentedFields depth fields ++ newLine depth ++ [0x7d]

/-- Items, each on a line of its own. -/
def indentedItems (depth : Nat) : List Json → Bytes
  | [] => []
  | [j] => newLine (depth + 1) ++ j.indented (depth + 1)
  | j :: items =>
    newLine (depth + 1) ++ (j.indented (depth + 1) ++ Bytes.char ',' :: indentedItems depth items)

/-- Fields, each on a line of its own. -/
def indentedFields (depth : Nat) : List (Bytes × Json) → Bytes
  | [] => []
  | [(name, j)] => newLine (depth + 1) ++ (quoted name ++ .ofString ": " ++ j.indented (depth + 1))
  | (name, j) :: fields =>
    newLine (depth + 1) ++ (quoted name ++ .ofString ": " ++ j.indented (depth + 1) ++
      Bytes.char ',' :: indentedFields depth fields)

end

/-- The indented document and a newline. -/
def document (j : Json) : Bytes := j.indented 0 ++ [0x0a]

/-! ## Fields -/

/-- A field with a text. -/
def textField (name : String) (b : Bytes) : Bytes × Json := (.ofString name, .text b)

/-- A field with a number. -/
def natField (name : String) (n : Nat) : Bytes × Json := (.ofString name, .number n)

/-- A field with a text, left out when the text is empty. -/
def textField? (name : String) (b : Bytes) : List (Bytes × Json) :=
  if b.isEmpty then [] else [textField name b]

/-- A field with a number, left out when it is zero. -/
def intField? (name : String) (n : Int) : List (Bytes × Json) :=
  if n = 0 then [] else [(.ofString name, .number n)]

end Json

end CatalystAsm
