import CatalystAsm.Text.Printable
import CatalystAsm.Toml.Statement

/-!
# TOML documents

Statements fill a tree of tables. A key is given once, with three exceptions: a table that other
keys brought about may have its own header afterwards, a table that was filled by dotted keys may be
filled further, and a key that holds an array, or is given one, takes the later value.
-/

namespace CatalystAsm.Toml

/-- A value within a document. -/
inductive Node where
  | text (value : Bytes)
  | integer (value : Int)
  | flag (value : Bool)
  | float
  | date
  | array (items : List Node)
  | table (entries : List (Bytes × Node))
  /-- tables under a header in doubled brackets, the last one first -/
  | tables (last : List (Bytes × Node)) (before : List (List (Bytes × Node)))
  deriving Repr, Inhabited

/-- The entries of a table, in the order of their first mention. -/
abbrev Entries := List (Bytes × Node)

namespace Entries

/-- The value under a name. -/
def get? (t : Entries) (name : Bytes) : Option Node := List.lookup name t

/-- The table with a value put under a name. -/
def put (t : Entries) (name : Bytes) (value : Node) : Entries :=
  if (get? t name).isSome then t.map fun (n, v) => (n, if n == name then value else v)
  else t ++ [(name, value)]

/-- The table that a path of names leads to; a list of tables stands for its last one. -/
def at? (t : Entries) : Key → Option Entries
  | [] => some t
  | name :: path =>
    match get? t name with
    | some (.table inner) => at? inner path
    | some (.tables last _) => at? last path
    | _ => none

/-- Changes the table that a path of names leads to, if it leads to one. -/
def change (f : Entries → Entries) : Key → Entries → Entries
  | [], t => f t
  | name :: path, t =>
    match get? t name with
    | some (.table inner) => put t name (.table (change f path inner))
    | some (.tables last before) => put t name (.tables (change f path last) before)
    | _ => t

/-- Puts a value under a dotted key, with new tables where there are none yet. -/
def nest? (value : Node) : Key → Entries → Option Entries
  | [], t => some t
  | [name], t => some (put t name value)
  | name :: path, t =>
    match get? t name with
    | none => (nest? value path []).map fun inner => put t name (.table inner)
    | some (.table inner) => (nest? value path inner).map fun inner => put t name (.table inner)
    | some _ => none

/-- Whether the names lead to a value through plain tables. -/
def isDefined (t : Entries) : Key → Bool
  | [] => true
  | name :: path =>
    match get? t name with
    | some (.table inner) => isDefined inner path
    | some _ => path.isEmpty
    | none => false

end Entries

/-- A document while it is read. -/
structure Document where
  root : Entries := []
  /-- all keys in the order of the text, headers among them -/
  keys : List Key := []
  /-- the tables that may still be given as if they were new -/
  implicits : List Key := []
  /-- the keys that hold an array -/
  arrays : List Key := []
  deriving Repr, Inhabited

namespace Document

/-- Notes whether a key holds an array. -/
def mark (d : Document) (key : Key) (isArray : Bool) : Document :=
  let others := d.arrays.filter (· != key)
  { d with arrays := if isArray then key :: others else others }

/-- The key whose kind a value settles: a value with an empty name counts for the table around
it. -/
def kindKey (context : Key) (name : Bytes) : Key :=
  if name.isEmpty && !context.isEmpty then context else context ++ [name]

/-- Allows a table to be given again. -/
def allow (d : Document) (key : Key) : Document :=
  { d with implicits := key :: d.implicits.filter (· != key) }

/-- No longer allows a table to be given again. -/
def forbid (d : Document) (key : Key) : Document :=
  { d with implicits := d.implicits.filter (· != key) }

/-- Puts a value under a name in the table `context`. -/
def put (d : Document) (context : Key) (name : Bytes) (value : Node) : Document :=
  { d with root := d.root.change (fun t => t.put name value) context }

/-- Gives a name in the table `context` its value. -/
def set? (d : Document) (context : Key) (name : Bytes) (value : Node) : Option Document := do
  let key := context ++ [name]
  if ((← d.root.at? context).get? name).isNone then d.put context name value
  else if d.arrays.contains key then (d.forbid key).put context name value
  else if d.implicits.contains key then d.forbid key
  else none

/-- Makes sure that there are tables for all names of `path` below `context`. -/
def reach? (d : Document) (context : Key) : Key → Option Document
  | [] => some d
  | name :: path => do
    let here := context ++ [name]
    match (← d.root.at? context).get? name with
    | none => reach? ((d.allow here).put context name (.table [])) here path
    | some (.table _) => reach? d here path
    | some (.tables _ _) => reach? d here path
    | some _ => none

/-- Begins the table of a key. -/
def open? (d : Document) (key : Key) : Option Document := do
  let d ← d.reach? [] key.dropLast
  d.set? key.dropLast (key.getLastD []) (.table [])

/-- Begins one more table of the list of tables under a key. -/
def openItem? (d : Document) (key : Key) : Option Document := do
  let d ← d.reach? [] key.dropLast
  let name := key.getLastD []
  match (← d.root.at? key.dropLast).get? name with
  | none => d.put key.dropLast name (.tables [] [])
  | some (.tables last before) => d.put key.dropLast name (.tables [] (last :: before))
  | some _ => none

/-- Begins the tables that a dotted key in the table `context` goes through. -/
def openDotted? (d : Document) (context : Key) : Key → Option Document
  | [] => some d
  | name :: path => do
    let here := context ++ [name]
    openDotted? (← (d.allow here).open? here) here path

mutual

/-- The value of a written value under a name in the table `context`. Tables within a line are
entered into the document on the way. -/
def evaluate? (d : Document) (context : Key) (name : Bytes) (inArray : Bool) :
    Written → Option (Document × Node)
  | .text b => some (d, .text b)
  | .integer n => some (d, .integer n)
  | .flag b => some (d, .flag b)
  | .float => some (d, .float)
  | .date => some (d, .date)
  | .array items => do
    let (d, nodes) ← evaluateItems? (d.mark (kindKey context name) true) context name items
    return (d, .array nodes)
  | .table entries => do
    let here := context ++ [name]
    let d := d.allow here
    let d ← if inArray then d.openItem? here else d.open? here
    let (d, t) ← evaluateEntries? d here [] entries
    return (d, .table t)

/-- The values of the items of an array. -/
def evaluateItems? (d : Document) (context : Key) (name : Bytes) :
    List Written → Option (Document × List Node)
  | [] => some (d, [])
  | item :: items => do
    let (d, node) ← evaluate? d context name true item
    let (d, nodes) ← evaluateItems? d context name items
    return (d, node :: nodes)

/-- Makes assignments in the table `context`; `t` collects the same values apart from the
document. -/
def evaluateEntries? (d : Document) (context : Key) (t : Entries) :
    List (Key × Written) → Option (Document × Entries)
  | [] => some (d, t)
  | (key, value) :: entries => do
    let inner := context ++ key.dropLast
    let name := key.getLastD []
    let d ← d.openDotted? context key.dropLast
    let d := { d with keys := d.keys ++ [inner ++ [name]] }
    let (d, node) ← evaluate? d inner name false value
    let d ← d.set? inner name node
    let d := d.mark (kindKey inner name) (match value with
      | .array _ => true
      | _ => false)
    evaluateEntries? d context (← t.nest? node key) entries

end

/-- Takes in one statement; `context` is the table that assignments go to. -/
def take? (state : Document × Key) : Statement → Option (Document × Key)
  | .header key => do
    let d ← state.1.open? key
    return ({ d.mark key false with keys := d.keys ++ [key] }, key)
  | .item key => do
    let d ← state.1.openItem? key
    return ({ d.mark key false with keys := d.keys ++ [key] }, key)
  | .assignment key value => do
    let (d, _) ← state.1.evaluateEntries? state.2 [] [(key, value)]
    return (d, state.2)

/-- The document of a text, unless the text is malformed. -/
def ofText? (text : Bytes) : Option Document := do
  let (d, _) ← (← statements? text).foldlM take? (({} : Document), [])
  return d

end Document

/-! ## Writing -/

/-- A byte of a string between double quotes. -/
def escaped (b : UInt8) : Bytes :=
  if b == 0x08 then .ofString "\\b"
  else if b == 0x09 then .ofString "\\t"
  else if b == 0x0a then .ofString "\\n"
  else if b == 0x0c then .ofString "\\f"
  else if b == 0x0d then .ofString "\\r"
  else if b == doubleQuote || b == backslash then [backslash, b]
  else if b < 0x20 || b == 0x7f then .ofString "\\u" ++ Text.hexDigits 4 b.toNat
  else [b]

/-- A text between double quotes. -/
def quoted (text : Bytes) : Bytes := [doubleQuote] ++ text.flatMap escaped ++ [doubleQuote]

/-- A dotted key; a name that needs quotes has them. -/
def Key.text (key : Key) : Bytes :=
  .intercalate [0x2e] (key.map fun name =>
    if !name.isEmpty && name.all isBare then name else quoted name)

/-- An array of strings. -/
def quotedList (items : List Bytes) : Bytes :=
  [0x5b] ++ Bytes.intercalate (.ofString ", ") (items.map quoted) ++ [0x5d]

/-- A table: its header and its entries, each on a line. -/
def tableText (name : String) (entries : List (String × Bytes)) : Bytes :=
  .concat [.ofString "[", .ofString name, .ofString "]\n",
    entries.flatMap fun (key, value) =>
      Bytes.concat [.ofString "  ", .ofString key, .ofString " = ", value, .ofString "\n"]]

end CatalystAsm.Toml
