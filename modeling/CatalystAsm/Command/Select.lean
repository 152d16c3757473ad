import CatalystAsm.Command.Problem

/-!
# Finding the command

The first word of the arguments that is neither a flag nor the value of one names the command.
-/

namespace CatalystAsm.Command

/-- Whether an argument is a flag that takes the next argument as its value. Flags that are not
known count as such. -/
def takesNext (flags : List Flag) : Bytes → Bool
  | 0x2d :: 0x2d :: name =>
    !name.contains 0x3d && !flags.any fun f => f.isSwitch && Bytes.ofString f.name == name
  | [0x2d, letter] => letter != 0x3d && !flags.any fun f => f.isSwitch && f.hasLetter letter
  | _ => false

/-- Whether an argument begins like a flag. -/
def isFlagLike (argument : Bytes) : Bool := argument.head? == some 0x2d

/-- What ends the flags. -/
def flagEnd : Bytes := .ofString "--"

/-- The words among arguments: those that are neither flags nor values of flags. A flag that
takes one of the last two arguments ends them. -/
def words (flags : List Flag) : List Bytes → List Bytes
  | [] => []
  | a :: rest =>
    if a == flagEnd then []
    else if takesNext flags a then
      match rest with
      | _ :: next :: more => words flags (next :: more)
      | _ => []
    else if a.isEmpty || isFlagLike a then words flags rest
    else a :: words flags rest

/-- The arguments without the first occurrence of a word. -/
def withoutWord (flags : List Flag) (word : Bytes) : List Bytes → List Bytes
  | [] => []
  | a :: rest =>
    if a == flagEnd then a :: rest
    else if takesNext flags a then
      match rest with
      | value :: more => a :: value :: withoutWord flags word more
      | [] => [a]
    else if a == word then rest
    else a :: withoutWord flags word rest

/-! ## Likely commands -/

/-- The rest of a row of edit distances, from the cell to the left and the row above. -/
def editRow (c : UInt8) : Nat → List Nat → Bytes → List Nat
  | left, corner :: up :: above, d :: t =>
    let here := if c == d then corner else min (min left up) corner + 1
    here :: editRow c here (up :: above) t
  | _, _, _ => []

/-- The fewest changes of one byte that lead from one text to another. -/
def editDistance (s t : Bytes) : Nat :=
  (s.foldl (fun row c =>
    let first := row.headD 0 + 1
    first :: editRow c first row t) (List.range (t.length + 1))).getLastD 0

/-- The commands that a word may stand for: it is close to their names or begins them. -/
def likelyCommands (word : Bytes) : List String :=
  let low := Text.lower word
  ["asm", "init", "devices", "inspect", "version"].filter fun name =>
    editDistance low (.ofString name) ≤ 2 || low.isPrefixOf (Bytes.ofString name)

/-! ## Selection -/

/-- The command that arguments name, if any, and the other arguments. -/
def select (arguments : List Bytes) :
    Except Problem (Option (Name × Entry) × List Bytes) :=
  match words globalFlags arguments with
  | [] => .ok (none, arguments)
  | word :: _ =>
    match commands.find? fun c => Bytes.ofString c.2.name == word with
    | some found => .ok (some found, withoutWord globalFlags word arguments)
    | none => .error (.unknownCommand word program (likelyCommands word))

/-- Refuses a wrong number of arguments. -/
def Entry.check (e : Entry) (arguments : List Bytes) : Except Problem Unit :=
  let received := arguments.length
  match e.arity, arguments with
  | .none, word :: _ => .error (.unknownCommand word e.path [])
  | .exactly n, _ => if received = n then .ok () else .error (.argumentCount e.arity received)
  | .atMost n, _ => if received ≤ n then .ok () else .error (.argumentCount e.arity received)
  | _, _ => .ok ()

end CatalystAsm.Command
