import CatalystAsm.Command.Value

/-!
# Flags

The arguments of a command are flags and plain arguments in any order. A flag has a name after two
hyphens and may have a letter after one; letters can be joined. Two hyphens alone end the flags.
-/

namespace CatalystAsm.Command

/-- What the value of a flag is. -/
inductive FlagKind where
  | text | switch | integer | word | duration
  deriving DecidableEq, Repr, Inhabited

/-- A flag that a command takes. -/
structure Flag where
  name : String
  letter : Option Char := none
  kind : FlagKind := .text
  /-- the value when the flag is not given, as the help shows it -/
  initial : String := ""
  usage : String
  deriving Repr, Inhabited

namespace Flag

/-- Whether the flag can be given without a value. -/
def isSwitch (f : Flag) : Bool := f.kind == .switch

/-- Whether the flag has a letter. -/
def hasLetter (f : Flag) (b : UInt8) : Bool := f.letter.any fun c => Bytes.char c == b

/-- The flag as messages call it. -/
def label (f : Flag) : Bytes :=
  .concat [f.letter.elim [] fun c => .concat [.ofString "-", [Bytes.char c], .ofString ", "],
    .ofString "--", .ofString f.name]

/-- What is wrong with a value, if anything is. -/
def complaint? (f : Flag) (value : Bytes) : Option Bytes :=
  let numeric (reader : String) (fault : NumberFault) : Bytes :=
    .concat [.ofString "strconv.", .ofString reader, .ofString ": parsing ", Text.quoted value,
      .ofString ": ", .ofString fault.text]
  match f.kind with
  | .text => none
  | .switch => if (switch? value).isSome then none else some (numeric "ParseBool" .malformed)
  | .integer => match integer value with
    | .ok _ => none
    | .error fault => some (numeric "ParseInt" fault)
  | .word => match natural UInt32.size value with
    | .ok _ => none
    | .error fault => some (numeric "ParseUint" fault)
  | .duration => match duration value with
    | .ok _ => none
    | .error fault => some (fault.message value)

end Flag

/-- Why arguments cannot be taken. -/
inductive FlagFault where
  | badSyntax (argument : Bytes)
  | unknownName (name : Bytes)
  | unknownLetter (letter : UInt8) (letters : Bytes)
  | noValue (name : Bytes)
  | noLetterValue (letter : UInt8) (letters : Bytes)
  | badValue (flag : Flag) (value complaint : Bytes)
  deriving Repr, Inhabited

namespace FlagFault

/-- A letter between single quotes. -/
def quotedLetter (b : UInt8) : Bytes :=
  let shown := Text.quoted (Utf8.encode b.toNat)
  let body := (shown.drop 1).dropLast
  let body := if b == 0x27 then [0x5c, b] else if b == 0x22 then [b] else body
  [0x27] ++ body ++ [0x27]

/-- The wording of a fault. -/
def message : FlagFault → Bytes
  | .badSyntax argument => .ofString "bad flag syntax: " ++ argument
  | .unknownName name => .ofString "unknown flag: --" ++ name
  | .unknownLetter letter letters =>
    .concat [.ofString "unknown shorthand flag: ", quotedLetter letter, .ofString " in -", letters]
  | .noValue name => .ofString "flag needs an argument: --" ++ name
  | .noLetterValue letter letters =>
    .concat [.ofString "flag needs an argument: ", quotedLetter letter, .ofString " in -", letters]
  | .badValue flag value complaint =>
    .concat [.ofString "invalid argument ", Text.quoted value, .ofString " for ",
      Text.quoted flag.label, .ofString " flag: ", complaint]

end FlagFault

/-- The flags that were given, the last one first, and the plain arguments in order. -/
structure Given where
  flags : List (String × Bytes) := []
  arguments : List Bytes := []
  deriving Repr, Inhabited

namespace Given

/-- Takes in a flag with its value. -/
def take (g : Given) (f : Flag) (value : Bytes) : Except FlagFault Given :=
  match f.complaint? value with
  | some complaint => .error (.badValue f value complaint)
  | none => .ok { g with flags := (f.name, value) :: g.flags }

/-- The last value given to a flag. -/
def value? (g : Given) (name : String) : Option Bytes := g.flags.lookup name

/-- Whether a flag was given. -/
def has (g : Given) (name : String) : Bool := (g.value? name).isSome

/-- The text of a flag. -/
def text (g : Given) (name : String) (initial : String := "") : Bytes :=
  (g.value? name).getD (.ofString initial)

/-- The value of a switch, which is off at first. -/
def switch (g : Given) (name : String) : Bool := ((g.value? name).bind switch?).getD false

/-- The number of a flag. -/
def integer (g : Given) (name : String) (initial : Int := 0) : Int :=
  ((g.value? name).bind fun v => (Command.integer v).toOption).getD initial

/-- The 32-bit number of a flag. -/
def word (g : Given) (name : String) : UInt32 :=
  UInt32.ofNat (((g.value? name).bind fun v => (natural UInt32.size v).toOption).getD 0)

end Given

/-- The value that a switch has when none is given. -/
def switchedOn : Bytes := .ofString "true"

/-- Takes joined letters; gives back the arguments that are left. -/
def takeLetters (flags : List Flag) (g : Given) (rest : List Bytes) :
    Bytes → Except FlagFault (Given × List Bytes)
  | [] => .ok (g, rest)
  | letter :: more =>
    let letters := letter :: more
    match flags.find? (·.hasLetter letter) with
    | none => .error (.unknownLetter letter letters)
    | some f =>
      match more with
      | 0x3d :: b :: value => (g.take f (b :: value)).map fun g => (g, rest)
      | _ =>
        if f.isSwitch then do takeLetters flags (← g.take f switchedOn) rest more
        else match more, rest with
          | [], [] => .error (.noLetterValue letter letters)
          | [], value :: rest => (g.take f value).map fun g => (g, rest)
          | _, _ => (g.take f more).map fun g => (g, rest)

/-- Takes a flag by its name, with the text after the hyphens. -/
def takeName (flags : List Flag) (g : Given) (rest : List Bytes) (text : Bytes) :
    Except FlagFault (Given × List Bytes) :=
  let name := text.takeWhile (· != 0x3d)
  let after := text.drop name.length
  if name.isEmpty || name.head? == some 0x2d then .error (.badSyntax (.ofString "--" ++ text))
  else match flags.find? fun f => Bytes.ofString f.name == name with
    | none => .error (.unknownName name)
    | some f =>
      if !after.isEmpty then (g.take f (after.drop 1)).map fun g => (g, rest)
      else if f.isSwitch then (g.take f switchedOn).map fun g => (g, rest)
      else match rest with
        | [] => .error (.noValue name)
        | value :: rest => (g.take f value).map fun g => (g, rest)

/-- Takes arguments, at most `fuel` at a time. -/
def takeWithin (flags : List Flag) : Nat → Given → List Bytes → Except FlagFault Given
  | _, g, [] => .ok g
  | 0, g, _ => .ok g
  | fuel + 1, g, argument :: rest =>
    match argument with
    | [0x2d, 0x2d] => .ok { g with arguments := g.arguments ++ rest }
    | 0x2d :: 0x2d :: text => do
      let (g, rest) ← takeName flags g rest text
      takeWithin flags fuel g rest
    | 0x2d :: letter :: letters => do
      let (g, rest) ← takeLetters flags g rest (letter :: letters)
      takeWithin flags fuel g rest
    | _ => takeWithin flags fuel { g with arguments := g.arguments ++ [argument] } rest

/-- Sorts the arguments of a command into flags and plain arguments. -/
def Given.ofArguments (flags : List Flag) (arguments : List Bytes) : Except FlagFault Given :=
  takeWithin flags arguments.length {} arguments

end CatalystAsm.Command
