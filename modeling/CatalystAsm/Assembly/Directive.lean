import CatalystAsm.Assembly.State

/-!
# Directives of every format

Kernels and sections, data, symbols and the target. A directive is found by its name; executing it
gives the state after it.
-/

namespace CatalystAsm

/-- The directives that do not depend on the format of the binary. -/
inductive Directive where
  | kernel
  | main
  | «section»
  | namedSection (name : Bytes)
  /-- numbers of `size` bytes each -/
  | numbers (size : Nat)
  /-- strings, each with a zero byte behind it when `terminated` -/
  | strings (terminated : Bool)
  | fill
  | skip
  | binding (bind : UInt8)
  | symbolSize
  | wordSize (is64 : Bool)
  | gpu
  | arch
  deriving DecidableEq, Repr

namespace Directive

/-- The directives by name, without the dot. -/
def table : List (String × Directive) := [
  ("kernel", .kernel), ("main", .main), ("section", .section),
  ("text", .namedSection Assembler.codeName), ("data", .namedSection Assembler.dataName),
  ("byte", .numbers 1), ("hword", .numbers 2), ("short", .numbers 2), ("int", .numbers 4),
  ("long", .numbers 4), ("word", .numbers 4), ("quad", .numbers 8), ("ascii", .strings false),
  ("asciz", .strings true), ("string", .strings true), ("fill", .fill), ("skip", .skip),
  ("space", .skip), ("global", .binding Elf.bindGlobal), ("globl", .binding Elf.bindGlobal),
  ("local", .binding Elf.bindLocal), ("weak", .binding Elf.bindWeak), ("size", .symbolSize),
  ("32bit", .wordSize false), ("64bit", .wordSize true), ("gpu", .gpu), ("arch", .arch)]

/-- The directive of a name, without the dot. -/
def ofName? (name : Bytes) : Option Directive :=
  (table.find? fun d => Bytes.ofString d.1 == name).map (·.2)

/-- The most bytes that one directive may repeat. -/
def maxFill : UInt64 := 0x4000000

end Directive

namespace Assembler

open ArgReader

/-- The statement that a directive stands in: where its name stands, and the statement from there
on. -/
structure Place where
  name : Span
  stmt : Span
  deriving DecidableEq, Repr, Inhabited

/-- Moves to the kernel of a name, which is made when it is missing. -/
def openKernel (a : Assembler) (place : Span) (name : Bytes) : Outcome Assembler :=
  match a.kernelNames.lookup name with
  | some k => (a.trySetKernel (.kernel k)).outcome place
  | none =>
    let (b, k) := a.addKernel name
    .done { b with kernelNames := a.kernelNames ++ [(name, k)], hasContent := true }

/-- Moves to the section of a name in the current scope, which is made when it is missing. -/
def openSection (a : Assembler) (place : Span) (name : Bytes) : Outcome Assembler :=
  match a.sectionId? name with
  | some id => (a.trySetSection id).outcome place
  | none => (a.tryAddSection name a.scope).outcome place

/-- The name of a section, as a name or as a string. -/
def sectionName : ArgReader Bytes := fun c =>
  let d := c.skipBlanks
  if d.peek? = some Statement.doubleQuote then string d
  else (do let (n, _) ← name "section name"; pure n : ArgReader Bytes) d

/-- The reports about a list of items: what is said about each, and the stop. -/
def listReports {α : Type} (about : α → List Diagnostic) (items : List α × Option Stop) :
    List Diagnostic :=
  items.1.flatMap about ++ items.2.toList.flatMap (·.reports)

/-- Numbers of `size` bytes, separated by commas. -/
def putNumbers (a : Assembler) (size : Nat) (stmt : Span) (c : Cursor) : Outcome Assembler :=
  let read := Statement.items (Statement.absolute a.lookup) Statement.length_rest_absolute true c
  let reports := listReports (fun (v, span) => Statement.rangeWarnings (size * 8) v span) read
  let data := read.1.flatMap fun (v, _) => Bytes.littleEndian size v.toNat
  if read.2.isSome then ⟨reports, none⟩
  else (⟨reports, some ()⟩ : Outcome Unit).andThen fun _ =>
    if data.isEmpty then .done a else a.putData stmt data

/-- Strings, separated by commas. -/
def putStrings (a : Assembler) (terminated : Bool) (stmt : Span) (c : Cursor) :
    Outcome Assembler :=
  let read := Statement.items Statement.quotedString Statement.length_rest_quotedString true c
  let data := read.1.flatMap fun s => if terminated then s ++ [0] else s
  if read.2.isSome then ⟨listReports (fun _ => []) read, none⟩
  else if data.isEmpty then .done a
  else a.putData stmt data

/-- The arguments of a fill: the count with its span, the size and the value. -/
def fillArguments (a : Assembler) : ArgReader (UInt64 × Span × UInt64 × UInt64) := do
  let (count, span) ← absolute a.lookup
  if ← comma then
    let (size, sizeSpan) ← absolute a.lookup
    let tooLarge := 8 < size
    report (if tooLarge then [Problem.fillSize.warning sizeSpan] else [])
    let size := if tooLarge then 8 else size
    if ← comma then
      let (value, valueSpan) ← absolute a.lookup
      report (Statement.rangeWarnings (size.toNat * 8) value valueSpan)
      finish
      pure (count, span, size, value)
    else
      finish
      pure (count, span, size, 0)
  else
    finish
    pure (count, span, 1, 0)

/-- Repeats a number of up to eight bytes: `count`, `size` and `value`. -/
def putFill (a : Assembler) (stmt : Span) (c : Cursor) : Outcome Assembler :=
  (a.fillArguments.run c).andThen fun (count, span, size, value) =>
    if Directive.maxFill < count || Directive.maxFill < count * size then
      .fail (.fillTooLarge (count * size)) span
    else
      a.putData stmt
        (Nat.repeat (Bytes.littleEndian size.toNat value.toNat ++ ·) count.toNat [])

/-- The arguments of a skip: the number of bytes with its span, and the byte. -/
def skipArguments (a : Assembler) : ArgReader (UInt64 × Span × UInt64) := do
  let (n, span) ← absolute a.lookup
  if ← comma then
    let (value, valueSpan) ← absolute a.lookup
    report (Statement.rangeWarnings 8 value valueSpan)
    finish
    pure (n, span, value)
  else
    finish
    pure (n, span, 0)

/-- Repeats one byte. -/
def putSkip (a : Assembler) (stmt : Span) (c : Cursor) : Outcome Assembler :=
  (a.skipArguments.run c).andThen fun (n, span, value) =>
    if Directive.maxFill < n then .fail (.skipTooLarge n) span
    else a.putData stmt (List.replicate n.toNat value.toUInt8)

/-- Gives symbols another binding. -/
def bindSymbols (a : Assembler) (bind : UInt8) (c : Cursor) : Outcome Assembler :=
  let read := Statement.items (Statement.expectName (.ofString "symbol name"))
    Statement.length_rest_expectName false c
  match read.2 with
  | some s => ⟨s.reports, none⟩
  | none =>
    let symbols := read.1.foldl (fun symbols (name, span) =>
      Symbol.update symbols name span (·.withBind bind)) a.symbols
    .done { a with symbols }

/-- Gives a symbol a size. -/
def sizeSymbol (a : Assembler) : ArgReader Assembler := do
  let (n, span) ← name "symbol name"
  requiredComma "size"
  let (size, _) ← absolute a.lookup
  finish
  pure { a with symbols := Symbol.update a.symbols n span fun s => { s with size } }

/-- Chooses the word size; it cannot change once there is content. -/
def setWordSize (a : Assembler) (is64 : Bool) (place : Span) : Outcome Assembler :=
  if a.hasContent && a.options.is64 != is64 then .fail .lateWordSize place
  else .done { a with options := { a.options with is64 } }

/-- Chooses the device. -/
def setDevice (a : Assembler) : ArgReader Assembler := do
  let (n, span) ← name "GPU device name"
  finish
  match Device.ofName? n with
  | none => fail .unknownDevice span
  | some device => pure { a with options := { a.options with device } }

/-- Chooses the first device of an architecture. -/
def setArchitecture (a : Assembler) : ArgReader Assembler := do
  let (n, span) ← name "GPU architecture name"
  finish
  match Architecture.ofName? n with
  | none => fail .unknownArchitecture span
  | some arch => pure { a with options := { a.options with device := arch.lowestDevice } }

/-- Executes a directive whose arguments are at the cursor. -/
def execute (a : Assembler) (d : Directive) (place : Place) (c : Cursor) : Outcome Assembler :=
  match d with
  | .kernel => (do
      let (n, _) ← name "kernel name"
      finish
      lift (a.openKernel place.name n) : ArgReader Assembler).run c
  | .main => (do
      finish
      lift ((a.trySetKernel .global).outcome place.name) : ArgReader Assembler).run c
  | .section => (do
      let n ← sectionName
      finish
      lift (a.openSection place.name n) : ArgReader Assembler).run c
  | .namedSection n => (do
      finish
      lift (a.openSection place.name n) : ArgReader Assembler).run c
  | .numbers size => a.putNumbers size place.stmt c
  | .strings terminated => a.putStrings terminated place.stmt c
  | .fill => a.putFill place.stmt c
  | .skip => a.putSkip place.stmt c
  | .binding bind => a.bindSymbols bind c
  | .symbolSize => a.sizeSymbol.run c
  | .wordSize is64 => (do
      finish
      lift (a.setWordSize is64 place.name) : ArgReader Assembler).run c
  | .gpu => a.setDevice.run c
  | .arch => a.setArchitecture.run c

end Assembler

end CatalystAsm
