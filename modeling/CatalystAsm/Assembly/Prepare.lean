import CatalystAsm.Assembly.Run

/-!
# From an assembly to a model

The contents of the sections go into the model in the order of the section table, and then the
symbols that are exported, in the order of their names.
-/

namespace CatalystAsm

/-- Why a model cannot be completed. -/
inductive PrepareError where
  /-- an exported symbol belongs to a section that the table does not have -/
  | unknownSection (symbol : Bytes) (id : Nat)
  deriving DecidableEq, Repr, Inhabited

/-- The wording. -/
def PrepareError.message : PrepareError → Bytes
  | .unknownSection symbol id =>
    .concat [.ofString "amdasm: symbol ", Text.quoted symbol,
      .ofString " refers to unknown section ", .ofNat id]

namespace Assembler

/-- Bytes as a model holds them: none when there are none. -/
def given (b : Bytes) : Option Bytes := if b.isEmpty then none else some b

/-- The extra section that a section of the table becomes. -/
def extraSection (s : TableSection) (b : Bytes) : ExtraSection :=
  { name := s.name, data := given b, align := 1, type := Elf.typeProgBits, link := .null }

/-- A kernel with the content of one of its sections. -/
def placeInKernel (s : TableSection) (b : Bytes) (k : Kernel) : Kernel :=
  match s.kind with
  | .code => { k with code := given b }
  | .data => { k with data := some b }
  | .header => { k with header := given b }
  | .metadata => { k with metadata := given b }
  | .note =>
    { k with notes := some (k.notes.getD [] ++ [{ type := s.noteType, data := given b }]) }
  | .extra => { k with extraSections := some (k.sectionList ++ [extraSection s b]) }
  | .config => k

/-- The binary with the content of one of the sections outside kernels. -/
def placeInModel (s : TableSection) (b : Bytes) (m : Model) : Model :=
  match s.kind with
  | .data => { m with globalData := given b }
  | .extra => { m with extraSections := some (m.sectionList ++ [extraSection s b]) }
  | _ => m

/-- Puts the content of a section into the model. -/
def placeSection (a : Assembler) (s : TableSection) (b : Bytes) : Assembler :=
  match s.scope with
  | .global => { a with output := placeInModel s b a.output }
  | .kernel k => a.modifyOutput k (placeInKernel s b)

/-- The warnings about a section: a header that is too long loses its end. -/
def sectionWarnings (a : Assembler) (s : TableSection) (b : Bytes) : List Diagnostic :=
  match s.scope, s.kind with
  | .kernel k, .header =>
    if headerSize < b.length then
      let place := (a.kernels[k]?.map (·.headerPlace)).getD ⟨0, 0, 0⟩
      let name := (a.output.kernelList.getD k {}).name
      [(Problem.headerTruncated name b.length).warning place]
    else []
  | _, _ => []

/-- Where an exported symbol goes: the scope and the section tag. Symbols of sections that are not
part of the binary under a tag go nowhere. -/
def symbolHome? (a : Assembler) (s : Symbol) : Option (Scope × SectionTag) :=
  match s.home with
  | none => some (.global, .absolute)
  | some id =>
    match a.sections[id]? with
    | none => none
    | some t => if t.tag = .unmapped then none else some (t.scope, t.tag)

/-- Whether a symbol is exported when symbols are. -/
def isExported (s : Symbol) : Bool := s.defined && s.bind != Elf.bindLocal

/-- Puts a symbol into the model. -/
def placeSymbol (a : Assembler) (s : Symbol) : Assembler :=
  match a.symbolHome? s with
  | none => a
  | some (scope, home) =>
    let e : ExtraSymbol :=
      { name := s.name, value := s.value, size := s.size, home, info := s.info, other := s.other }
    match scope with
    | .global =>
      { a with output := { a.output with extraSymbols := some (a.output.symbolList ++ [e]) } }
    | .kernel k => a.modifyOutput k fun kernel =>
      { kernel with extraSymbols := some (kernel.symbolList ++ [e]) }

/-- The sections of the table with their contents. -/
def sectionContents (a : Assembler) : List (TableSection × Bytes) :=
  a.sections.zipIdx.map fun (s, id) => (s, a.content id)

/-- The symbols that go into the model, in the order of their names. -/
def exported (a : Assembler) : List Symbol :=
  if a.options.exportSymbols then (Symbol.sorted a.symbols).filter isExported else []

/-- Completes the model, and tells the warnings about it. -/
def prepare (a : Assembler) : Assembler × List Diagnostic :=
  let target := { a with
    output := { a.output with is64 := a.options.is64, device := a.options.device } }
  let filled := a.sectionContents.foldl (fun b (s, bytes) => b.placeSection s bytes) target
  (a.exported.foldl placeSymbol filled,
    a.sectionContents.flatMap fun (s, b) => a.sectionWarnings s b)

/-- What is wrong with the section of an exported symbol. -/
def homeError? (a : Assembler) (s : Symbol) : Option PrepareError :=
  match s.home with
  | none => none
  | some id => if id < a.sections.length then none else some (.unknownSection s.name id)

/-- The completed model, unless an exported symbol belongs to no section of the table. -/
def completed (a : Assembler) : Except PrepareError Model :=
  match a.exported.findSome? a.homeError? with
  | some e => .error e
  | none => .ok a.prepare.1.output

end Assembler

end CatalystAsm
