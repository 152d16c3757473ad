import CatalystAsm.Assembly.Outcome
import CatalystAsm.Assembly.Section
import CatalystAsm.Assembly.Symbol
import CatalystAsm.Source.File

/-!
# The state of an assembly

The sections, kernels and symbols so far, where the assembly stands, and the model that is being
made. Structural operations leave a state also when they are refused.
-/

namespace CatalystAsm

/-- What an assembly is asked for. -/
structure Options where
  is64 : Bool := false
  device : Device := {}
  driverVersion : UInt32 := 0
  driverInfo : Bytes := []
  /-- whether symbols that are not local go into the binary -/
  exportSymbols : Bool := false
  deriving DecidableEq, Repr, Inhabited

/-- The state of an assembly. -/
structure Assembler where
  options : Options := {}
  /-- the kernel where the assembly stands -/
  scope : Scope := .global
  /-- the section where the assembly stands -/
  current : Nat := 0
  /-- the bytes of the sections, up to the last one that was written to -/
  contents : List Bytes := []
  symbols : List Symbol := []
  kernelNames : List (Bytes × Nat) := []
  /-- whether a kernel was made or data was put -/
  hasContent : Bool := false
  sections : List TableSection := [{ scope := .global, kind := .data }]
  kernels : List KernelState := []
  /-- the extra sections outside kernels, by name -/
  extras : List (Bytes × Nat) := []
  /-- the tag of the next extra section outside kernels -/
  extraCount : UInt32 := 0
  /-- the section to come back to outside kernels -/
  saved : Nat := 0
  output : Model := {}
  deriving DecidableEq, Repr, Inhabited

/-- What an operation on sections and kernels leaves: the state, and what it gives or why it was
refused. -/
structure Attempt (α : Type) where
  state : Assembler
  answer : Except StructureError α
  deriving Repr

namespace Attempt

/-- What the operation gives, with the state after it. -/
def result {α : Type} (t : Attempt α) : Except StructureError (Assembler × α) :=
  t.answer.map fun v => (t.state, v)

/-- The operation as a part of a statement: a refusal is reported at a place, and whatever was
changed before it stays. -/
def outcome {α : Type} (t : Attempt α) (place : Span) : Outcome Assembler :=
  (Outcome.ofStructural place (t.answer.map fun _ => t.state)).onto t.state

end Attempt

namespace Assembler

/-- An assembly before its first statement: outside kernels, in the section of global data. -/
def ofOptions (options : Options) : Assembler :=
  { options
    output := { driverVersion := options.driverVersion, driverInfo := options.driverInfo } }

/-- The number of the section of global data. -/
def globalData : Nat := 0

/-- The bytes of a section. -/
def content (a : Assembler) (id : Nat) : Bytes := a.contents.getD id []

/-- The number of bytes of the section where the assembly stands. -/
def position (a : Assembler) : Nat := (a.content a.current).length

/-! ## Structure -/

/-- The section table with one more section, and the number of that section. -/
def newSection (a : Assembler) (s : TableSection) : Assembler × Nat :=
  ({ a with sections := a.sections ++ [s] }, a.sections.length)

/-- Changes what is known of a kernel. -/
def modifyKernel (a : Assembler) (k : Nat) (f : KernelState → KernelState) : Assembler :=
  { a with kernels := a.kernels.modify k f }

/-- Remembers the current section as the one to come back to in its scope. -/
def saveSection (a : Assembler) : Assembler :=
  match a.scope with
  | .global => { a with saved := a.current }
  | .kernel k => a.modifyKernel k fun s => { s with saved := a.current }

/-- Leaves the current section for another one. -/
def moveTo (a : Assembler) (scope : Scope) (id : Nat) : Assembler :=
  { a.saveSection with scope, current := id }

/-- The name of a kernel's code section. -/
def codeName : Bytes := .ofString ".text"

/-- The name of a kernel's data section. -/
def dataName : Bytes := .ofString ".data"

/-- Makes a kernel with its code section, and moves there. -/
def addKernel (a : Assembler) (name : Bytes) : Assembler × Nat :=
  let k := a.kernels.length
  let (b, code) :=
    a.newSection { scope := .kernel k, kind := .code, tag := .text, name := codeName }
  let output := { b.output with kernels := some (b.output.kernelList ++ [{ name := name }]) }
  let state : KernelState := { code, saved := code }
  let c := { b with output, kernels := b.kernels ++ [state] }
  (c.moveTo (.kernel k) code, k)

/-- What a kernel's `.text` or `.data` section is made as. -/
def textOrData? (name : Bytes) : Option (SectionKind × SectionTag) :=
  if name = codeName then some (.code, .text)
  else if name = dataName then some (.data, .data)
  else none

/-- The extra sections of a scope, by name; none for a kernel that does not exist. -/
def extrasOf? (a : Assembler) : Scope → Option (List (Bytes × Nat))
  | .global => some a.extras
  | .kernel k => a.kernels[k]?.map (·.extras)

/-- The tag of the next extra section of a scope. -/
def extraCountOf (a : Assembler) : Scope → UInt32
  | .global => a.extraCount
  | .kernel k => (a.kernels[k]?.map (·.extraCount)).getD 0

/-- Remembers a new extra section of a scope, and that its tag is taken. -/
def addExtra (a : Assembler) (scope : Scope) (name : Bytes) (id : Nat) : Assembler :=
  match scope with
  | .global => { a with extras := a.extras ++ [(name, id)], extraCount := a.extraCount + 1 }
  | .kernel k => a.modifyKernel k fun s =>
    { s with extras := s.extras ++ [(name, id)], extraCount := s.extraCount + 1 }

/-- The code or data section of a kernel, made when it is missing. -/
def textOrDataSection (a : Assembler) (k : Nat) (state : KernelState) (kind : SectionKind)
    (tag : SectionTag) (name : Bytes) : Assembler × Nat :=
  match if kind = .code then some state.code else state.data with
  | some id => (a, id)
  | none =>
    let (b, id) := a.newSection { scope := .kernel k, kind, tag, name }
    (b.modifyKernel k fun s => { s with data := some id }, id)

/-- Makes a section in a scope, and moves there. A kernel's `.text` and `.data` may exist already;
they exist nowhere else. -/
def tryAddSection (a : Assembler) (name : Bytes) (scope : Scope) : Attempt Nat :=
  match textOrData? name with
  | some (kind, tag) =>
    match scope with
    | .global => ⟨a, .error (.onlyInKernels name)⟩
    | .kernel k =>
      match a.kernels[k]? with
      | none => ⟨a, .error .kernelOutOfRange⟩
      | some state =>
        let (b, id) := a.textOrDataSection k state kind tag name
        ⟨b.moveTo scope id, .ok id⟩
  | none =>
    match a.extrasOf? scope with
    | none => ⟨a, .error .kernelOutOfRange⟩
    | some extras =>
      if extras.any (·.1 == name) then ⟨a, .error (.sectionExists name)⟩
      else
        let (b, id) := a.newSection
          { scope, kind := .extra, tag := ⟨a.extraCountOf scope⟩, name }
        ⟨(b.addExtra scope name id).moveTo scope id, .ok id⟩

/-- The state and the number of the section after making one, unless that is refused. -/
def addSection (a : Assembler) (name : Bytes) (scope : Scope) :
    Except StructureError (Assembler × Nat) := (a.tryAddSection name scope).result

/-- The section of a name in the current scope. -/
def sectionId? (a : Assembler) (name : Bytes) : Option Nat :=
  match a.scope with
  | .global => a.extras.lookup name
  | .kernel k =>
    a.kernels[k]?.bind fun state =>
      match textOrData? name with
      | some (.code, _) => some state.code
      | some _ => state.data
      | none => state.extras.lookup name

/-- Moves to a kernel, to the section where it was left. -/
def trySetKernel (a : Assembler) (scope : Scope) : Attempt Unit :=
  match scope with
  | .global => ⟨a.moveTo .global a.saveSection.saved, .ok ()⟩
  | .kernel k =>
    match a.saveSection.kernels[k]? with
    | none => ⟨a, .error .kernelOutOfRange⟩
    | some state => ⟨a.moveTo (.kernel k) state.saved, .ok ()⟩

/-- The state after moving to a kernel, unless that is refused. -/
def setKernel (a : Assembler) (scope : Scope) : Except StructureError Assembler :=
  (a.trySetKernel scope).result.map (·.1)

/-- Moves to a section and the scope that owns it. -/
def trySetSection (a : Assembler) (id : Nat) : Attempt Unit :=
  match a.sections[id]? with
  | none => ⟨a, .error .sectionOutOfRange⟩
  | some s => ⟨a.moveTo s.scope id, .ok ()⟩

/-- The state after moving to a section, unless that is refused. -/
def setSection (a : Assembler) (id : Nat) : Except StructureError Assembler :=
  (a.trySetSection id).result.map (·.1)

/-- The entry of a section. -/
def section? (a : Assembler) (id : Nat) : Except StructureError TableSection :=
  match a.sections[id]? with
  | none => .error .noSuchSection
  | some s => .ok s

/-! ## Data -/

/-- The contents with `b` added to section `id`. -/
def appendTo (contents : List Bytes) (id : Nat) (b : Bytes) : List Bytes :=
  (contents ++ List.replicate (id + 1 - contents.length) []).modify id (· ++ b)

/-- Puts bytes into the current section; `stmt` is the statement that does so. -/
def putData (a : Assembler) (stmt : Span) (b : Bytes) : Outcome Assembler :=
  match a.section? a.current with
  | .error e => .fail (.structural e) stmt
  | .ok s =>
    if s.kind.isWriteable then
      .done { a with contents := appendTo a.contents a.current b, hasContent := true }
    else .fail .notWriteable stmt

/-! ## Symbols -/

/-- The name of the current position. -/
def dotName : Bytes := [0x2e]

/-- The current position as a value. -/
def here (a : Assembler) : Value :=
  { bits := UInt64.ofNat a.position, home := UInt32.ofNat a.current, relative := true }

/-- What a name stands for in an expression: a single dot is the current position. -/
def lookup (a : Assembler) : Resolver := fun name =>
  if name = dotName then some a.here
  else match Symbol.find? a.symbols name with
    | some s => if s.defined then some s.toValue else none
    | none => none

/-- Defines a symbol; it must not be defined yet. -/
def defineSymbol (a : Assembler) (name : Bytes) (span : Span) (v : Value) : Outcome Assembler :=
  let defined := { a with symbols := Symbol.update a.symbols name span (·.define v span) }
  match Symbol.find? a.symbols name with
  | some s =>
    if s.defined then
      .stop ((Problem.symbolRedefined name).error span [⟨s.span, .ofString "previous definition"⟩])
    else .done defined
  | none => .done defined

/-- Defines a name as the current position. -/
def defineLabel (a : Assembler) (name : Bytes) (span : Span) : Outcome Assembler :=
  match a.section? a.current with
  | .error e => .fail (.structural e) span
  | .ok s =>
    if s.kind.isAddressable then a.defineSymbol name span a.here else .fail .notAddressable span

end Assembler

end CatalystAsm
