import CatalystAsm.Assembly.Directive

/-!
# Directives of the kernel format

What describes a kernel: its configuration, or else its metadata, its header and its notes; and the
texts of the whole binary.
-/

namespace CatalystAsm

/-- The values of a kernel configuration that are set by one number. -/
inductive ConfigField where
  | constBufferId | floatMode | hwLocal | hwRegion | ieeeMode | pgmRsrc2 | printfId | privateId
  | sampler | scratch | sgprs | uavId | uavPrivate | vgprs
  deriving DecidableEq, Repr

/-- The configuration with a value set; samplers are added one after another. -/
def ConfigField.set (f : ConfigField) (c : KernelConfig) (v : UInt32) : KernelConfig :=
  match f with
  | .constBufferId => { c with constBufferId := v }
  | .floatMode => { c with floatMode := v }
  | .hwLocal => { c with hwLocal := v }
  | .hwRegion => { c with hwRegion := v }
  | .ieeeMode => { c with ieeeMode := v }
  | .pgmRsrc2 => { c with pgmRsrc2 := v }
  | .printfId => { c with printfId := v }
  | .privateId => { c with privateId := v }
  | .sampler => { c with samplers := some (c.samplers.getD [] ++ [v]) }
  | .scratch => { c with scratch := v }
  | .sgprs => { c with sgprs := v }
  | .uavId => { c with uavId := v }
  | .uavPrivate => { c with uavPrivate := v }
  | .vgprs => { c with vgprs := v }

/-- The switches of a kernel configuration. -/
inductive ConfigSwitch where
  | constData | printf
  deriving DecidableEq, Repr

/-- The configuration with a switch turned on. -/
def ConfigSwitch.set (f : ConfigSwitch) (c : KernelConfig) : KernelConfig :=
  match f with
  | .constData => { c with useConstData := true }
  | .printf => { c with usePrintf := true }

/-- The directives of the kernel format. -/
inductive KernelDirective where
  | arg
  | note (type : NoteType)
  | anyNote
  | value (field : ConfigField)
  | «switch» (field : ConfigSwitch)
  /-- two words in a note of one of the types -/
  | entry (types : List NoteType)
  | compileOptions
  | config
  | workSize
  | driverInfo
  | driverVersion
  | globalData
  | header
  | metadata
  | userData
  deriving DecidableEq, Repr

namespace KernelDirective

/-- The directives by name, without the dot. -/
def table : List (String × KernelDirective) := [
  ("arg", .arg), ("boolconsts", .note .boolConsts), ("calnote", .anyNote),
  ("cbid", .value .constBufferId), ("cbmask", .entry [.constantBuffers]),
  ("compile_options", .compileOptions), ("condout", .note .condOut), ("config", .config),
  ("constantbuffers", .note .constantBuffers), ("cws", .workSize), ("driver_info", .driverInfo),
  ("driver_version", .driverVersion), ("earlyexit", .note .earlyExit),
  ("entry", .entry [.progInfo]),
  ("floatconsts", .note .floatConsts), ("floatmode", .value .floatMode),
  ("globalbuffers", .note .globalBuffers), ("globaldata", .globalData), ("header", .header),
  ("hwlocal", .value .hwLocal), ("hwregion", .value .hwRegion), ("ieeemode", .value .ieeeMode),
  ("inputs", .note .inputs), ("inputsamplers", .note .inputSamplers),
  ("intconsts", .note .intConsts), ("metadata", .metadata), ("outputs", .note .outputs),
  ("persistentbuffers", .note .persistentBuffers), ("pgmrsrc2", .value .pgmRsrc2),
  ("printfid", .value .printfId), ("privateid", .value .privateId), ("proginfo", .note .progInfo),
  ("sampler", .value .sampler), ("scratchbuffer", .value .scratch),
  ("scratchbuffers", .note .scratchBuffers),
  ("segment", .entry [.intConsts, .floatConsts, .boolConsts]), ("sgprsnum", .value .sgprs),
  ("subconstantbuffers", .note .subConstantBuffers), ("uav", .note .uav), ("uavid", .value .uavId),
  ("uavmailboxsize", .note .uavMailboxSize), ("uavopmask", .note .uavOpMask),
  ("uavprivate", .value .uavPrivate), ("useconstdata", .switch .constData),
  ("useprintf", .switch .printf), ("userdata", .userData), ("vgprsnum", .value .vgprs)]

/-- The directive of a name, without the dot. -/
def ofName? (name : Bytes) : Option KernelDirective :=
  (table.find? fun d => Bytes.ofString d.1 == name).map (·.2)

/-- The notes whose directive may give their only word. -/
def oneWordNotes : List NoteType := [.earlyExit, .condOut, .uavOpMask, .uavMailboxSize]

end KernelDirective

/-- The classes of user data, in the order of their numbers. -/
def userDataClasses : List String := [
  "IMM_RESOURCE", "IMM_SAMPLER", "IMM_CONST_BUFFER", "IMM_VERTEX_BUFFER", "IMM_UAV",
  "IMM_ALU_FLOAT_CONST", "IMM_ALU_BOOL32_CONST", "IMM_GDS_COUNTER_RANGE", "IMM_GDS_MEMORY_RANGE",
  "IMM_GWS_BASE", "IMM_WORK_ITEM_RANGE", "IMM_WORK_GROUP_RANGE", "IMM_DISPATCH_ID",
  "IMM_SCRATCH_BUFFER", "IMM_HEAP_BUFFER", "IMM_KERNEL_ARG", "IMM_CONTEXT_BASE",
  "IMM_LDS_ESGS_SIZE", "PTR_RESOURCE_TABLE", "PTR_INTERNAL_RESOURCE_TABLE", "PTR_SAMPLER_TABLE",
  "PTR_CONST_BUFFER_TABLE", "PTR_VERTEX_BUFFER_TABLE", "PTR_SO_BUFFER_TABLE", "PTR_UAV_TABLE",
  "PTR_INTERNAL_GLOBAL_TABLE", "PTR_EXTENDED_USER_DATA", "PTR_INDIRECT_RESOURCE",
  "PTR_INDIRECT_INTERNAL_RESOURCE", "PTR_INDIRECT_UAV"]

/-- The number of a class of user data. -/
def userDataClass? (name : Bytes) : Option UInt32 :=
  (userDataClasses.findIdx? fun n => Bytes.ofString n == name).map UInt32.ofNat

namespace KernelArg

/-- The address spaces by name. -/
def spaces : List (String × PtrSpace) :=
  [("global", .global), ("constant", .constant), ("local", .local)]

/-- The qualifiers of pointers by name. -/
def pointerQualifiers : List (String × PtrAccess) :=
  [("const", .const), ("restrict", .restrict), ("volatile", .volatile)]

/-- The ways to access an image by name. -/
def imageQualifiers : List (String × PtrAccess) :=
  [("read_only", .readOnly), ("rdonly", .readOnly), ("write_only", .writeOnly),
    ("wronly", .writeOnly)]

/-- The entry of a name in a list of names. -/
def named? {α : Type} (entries : List (String × α)) (name : Bytes) : Option α :=
  (entries.find? fun e => Bytes.ofString e.1 == name).map (·.2)

/-- The argument with one more qualifier. A pointer may name its address space first of all and then
its qualifiers; an image names how it is accessed; any argument may be unused. -/
def qualify (a : KernelArg) (first : Bool) (q : Bytes) : Option KernelArg :=
  if q = .ofString "unused" then some { a with used := false }
  else if a.type = .pointer then
    match if first then named? spaces q else none with
    | some space => some { a with space }
    | none => (named? pointerQualifiers q).map fun p => { a with access := a.access.union p }
  else if a.type.isImage then
    (named? imageQualifiers q).map fun p => { a with access := a.access.withImagePart p }
  else none

/-- An argument of a type before its qualifiers: a pointer is global, an image is only read. -/
def ofType (name typeName : Bytes) (type : ArgType) (vector : UInt8) : KernelArg :=
  let a : KernelArg := { name, typeName, type, vector, used := true }
  if type = .pointer then { a with space := .global }
  else if type.isImage then { a with access := .readOnly }
  else a

end KernelArg

namespace Assembler

open ArgReader

/-- The kernel where the assembly stands; outside kernels `what` is refused. -/
def currentKernel (a : Assembler) (place : Span) (what : String) : Outcome (Nat × KernelState) :=
  match a.scope with
  | .global => .fail (.outsideKernel what) place
  | .kernel k =>
    match a.kernels[k]? with
    | none => .fail (.outsideKernel what) place
    | some state => .done (k, state)

/-- Moves to a section of the current kernel, which is made and remembered when it is missing. -/
def openOwnSection (a : Assembler) (place : Span) (k : Nat) (id : Option Nat) (kind : SectionKind)
    (remember : KernelState → Nat → KernelState) : Outcome Assembler :=
  match id with
  | some id => (a.trySetSection id).outcome place
  | none =>
    let (b, id) := a.newSection { scope := .kernel k, kind }
    ((b.modifyKernel k (remember · id)).trySetSection id).outcome place

/-- Moves to the metadata of the current kernel. -/
def openMetadata (a : Assembler) (place : Span) : ArgReader Assembler := do
  let (k, state) ← lift (a.currentKernel place "Metadata")
  if state.config.isSome then fail (.afterConfig "Metadata") place
  finish
  lift (a.openOwnSection place k state.metadata .metadata fun s id =>
    { s with metadata := some id })

/-- Moves to the header of the current kernel. -/
def openHeader (a : Assembler) (place : Span) : ArgReader Assembler := do
  let (k, state) ← lift (a.currentKernel place "Header")
  if state.config.isSome then fail (.afterConfig "Header") place
  finish
  lift (a.openOwnSection place k state.header .header fun s id =>
    { s with header := some id, headerPlace := place })

/-- Changes a kernel of the model. -/
def modifyOutput (a : Assembler) (k : Nat) (f : Kernel → Kernel) : Assembler :=
  { a with output := { a.output with kernels := a.output.kernels.map (·.modify k f) } }

/-- Moves to the configuration of the current kernel. -/
def openConfig (a : Assembler) (place : Span) : ArgReader Assembler := do
  let (k, state) ← lift (a.currentKernel place "Kernel config")
  if state.hasGivenParts then fail .configAfterParts place
  finish
  let b ← lift (a.openOwnSection place k state.config .config fun s id =>
    { s with config := some id })
  pure (b.modifyOutput k fun kernel => { kernel with useConfig := true })

/-- Makes a note of a kernel, and moves there. -/
def newNote (a : Assembler) (k : Nat) (type : NoteType) : Attempt Unit :=
  let (b, id) := a.newSection { scope := .kernel k, kind := .note, noteType := type }
  (b.modifyKernel k fun s => { s with notes := s.notes ++ [id] }).trySetSection id

/-- Whether a note comes with its word: only the notes of one word may. -/
def comesWithWord (type : NoteType) : ArgReader Bool := do
  if KernelDirective.oneWordNotes.contains type then return !(← atEnd)
  return false

/-- Adds a note to the current kernel and moves there. With `valued` its word must be given,
otherwise the notes of one word may give it. -/
def addNote (a : Assembler) (place : Place) (type : NoteType) (valued : Bool) :
    ArgReader Assembler := do
  let (k, state) ← lift (a.currentKernel place.name "CALNote")
  if state.config.isSome then fail (.afterConfig "CALNote") place.name
  let withWord ← comesWithWord type
  let added := a.newNote k type
  if valued || withWord then
    let (v, span) ← absolute a.lookup
    report (Statement.rangeWarnings 32 v span)
    finish
    if added.answer.isOk then
      lift ((added.state.putData place.stmt (.littleEndian 4 v.toNat)).onto added.state)
    else lift (added.outcome place.name)
  else
    finish
    lift (added.outcome place.name)

/-- Adds a note of any type to the current kernel. -/
def addAnyNote (a : Assembler) (place : Place) : ArgReader Assembler := do
  let _ ← lift (a.currentKernel place.name "CALNote")
  let type ← word a.lookup
  let valued ← comma
  a.addNote place ⟨type⟩ valued

/-- One value of an entry: the value if there is one, the reports, and where reading goes on. -/
def entryValue (a : Assembler) (c : Cursor) : Option UInt64 × List Diagnostic × Cursor :=
  match Statement.absolute a.lookup c with
  | .ok ((v, span), d) => (some v, Statement.rangeWarnings 32 v span, d)
  | .error s => (none, s.reports, s.cursor)

/-- Whether the assembly stands in a note of one of the types. -/
def inNote (a : Assembler) (types : List NoteType) : Bool :=
  a.scope != .global && a.sections[a.current]?.any fun s =>
    s.kind == .note && types.contains s.noteType

/-- Puts two words into a note. A fault in the first does not keep the second from being read. -/
def putEntry (a : Assembler) (types : List NoteType) (place : Place) (c : Cursor) :
    Outcome Assembler :=
  if !a.inNote types then .fail .illegalEntryPlace place.name
  else
    let (first, reports, d) := a.entryValue c
    match Statement.requiredComma (.ofString "second value") d with
    | .error s => ⟨reports ++ s.reports, none⟩
    | .ok (_, e) =>
      let (second, more, f) := a.entryValue e
      match first, second with
      | some v, some w =>
        (⟨reports ++ more, some ()⟩ : Outcome Unit).andThen fun _ =>
          (Outcome.ofScanned (Statement.noGarbage f)).andThen fun _ =>
            a.putData place.stmt (Bytes.littleEndian 4 v.toNat ++ Bytes.littleEndian 4 w.toNat)
      | _, _ => ⟨reports ++ more, none⟩

/-- The kernel whose configuration is the current section; elsewhere `what` is refused. -/
def configKernel (a : Assembler) (place : Span) (what : String) : Outcome (Nat × KernelConfig) :=
  match a.scope, a.sections[a.current]? with
  | .kernel k, some s =>
    if s.kind = .config then .done (k, (a.output.kernelList.getD k {}).config)
    else .fail (.illegalConfigPlace what) place
  | _, _ => .fail (.illegalConfigPlace what) place

/-- Changes the configuration of a kernel. -/
def setConfig (a : Assembler) (k : Nat) (config : KernelConfig) : Assembler :=
  a.modifyOutput k fun kernel => { kernel with config }

/-- Sets a value of the configuration. -/
def setValue (a : Assembler) (place : Span) (field : ConfigField) : ArgReader Assembler := do
  let (k, config) ← lift (a.configKernel place "configuration pseudo-op")
  let v ← word a.lookup
  finish
  pure (a.setConfig k (field.set config v))

/-- Turns a switch of the configuration on. -/
def setSwitch (a : Assembler) (place : Span) (field : ConfigSwitch) : ArgReader Assembler := do
  let (k, config) ← lift (a.configKernel place "configuration pseudo-op")
  finish
  pure (a.setConfig k (field.set config))

/-- A further number of the work group size: missing or empty it is zero. Also tells whether there
may be more. -/
def workSizePart (a : Assembler) (more : Bool) : ArgReader (UInt32 × Bool) := do
  if !more then return (0, false)
  if !(← comma) then return (0, false)
  if ← atEnd then return (0, false)
  let here : ArgReader (Option UInt8) := fun c => .done (c.peek?, c)
  if (← here) = some Statement.commaByte then return (0, true)
  return (← word a.lookup, true)

/-- Sets the work group size. Only the first number is required. -/
def setWorkSize (a : Assembler) (place : Span) : ArgReader Assembler := do
  let (k, config) ← lift (a.configKernel place "configuration value")
  let x ← word a.lookup
  let (y, more) ← a.workSizePart true
  let (z, _) ← a.workSizePart more
  finish
  pure (a.setConfig k { config with workSize := ⟨x, y, z⟩ })

/-- The qualifiers of an argument, up to the end of the statement. The first one that is not known
is the problem, whatever follows it. -/
def qualifiers (arg : KernelArg) : ArgReader KernelArg := fun c =>
  (comma c).andThen fun (more, d) =>
    if !more then .done (arg, d)
    else
      let read := Statement.items (Statement.expectName (.ofString "argument qualifier"))
        Statement.length_rest_expectName false d
      let step := fun (r : Outcome KernelArg × Bool) ((q, span) : Bytes × Span) =>
        (r.1.andThen fun a => match a.qualify r.2 q with
          | some b => .done b
          | none => .fail (.unknownQualifier q a.type) span, false)
      (read.1.foldl step (.done arg, true)).1.andThen fun a =>
        match read.2 with
        | some s => ⟨s.reports, none⟩
        | none => .done (a, d.toLimit)

/-- Adds an argument: its name, the name of its type, its type and its qualifiers. -/
def addArg (a : Assembler) (place : Span) : ArgReader Assembler := do
  let (k, config) ← lift (a.configKernel place "configuration pseudo-op")
  let (argName, _) ← name "argument name"
  requiredComma "type name"
  let typeName ← string
  requiredComma "argument type"
  let (typeText, span) ← name "argument type"
  match ArgType.ofName? typeText with
  | none => fail (.unknownArgType typeText) span
  | some (type, vector) =>
    let arg ← qualifiers (.ofType argName typeName type vector)
    pure (a.setConfig k { config with args := some (config.argList ++ [arg]) })

/-- Whether a name has no lower-case letter, so that it can only be meant as a class. -/
def looksLikeClass (name : Bytes) : Bool := !name.any fun b => 0x61 ≤ b && b ≤ 0x7a

/-- The class of user data: a name of a class or a number. -/
def userDataClass (a : Assembler) : ArgReader UInt32 := fun c =>
  let start := c.skipBlanks
  match Statement.name? start with
  | none => word a.lookup start
  | some (n, d) =>
    match userDataClass? n with
    | some id => .done (id, d)
    | none =>
      if looksLikeClass n then .fail (.unknownUserDataClass n) (start.spanTo d)
      else word a.lookup start

/-- Adds a user data slot. -/
def addUserData (a : Assembler) (place : Span) : ArgReader Assembler := do
  let (k, config) ← lift (a.configKernel place "configuration pseudo-op")
  let dataClass ← a.userDataClass
  requiredComma "API slot"
  let apiSlot ← word a.lookup
  requiredComma "register start"
  let regStart ← word a.lookup
  requiredComma "register size"
  let regSize ← word a.lookup
  finish
  if maxUserData ≤ config.userDataList.length then fail .tooManyUserData place
  let slot : UserData := { dataClass, apiSlot, regStart, regSize }
  pure (a.setConfig k { config with userData := some (config.userDataList ++ [slot]) })

/-- Sets a text of the binary. -/
def setText (a : Assembler) (set : Model → Bytes → Model) : ArgReader Assembler := do
  let s ← string
  finish
  pure { a with output := set a.output s }

/-- Executes a directive of the kernel format whose arguments are at the cursor. -/
def executeKernel (a : Assembler) (d : KernelDirective) (place : Place) (c : Cursor) :
    Outcome Assembler :=
  match d with
  | .arg => (a.addArg place.name).run c
  | .note type => (a.addNote place type false).run c
  | .anyNote => (a.addAnyNote place).run c
  | .value field => (a.setValue place.name field).run c
  | .switch field => (a.setSwitch place.name field).run c
  | .entry types => a.putEntry types place c
  | .compileOptions => (a.setText fun m s => { m with compileOptions := s }).run c
  | .config => (a.openConfig place.name).run c
  | .workSize => (a.setWorkSize place.name).run c
  | .driverInfo => (a.setText fun m s => { m with driverInfo := s }).run c
  | .driverVersion => (do
      let v ← word a.lookup
      finish
      pure { a with output := { a.output with driverVersion := v } } : ArgReader Assembler).run c
  | .globalData => (do
      finish
      lift ((a.trySetSection globalData).outcome place.name) : ArgReader Assembler).run c
  | .header => (a.openHeader place.name).run c
  | .metadata => (a.openMetadata place.name).run c
  | .userData => (a.addUserData place.name).run c

end Assembler

end CatalystAsm
