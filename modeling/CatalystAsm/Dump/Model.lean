import CatalystAsm.Dump.Pack
import CatalystAsm.Model.Basic

/-!
# Dumps of models

A dump is a record of the version of its form and of the model. Each record lists its fields once,
for writing and for reading.
-/

namespace CatalystAsm.Dump

/-- An argument. -/
def arg : Codec KernelArg := .record {} [
  field "name" .text (·.name) fun a name => { a with name },
  field "type_name" .text (·.typeName) fun a typeName => { a with typeName },
  field "type" .uint8 (·.type.id) fun a id => { a with type := ⟨id⟩ },
  field "vec" .uint8 (·.vector) fun a vector => { a with vector },
  field "space" .uint8 (·.space.id) fun a id => { a with space := ⟨id⟩ },
  field "access" .uint8 (·.access.bits) fun a bits => { a with access := ⟨bits⟩ },
  field "used" .bool (·.used) fun a used => { a with used }]

/-- A note before its owner is read. -/
def blankNote : CalNote := { owner := Vector.replicate 8 0 }

/-- A note. -/
def note : Codec CalNote := .record blankNote [
  field "type" .uint32 (·.type.id) fun n id => { n with type := ⟨id⟩ },
  field "name" .fixedBlob (·.owner.toList) fun n b =>
    { n with owner := Vector.ofFn fun i => b.getD i.val 0 },
  field "data" .blob (·.data) fun n data => { n with data }]

/-- A user data slot. -/
def userData : Codec UserData := .record {} [
  field "class" .uint32 (·.dataClass) fun u dataClass => { u with dataClass },
  field "api_slot" .uint32 (·.apiSlot) fun u apiSlot => { u with apiSlot },
  field "reg_start" .uint32 (·.regStart) fun u regStart => { u with regStart },
  field "reg_size" .uint32 (·.regSize) fun u regSize => { u with regSize }]

/-- A configuration of zeros. -/
def blankConfig : KernelConfig := { constBufferId := 0, printfId := 0 }

/-- A configuration. -/
def config : Codec KernelConfig := .record blankConfig [
  field "args" (.list arg {}) (·.args) fun c args => { c with args },
  field "samplers" (.list .uint32 0) (·.samplers) fun c samplers => { c with samplers },
  field "cws" (.fixedList .uint32 0) (fun c => [c.workSize.x, c.workSize.y, c.workSize.z])
    fun c l => { c with workSize := ⟨l.getD 0 0, l.getD 1 0, l.getD 2 0⟩ },
  field "sgprs" .uint32 (·.sgprs) fun c sgprs => { c with sgprs },
  field "vgprs" .uint32 (·.vgprs) fun c vgprs => { c with vgprs },
  field "pgm_rsrc2" .uint32 (·.pgmRsrc2) fun c pgmRsrc2 => { c with pgmRsrc2 },
  field "ieee_mode" .uint32 (·.ieeeMode) fun c ieeeMode => { c with ieeeMode },
  field "float_mode" .uint32 (·.floatMode) fun c floatMode => { c with floatMode },
  field "hwlocal" .uint32 (·.hwLocal) fun c hwLocal => { c with hwLocal },
  field "hwregion" .uint32 (·.hwRegion) fun c hwRegion => { c with hwRegion },
  field "scratch" .uint32 (·.scratch) fun c scratch => { c with scratch },
  field "private_id" .uint32 (·.privateId) fun c privateId => { c with privateId },
  field "uav_private" .uint32 (·.uavPrivate) fun c uavPrivate => { c with uavPrivate },
  field "uav_id" .uint32 (·.uavId) fun c uavId => { c with uavId },
  field "cb_id" .uint32 (·.constBufferId) fun c constBufferId => { c with constBufferId },
  field "printf_id" .uint32 (·.printfId) fun c printfId => { c with printfId },
  field "early_exit" .uint32 (·.earlyExit) fun c earlyExit => { c with earlyExit },
  field "cond_out" .uint32 (·.condOut) fun c condOut => { c with condOut },
  field "use_const_data" .bool (·.useConstData) fun c useConstData => { c with useConstData },
  field "use_printf" .bool (·.usePrintf) fun c usePrintf => { c with usePrintf },
  field "user_data" (.list userData {}) (·.userData) fun c userData => { c with userData }]

/-- An extra section. -/
def extraSection : Codec ExtraSection := .record {} [
  field "name" .text (·.name) fun s name => { s with name },
  field "data" .blob (·.data) fun s data => { s with data },
  field "align" .uint64 (·.align) fun s align => { s with align },
  field "type" .uint32 (·.type) fun s type => { s with type },
  field "flags" .uint64 (·.flags) fun s flags => { s with flags },
  field "link" .uint32 (·.link.id) fun s id => { s with link := ⟨id⟩ },
  field "info" .uint32 (·.info) fun s info => { s with info },
  field "entsize" .uint64 (·.entrySize) fun s entrySize => { s with entrySize }]

/-- An extra symbol. -/
def extraSymbol : Codec ExtraSymbol := .record {} [
  field "name" .text (·.name) fun s name => { s with name },
  field "value" .uint64 (·.value) fun s value => { s with value },
  field "size" .uint64 (·.size) fun s size => { s with size },
  field "section" .uint32 (·.home.id) fun s id => { s with home := ⟨id⟩ },
  field "info" .uint8 (·.info) fun s info => { s with info },
  field "other" .uint8 (·.other) fun s other => { s with other }]

/-- A kernel of zeros. -/
def blankKernel : Kernel := { config := blankConfig }

/-- A kernel. -/
def kernel : Codec Kernel := .record blankKernel [
  field "name" .text (·.name) fun k name => { k with name },
  field "data" .blob (·.data) fun k data => { k with data },
  field "header" .blob (·.header) fun k header => { k with header },
  field "metadata" .blob (·.metadata) fun k metadata => { k with metadata },
  field "cal_notes" (.list note blankNote) (·.notes) fun k notes => { k with notes },
  field "use_config" .bool (·.useConfig) fun k useConfig => { k with useConfig },
  field "config" config (·.config) fun k config => { k with config },
  field "code" .blob (·.code) fun k code => { k with code },
  field "extra_sections" (.list extraSection {}) (·.extraSections)
    fun k extraSections => { k with extraSections },
  field "extra_symbols" (.list extraSymbol {}) (·.extraSymbols)
    fun k extraSymbols => { k with extraSymbols }]

/-- A model. -/
def model : Codec Model := .record {} [
  field "is64" .bool (·.is64) fun m is64 => { m with is64 },
  field "device" .uint8 (·.device.id) fun m id => { m with device := ⟨id⟩ },
  field "driver_info" .text (·.driverInfo) fun m driverInfo => { m with driverInfo },
  field "driver_version" .uint32 (·.driverVersion) fun m driverVersion => { m with driverVersion },
  field "compile_options" .text (·.compileOptions)
    fun m compileOptions => { m with compileOptions },
  field "global_data" .blob (·.globalData) fun m globalData => { m with globalData },
  field "kernels" (.list kernel blankKernel) (·.kernels) fun m kernels => { m with kernels },
  field "extra_sections" (.list extraSection {}) (·.extraSections)
    fun m extraSections => { m with extraSections },
  field "extra_symbols" (.list extraSymbol {}) (·.extraSymbols)
    fun m extraSymbols => { m with extraSymbols }]

/-- The content of a dump. -/
structure Contents where
  schema : UInt16 := 0
  model : Option Model := none
  deriving DecidableEq, Repr, Inhabited

/-- A whole dump. -/
def contents : Codec Contents := .record {} [
  field "Schema" .uint16 (·.schema) fun c schema => { c with schema },
  field "Input" (.optional model {}) (·.model) fun c model => { c with model }]

/-- The version of the form of a dump. -/
def currentSchema : UInt16 := 1

/-- Why a dump cannot be read. -/
inductive Error where
  | undecodable
  | otherSchema (found : UInt16)
  | noModel
  deriving DecidableEq, Repr

/-- The wording of an error. -/
def Error.message : Error → Bytes
  | undecodable => .ofString "amdbin: decode model"
  | otherSchema found =>
    .concat [.ofString "amdbin: model schema mismatch: got ", .ofNat found.toNat,
      .ofString ", want ", .ofNat currentSchema.toNat]
  | noModel => .ofString "amdbin: no input"

/-- The dump of a model. -/
def write (m : Model) : Bytes := contents.write ⟨currentSchema, some m⟩

/-- Reads a model from its dump; bytes after the dump are ignored. -/
def read (b : Bytes) : Except Error Model :=
  match contents.read {} b with
  | none => .error .undecodable
  | some (c, _) =>
    if c.schema ≠ currentSchema then .error (.otherSchema c.schema)
    else match c.model with
      | none => .error .noModel
      | some m => .ok m

end CatalystAsm.Dump
