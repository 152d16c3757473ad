import CatalystAsm.Gpu
import CatalystAsm.Model.Argument

/-!
# The model of a binary

What a binary is made of, before it is laid out. Byte strings and lists that were never given are
`none`, which differs from an empty one.
-/

namespace CatalystAsm

/-- What stands for a number that was not supplied. -/
def notSupplied : UInt32 := 0xffffffff

/-- The number of user data slots that a kernel may describe. -/
def maxUserData : Nat := 16

/-- The size of a kernel header. -/
def headerSize : Nat := 32

/-- The number of zero bytes that stand for the data of a kernel without data. -/
def defaultDataSize : Nat := 4736

/-- The section that a symbol or a link means. Small numbers count the extra sections of the scope;
the sections that every image has, and the places that are no section, have tags at the top of the
range. -/
structure SectionTag where
  id : UInt32 := 0
  deriving DecidableEq, Repr, Inhabited

namespace SectionTag

def sectionNames : SectionTag := ⟨0xffffff00⟩

def strings : SectionTag := ⟨0xffffff01⟩

def symbols : SectionTag := ⟨0xffffff02⟩

def text : SectionTag := ⟨0xffffff03⟩

def rodata : SectionTag := ⟨0xffffff04⟩

def data : SectionTag := ⟨0xffffff05⟩

def comment : SectionTag := ⟨0xffffff06⟩

/-- No section. -/
def null : SectionTag := ⟨0xfffffffd⟩

/-- The place of absolute values. -/
def absolute : SectionTag := ⟨0xfffffffe⟩

/-- A section that is not part of the binary under a tag. -/
def unmapped : SectionTag := ⟨0xffffffff⟩

end SectionTag

/-- The kind of a CAL note, by number. -/
structure NoteType where
  id : UInt32 := 0
  deriving DecidableEq, Repr, Inhabited

namespace NoteType

def progInfo : NoteType := ⟨1⟩

def inputs : NoteType := ⟨2⟩

def outputs : NoteType := ⟨3⟩

def condOut : NoteType := ⟨4⟩

def floatConsts : NoteType := ⟨5⟩

def intConsts : NoteType := ⟨6⟩

def boolConsts : NoteType := ⟨7⟩

def earlyExit : NoteType := ⟨8⟩

def globalBuffers : NoteType := ⟨9⟩

def constantBuffers : NoteType := ⟨10⟩

def inputSamplers : NoteType := ⟨11⟩

def persistentBuffers : NoteType := ⟨12⟩

def scratchBuffers : NoteType := ⟨13⟩

def subConstantBuffers : NoteType := ⟨14⟩

def uavMailboxSize : NoteType := ⟨15⟩

def uav : NoteType := ⟨16⟩

def uavOpMask : NoteType := ⟨17⟩

/-- The name of a kind of note. -/
def name (t : NoteType) : String :=
  match t.id.toNat with
  | 0 => "UNKNOWN"
  | n + 1 => ["PROGINFO", "INPUTS", "OUTPUTS", "CONDOUT", "FLOAT32CONSTS", "INT32CONSTS",
      "BOOL32CONSTS", "EARLYEXIT", "GLOBAL_BUFFERS", "CONSTANT_BUFFERS", "INPUT_SAMPLERS",
      "PERSISTENT_BUFFERS", "SCRATCH_BUFFERS", "SUB_CONSTANT_BUFFERS", "UAV_MAILBOX_SIZE", "UAV",
      "UAV_OP_MASK"].getD n "UNKNOWN"

end NoteType

/-- The name of the owner of every note. -/
def noteOwner : Vector UInt8 8 := #v[0x41, 0x54, 0x49, 0x20, 0x43, 0x41, 0x4c, 0]

/-- A tagged record of a kernel. -/
structure CalNote where
  type : NoteType := {}
  owner : Vector UInt8 8 := noteOwner
  data : Option Bytes := none
  deriving DecidableEq, Repr

/-- A user data slot. -/
structure UserData where
  dataClass : UInt32 := 0
  apiSlot : UInt32 := 0
  regStart : UInt32 := 0
  regSize : UInt32 := 0
  deriving DecidableEq, Repr, Inhabited

/-- The work group size that a kernel requires. -/
structure WorkSize where
  x : UInt32 := 0
  y : UInt32 := 0
  z : UInt32 := 0
  deriving DecidableEq, Repr, Inhabited

/-- The description of a kernel that its notes, header and metadata are derived from. -/
structure KernelConfig where
  args : Option (List KernelArg) := none
  samplers : Option (List UInt32) := none
  workSize : WorkSize := {}
  sgprs : UInt32 := 0
  vgprs : UInt32 := 0
  pgmRsrc2 : UInt32 := 0
  ieeeMode : UInt32 := 0
  floatMode : UInt32 := 0
  hwLocal : UInt32 := 0
  hwRegion : UInt32 := 0
  scratch : UInt32 := 0
  privateId : UInt32 := 0
  uavPrivate : UInt32 := 0
  uavId : UInt32 := 0
  constBufferId : UInt32 := notSupplied
  printfId : UInt32 := notSupplied
  earlyExit : UInt32 := 0
  condOut : UInt32 := 0
  useConstData : Bool := false
  usePrintf : Bool := false
  userData : Option (List UserData) := none
  deriving DecidableEq, Repr, Inhabited

namespace KernelConfig

/-- The arguments, none given or not. -/
def argList (c : KernelConfig) : List KernelArg := c.args.getD []

/-- The user data slots, none given or not. -/
def userDataList (c : KernelConfig) : List UserData := c.userData.getD []

end KernelConfig

/-- A section that is copied into an image as it is. -/
structure ExtraSection where
  name : Bytes := []
  data : Option Bytes := none
  align : UInt64 := 0
  type : UInt32 := 0
  flags : UInt64 := 0
  link : SectionTag := {}
  info : UInt32 := 0
  entrySize : UInt64 := 0
  deriving DecidableEq, Repr, Inhabited

/-- A symbol that is added to a symbol table. -/
structure ExtraSymbol where
  name : Bytes := []
  value : UInt64 := 0
  size : UInt64 := 0
  home : SectionTag := {}
  info : UInt8 := 0
  other : UInt8 := 0
  deriving DecidableEq, Repr, Inhabited

/-- One kernel. Its notes, header and metadata are derived from its configuration or given. -/
structure Kernel where
  name : Bytes := []
  data : Option Bytes := none
  header : Option Bytes := none
  metadata : Option Bytes := none
  notes : Option (List CalNote) := none
  useConfig : Bool := false
  config : KernelConfig := {}
  code : Option Bytes := none
  extraSections : Option (List ExtraSection) := none
  extraSymbols : Option (List ExtraSymbol) := none
  deriving DecidableEq, Repr, Inhabited

/-- A whole binary. -/
structure Model where
  is64 : Bool := false
  device : Device := {}
  driverInfo : Bytes := []
  driverVersion : UInt32 := 0
  compileOptions : Bytes := []
  globalData : Option Bytes := none
  kernels : Option (List Kernel) := none
  extraSections : Option (List ExtraSection) := none
  extraSymbols : Option (List ExtraSymbol) := none
  deriving DecidableEq, Repr, Inhabited

namespace Kernel

/-- The bytes of the data section, zeros when none are given. -/
def dataBytes (k : Kernel) : Bytes := k.data.getD (List.replicate defaultDataSize 0)

/-- The bytes of the code section. -/
def codeBytes (k : Kernel) : Bytes := k.code.getD []

/-- The extra sections, none given or not. -/
def sectionList (k : Kernel) : List ExtraSection := k.extraSections.getD []

/-- The extra symbols, none given or not. -/
def symbolList (k : Kernel) : List ExtraSymbol := k.extraSymbols.getD []

end Kernel

namespace Model

/-- The kernels, none given or not. -/
def kernelList (m : Model) : List Kernel := m.kernels.getD []

/-- The extra sections, none given or not. -/
def sectionList (m : Model) : List ExtraSection := m.extraSections.getD []

/-- The extra symbols, none given or not. -/
def symbolList (m : Model) : List ExtraSymbol := m.extraSymbols.getD []

end Model

end CatalystAsm
