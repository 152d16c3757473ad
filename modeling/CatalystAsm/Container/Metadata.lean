import CatalystAsm.Model.Basic

/-!
# Metadata and header of a kernel

A configured kernel has a metadata text of one line per fact, and a header of eight words. A kernel
with given parts has its own metadata, and its header cut or filled to the fixed size.
-/

namespace CatalystAsm

/-- The number that the first kernel of a binary is known by. -/
def firstUniqueId : UInt32 := 1025

namespace KernelArg

/-- The metadata lines of argument number `i`; `sampler` is the number of samplers before it. -/
def metadataLines (a : KernelArg) (i sampler : Nat) : List Bytes :=
  [.ofString ";reflection:" ++ a.typeName ++ .ofString " " ++ a.name ++ .ofString ";"] ++
  (if a.access.isConst then
    [.ofString ";constarg:" ++ .ofNat i ++ .ofString ":" ++ a.name] else []) ++
  (if a.isSampler then
    [.ofString ";sampler:" ++ a.name ++ .ofString ":" ++ .ofNat sampler ++ .ofString ":1:0"]
    else [])

/-- The metadata lines of arguments from number `i` on, with `sampler` samplers before them. -/
def listLines (i sampler : Nat) : List KernelArg → List Bytes
  | [] => []
  | a :: rest =>
    a.metadataLines i sampler ++
      listLines (i + 1) (if a.isSampler then sampler + 1 else sampler) rest

end KernelArg

namespace Kernel

/-- The metadata lines of a configured kernel. -/
def metadataLines (k : Kernel) (device : Device) (is64 : Bool) (uniqueId : UInt32) : List Bytes :=
  let c := k.config
  let word (v : UInt32) : Bytes := .ofNat v.toNat
  let owner : Bytes := .ofString "__OpenCL_" ++ k.name ++ .ofString "_kernel"
  [.ofString ";ARGSTART:" ++ owner,
    .ofString ";version:3:1:111",
    .ofString ";device:" ++ .ofString device.name,
    .ofString ";uniqueid:" ++ word uniqueId,
    .ofString ";memory:uavprivate:" ++ word c.uavPrivate,
    .ofString ";memory:hwlocal:" ++ word c.hwLocal,
    .ofString ";memory:hwregion:" ++ word c.hwRegion] ++
  (if is64 then [.ofString ";memory:64bitABI"] else []) ++
  (if c.useConstData then [.ofString ";memory:datareqd"] else []) ++
  KernelArg.listLines 0 0 c.argList ++
  [.ofString ";function:" ++ word uniqueId,
    .ofString ";uavid:" ++ word c.uavId,
    .ofString ";privateid:" ++ word c.privateId] ++
  (if c.usePrintf then [.ofString ";printfid:" ++ word c.printfId] else []) ++
  (if c.constBufferId = notSupplied then []
    else [.ofString ";cbuffers:" ++ word c.constBufferId]) ++
  [.ofString ";ARGEND:" ++ owner]

/-- The metadata text of a configured kernel. -/
def configMetadata (k : Kernel) (device : Device) (is64 : Bool) (uniqueId : UInt32) : Bytes :=
  (k.metadataLines device is64 uniqueId).flatMap (· ++ [0x0a])

/-- The metadata of a kernel. -/
def metadataBytes (k : Kernel) (device : Device) (is64 : Bool) (uniqueId : UInt32) : Bytes :=
  if k.useConfig then k.configMetadata device is64 uniqueId else k.metadata.getD []

/-- The header of a configured kernel. -/
def configHeader (c : KernelConfig) : Bytes :=
  [0, 0, c.scratch, c.uavPrivate, c.hwLocal, c.hwRegion, c.sgprs, c.vgprs].flatMap Bytes.ofUInt32

/-- A given header, cut or filled with zeros to the fixed size. -/
def fitHeader (h : Bytes) : Bytes := Bytes.padRight headerSize 0 (h.take headerSize)

/-- The header of a kernel. -/
def headerBytes (k : Kernel) : Bytes :=
  if k.useConfig then configHeader k.config else fitHeader (k.header.getD [])

@[simp] theorem length_headerBytes (k : Kernel) : k.headerBytes.length = headerSize := by
  unfold headerBytes
  split
  · simp [configHeader, headerSize]
  · simp only [fitHeader, Bytes.padRight, List.length_append, List.length_replicate,
      List.length_take]
    omega

end Kernel

end CatalystAsm
