import CatalystAsm.Model.Basic

/-!
# Notes of a configured kernel

The seventeen notes that a kernel configuration stands for.
-/

namespace CatalystAsm

/-- Which layouts a driver expects: before version 1124.2 always sixteen user data slots, before
version 1384.5 a smaller number of threads. -/
structure DriverAge where
  before1124 : Bool
  before1384 : Bool
  deriving DecidableEq, Repr

/-- The age of a driver version. -/
def DriverAge.ofVersion (version : UInt32) : DriverAge := ⟨version < 112402, version < 138405⟩

/-- How many resources of each kind a list of arguments takes. A kernel has one view and two
constant buffers of its own. -/
structure ArgResources where
  readOnlyImages : Nat := 0
  views : Nat := 1
  constantBuffers : Nat := 2
  samplers : Nat := 0
  deriving DecidableEq, Repr

namespace ArgResources

/-- What one argument more takes. Images are told apart by their access, pointers by their address
space. -/
def add (r : ArgResources) (a : KernelArg) : ArgResources :=
  if a.type.isImage then
    if a.access.imagePart = .readOnly then { r with readOnlyImages := r.readOnlyImages + 1 }
    else if a.access.imagePart = .writeOnly then { r with views := r.views + 1 }
    else r
  else if a.type = .pointer then
    if a.space = .global then { r with views := r.views + 1 }
    else if a.space = .constant then { r with constantBuffers := r.constantBuffers + 1 }
    else r
  else if a.type = .sampler then { r with samplers := r.samplers + 1 }
  else r

/-- What a list of arguments takes. -/
def ofArgs (args : List KernelArg) : ArgResources := args.foldl add {}

end ArgResources

/-- A set of views, with one bit for each number below 1024. -/
abbrev ViewMask := Vector UInt32 32

namespace ViewMask

/-- A number below 1024 has its bit in one of the 32 words of a mask. -/
theorem word_lt {id : UInt32} (h : id < 1024) : (id >>> 5).toNat < 32 := by
  rw [UInt32.toNat_shiftRight, Nat.shiftRight_eq_div_pow]
  exact Nat.div_lt_of_lt_mul (UInt32.lt_iff_toNat_lt.mp h)

/-- Marks a view; there is no bit for numbers from 1024 on. -/
def mark (mask : ViewMask) (id : UInt32) : ViewMask :=
  if h : id < 1024 then
    have hword := word_lt h
    mask.set (id >>> 5).toNat (mask[(id >>> 5).toNat] ||| 1 <<< (id &&& 31))
  else mask

/-- Marks the views of arguments: the first argument that takes one has view number `id`. -/
def markArgs (mask : ViewMask) (id : UInt32) : List KernelArg → ViewMask
  | [] => mask
  | a :: rest =>
    if (a.type = .pointer && a.space = .global) ||
        (a.type.isImage && a.access.imagePart = .writeOnly) then
      (mask.mark id).markArgs (id + 1) rest
    else mask.markArgs id rest

end ViewMask

namespace KernelConfig

/-- The resources that the arguments take. -/
def resources (c : KernelConfig) : ArgResources := .ofArgs c.argList

/-- The views that the kernel uses: its own view, and those of its arguments, numbered from one. -/
def viewMask (c : KernelConfig) : ViewMask :=
  (ViewMask.mark (Vector.replicate 32 0) c.uavId).markArgs 1 c.argList

/-- The number of user data slots that the program information describes. -/
def describedUserData (c : KernelConfig) (age : DriverAge) : Nat :=
  if age.before1124 then maxUserData else c.userDataList.length

/-- The two entries of user data slot `i`. -/
def userDataEntries (c : KernelConfig) (i : Nat) : List (UInt32 × UInt32) :=
  let u := c.userDataList.getD i {}
  let key : UInt32 := 0x80001001 + 2 * UInt32.ofNat i
  [(key, u.dataClass <<< 16 ||| (u.apiSlot &&& 0xffff)),
    (key + 1, u.regStart <<< 16 ||| (u.regSize &&& 0xffff))]

/-- The entries of the program information, as keys and values. -/
def progInfo (c : KernelConfig) (age : DriverAge) : List (UInt32 × UInt32) :=
  let slots := c.describedUserData age
  [(0x80001000, UInt32.ofNat slots)] ++ (List.range slots).flatMap c.userDataEntries ++
  [(0x80001041, c.vgprs), (0x80001042, c.sgprs), (0x80001863, 102), (0x80001864, 256),
    (0x80001043, c.floatMode), (0x80001044, c.ieeeMode), (0x80001045, c.scratch),
    (0x00002e13, c.pgmRsrc2), (0x8000001c, c.workSize.x), (0x8000001d, c.workSize.y),
    (0x8000001e, c.workSize.z), (0x80001841, 0),
    (0x8000001f, if age.before1384 then 0xffff else 0x1ffff), (0x80001843, c.hwLocal),
    (0x80001844, c.hwRegion), (0x80001845, c.uavPrivate), (0x80001846, c.earlyExit)] ++
  c.viewMask.toList.zipIdx.map fun (w, i) => (0x80001800 + UInt32.ofNat i, w)

/-- The notes that the configuration stands for, in the order of their types. -/
def calNotes (c : KernelConfig) (age : DriverAge) : List CalNote :=
  let note (type : NoteType) (words : List UInt32) : CalNote :=
    { type, data := some (words.flatMap Bytes.ofUInt32) }
  let upTo (n : Nat) : List UInt32 := (List.range n).map UInt32.ofNat
  let r := c.resources
  [note .progInfo ((c.progInfo age).flatMap fun (key, value) => [key, value]),
    note .inputs (upTo r.readOnlyImages),
    note .outputs [],
    note .condOut [c.condOut],
    note .floatConsts [],
    note .intConsts [],
    note .boolConsts [],
    note .earlyExit [c.earlyExit],
    note .globalBuffers [],
    note .constantBuffers ((upTo r.constantBuffers).flatMap fun i => [i, 0]),
    note .inputSamplers ((List.range r.samplers).flatMap fun i =>
      [UInt32.ofNat i, (c.samplers.getD []).getD i 0]),
    note .persistentBuffers [],
    note .scratchBuffers [if c.scratch = 0 then 0 else 1],
    note .subConstantBuffers [],
    note .uavMailboxSize [0],
    note .uav ((upTo r.views).flatMap fun i => [i, 4, 2, 5]),
    note .uavOpMask c.viewMask.toList]

end KernelConfig

end CatalystAsm
