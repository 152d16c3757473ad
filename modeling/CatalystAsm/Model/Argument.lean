import CatalystAsm.Text.Lower

/-!
# Kernel arguments

The types, address spaces and access qualifiers of kernel arguments, and the resources that a list
of arguments takes.
-/

namespace CatalystAsm

/-- The base type of a kernel argument, by number. -/
structure ArgType where
  id : UInt8 := 0
  deriving DecidableEq, Repr, Inhabited

namespace ArgType

/-- The names of the types, in the order of their numbers. -/
def names : List String := [
  "void", "char", "uchar", "short", "ushort", "int", "uint", "long", "ulong", "float", "double",
  "half", "pointer", "image", "image1d", "image1d_array", "image1d_buffer", "image2d",
  "image2d_array", "image3d", "sampler", "structure", "counter32", "counter64"]

def void : ArgType := ⟨0⟩

def pointer : ArgType := ⟨12⟩

def sampler : ArgType := ⟨20⟩

/-- The name of a type. -/
def name (t : ArgType) : String := names.getD t.id.toNat "unknown"

/-- Whether the type is one of the image types. -/
def isImage (t : ArgType) : Bool := 13 ≤ t.id && t.id ≤ 19

/-- Whether the type may be a vector. -/
def isScalar (t : ArgType) : Bool := 1 ≤ t.id && t.id ≤ 11

/-- The numbers of components that a vector may have, as they are written. -/
def vectorWidths : List (String × UInt8) := [("2", 2), ("3", 3), ("4", 4), ("8", 8), ("16", 16)]

/-- The type among numbers `first`, …, `last` with a name. -/
def named? (first last : Nat) (name : Bytes) : Option ArgType :=
  ((List.range (last + 1 - first)).find? fun i =>
    Bytes.ofString (names.getD (first + i) "") == name).map fun i => ⟨UInt8.ofNat (first + i)⟩

/-- The type that a text names, whatever the case of the letters, and the number of components:
a scalar type may be followed by a vector width, and has one component otherwise. -/
def ofName? (text : Bytes) : Option (ArgType × UInt8) :=
  let low := Text.lower text
  match named? 1 23 low with
  | some t => some (t, 1)
  | none =>
    let width := (low.reverse.takeWhile fun b => 0x30 ≤ b && b ≤ 0x39).reverse
    match vectorWidths.find? fun w => Bytes.ofString w.1 == width with
    | none => none
    | some (_, n) => (named? 1 11 (low.take (low.length - width.length))).map (·, n)

end ArgType

/-- The address space of a pointer argument, by number. -/
structure PtrSpace where
  id : UInt8 := 0
  deriving DecidableEq, Repr, Inhabited

namespace PtrSpace

def none : PtrSpace := ⟨0⟩

def «local» : PtrSpace := ⟨1⟩

def constant : PtrSpace := ⟨2⟩

def global : PtrSpace := ⟨3⟩

/-- The name of an address space. -/
def name (s : PtrSpace) : String :=
  ["none", "local", "constant", "global"].getD s.id.toNat "unknown"

end PtrSpace

/-- A set of access qualifiers of pointers and images. -/
structure PtrAccess where
  bits : UInt8 := 0
  deriving DecidableEq, Repr, Inhabited

namespace PtrAccess

def const : PtrAccess := ⟨1⟩

def restrict : PtrAccess := ⟨2⟩

def volatile : PtrAccess := ⟨4⟩

def readOnly : PtrAccess := ⟨8⟩

def writeOnly : PtrAccess := ⟨16⟩

/-- The qualifiers of both sets. -/
def union (a b : PtrAccess) : PtrAccess := ⟨a.bits ||| b.bits⟩

/-- The part of the set that tells how an image is accessed. -/
def imagePart (a : PtrAccess) : PtrAccess := ⟨a.bits &&& 0x18⟩

/-- The set with another way to access an image. -/
def withImagePart (a part : PtrAccess) : PtrAccess := ⟨(a.bits &&& 0xe7) ||| part.bits⟩

/-- Whether the set has the `const` qualifier. -/
def isConst (a : PtrAccess) : Bool := a.bits &&& 1 != 0

end PtrAccess

/-- A typed argument of a kernel. -/
structure KernelArg where
  name : Bytes := []
  typeName : Bytes := []
  type : ArgType := {}
  vector : UInt8 := 0
  space : PtrSpace := {}
  access : PtrAccess := {}
  used : Bool := false
  deriving DecidableEq, Repr, Inhabited

namespace KernelArg

/-- Whether the argument is a sampler. -/
def isSampler (a : KernelArg) : Bool := a.type = .sampler

end KernelArg

end CatalystAsm
