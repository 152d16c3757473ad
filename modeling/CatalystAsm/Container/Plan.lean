import CatalystAsm.Gpu
import CatalystAsm.Model.Basic
import CatalystAsm.Text.Printable

/-!
# Planned images

An image is a list of pieces, laid one after another without gaps. The length of each piece is
planned first; the offsets follow from the lengths, and the bytes of a piece may depend on all the
offsets. Writing checks each piece against its plan.
-/

namespace CatalystAsm

/-- The numbers of an image that have a fixed width. -/
inductive ImageField where
  | stringTable | sectionCount | programCount | sectionTableOffset | sectionFlags | sectionOffset
  | sectionSize | sectionAlignment | sectionEntrySize | programHeader | encoding | noteSize
  deriving DecidableEq, Repr

/-- What the field is called in a message. -/
def ImageField.name : ImageField → String
  | .stringTable => "string table"
  | .sectionCount => "section count"
  | .programCount => "program header count"
  | .sectionTableOffset => "section header offset"
  | .sectionFlags => "section flags"
  | .sectionOffset => "section offset"
  | .sectionSize => "section size"
  | .sectionAlignment => "section alignment"
  | .sectionEntrySize => "section entry size"
  | .programHeader => "phdr"
  | .encoding => "CAL encoding"
  | .noteSize => "CAL note size"

/-- What names a section that an image does not have. -/
inductive TagUse where
  | kernelSymbol (kernel name : Bytes)
  | kernelSection (kernel name : Bytes)
  | symbol (name : Bytes)
  | «section» (name : Bytes)
  deriving DecidableEq, Repr

/-- Why no image could be made. -/
inductive ImageError where
  /-- there is no model -/
  | noModel
  /-- a configured kernel has more user data than there are slots -/
  | tooManyUserData (kernel : Bytes) (count : Nat)
  /-- a configured kernel is made for a device that metadata cannot name -/
  | unsupportedDevice (device : Device)
  /-- a symbol or a section names a section that the image does not have -/
  | unmapped (use : TagUse) (tag : SectionTag)
  /-- a number does not fit its field -/
  | overflow (field : ImageField)
  /-- a piece does not start where it was planned -/
  | misplaced (piece start planned : Nat)
  /-- a piece does not have the length that was planned -/
  | wrongLength (piece written planned : Nat)
  /-- the image does not have the length that was planned -/
  | wrongTotal (written planned : Nat)
  deriving DecidableEq, Repr

namespace ImageError

/-- Whether the model was refused before any image was planned. -/
def isInvalid : ImageError → Bool
  | noModel | tooManyUserData .. | unsupportedDevice _ => true
  | _ => false

/-- Whether the plan itself was refused. -/
def isUnmapped : ImageError → Bool
  | unmapped .. => true
  | _ => false

/-- Whether a number did not fit its field. -/
def isOverflow : ImageError → Bool
  | overflow _ => true
  | _ => false

/-- The wording. -/
def message : ImageError → Bytes
  | noModel => .ofString "amdbin: no input"
  | tooManyUserData kernel count =>
    .concat [.ofString "amdbin: kernel ", Text.quoted kernel,
      .ofString ": too many user data entries (", .ofNat count, .ofString " > ",
      .ofNat maxUserData, .ofString ")"]
  | unsupportedDevice device =>
    .concat [.ofString "amdbin: device ", .ofString device.name,
      .ofString " is not supported by kernel metadata"]
  | unmapped use tag =>
    let missing (image : String) : Bytes :=
      .concat [.ofString ": section id 0x", .hexOfNat tag.id.toNat, .ofString " is not mapped in ",
        .ofString image]
    match use with
    | .kernelSymbol kernel name =>
      .concat [.ofString "amdbin: kernel ", Text.quoted kernel, .ofString " symbol ",
        Text.quoted name, missing "a kernel binary"]
    | .kernelSection kernel name =>
      .concat [.ofString "amdbin: kernel ", Text.quoted kernel, .ofString " section ",
        Text.quoted name, missing "a kernel binary"]
    | .symbol name =>
      .concat [.ofString "amdbin: symbol ", Text.quoted name, missing "the main binary"]
    | .section name =>
      .concat [.ofString "amdbin: section ", Text.quoted name, missing "the main binary"]
  | overflow field =>
    .concat [.ofString "amdbin: ", .ofString field.name, .ofString " overflow: out of range"]
  | misplaced piece start planned =>
    .concat [.ofString "amdbin: chunk ", .ofNat piece, .ofString " starts at ", .ofNat start,
      .ofString ", planned ", .ofNat planned]
  | wrongLength piece written planned =>
    .concat [.ofString "amdbin: chunk ", .ofNat piece, .ofString " wrote ", .ofNat written,
      .ofString " bytes, planned ", .ofNat planned]
  | wrongTotal written planned =>
    .concat [.ofString "amdbin: wrote ", .ofNat written, .ofString " bytes, planned ",
      .ofNat planned]

end ImageError

/-- A number as a 32-bit field, unless it does not fit. -/
def word32 (field : ImageField) (n : Nat) : Except ImageError UInt32 :=
  if n < UInt32.size then .ok (UInt32.ofNat n) else .error (.overflow field)

/-- A number as a 16-bit field, unless it does not fit. -/
def word16 (field : ImageField) (n : Nat) : Except ImageError UInt16 :=
  if n < UInt16.size then .ok (UInt16.ofNat n) else .error (.overflow field)

/-- Where the pieces of an image start, and where the image ends. -/
structure Placement where
  offsets : List Nat
  total : Nat
  deriving DecidableEq, Repr

/-- The offset of a piece. -/
def Placement.offset (p : Placement) (piece : Nat) : Nat := p.offsets.getD piece 0

/-- A piece of an image: its planned length, and its bytes once all pieces are placed. -/
structure Piece where
  size : Nat
  emit : Placement → Except ImageError Bytes

namespace Piece

/-- A piece of known bytes. -/
def ofBytes (b : Bytes) : Piece := ⟨b.length, fun _ => .ok b⟩

end Piece

/-- The pieces of an image in order. -/
structure Plan where
  pieces : List Piece

namespace Plan

/-- The offsets of pieces with the given sizes, from an offset on. -/
def offsetsFrom (off : Nat) : List Nat → List Nat
  | [] => []
  | n :: rest => off :: offsetsFrom (off + n) rest

/-- The planned sizes of the pieces. -/
def sizes (p : Plan) : List Nat := p.pieces.map (·.size)

/-- The planned size of the image. -/
def size (p : Plan) : Nat := p.sizes.foldr (· + ·) 0

/-- The planned place of every piece. -/
def placement (p : Plan) : Placement := ⟨offsetsFrom 0 p.sizes, p.size⟩

/-- Writes pieces from number `i` on at offset `pos`, checking each against its plan. -/
def writeFrom (places : Placement) (i pos : Nat) : List Piece → Except ImageError Bytes
  | [] => .ok []
  | piece :: rest =>
    if pos ≠ places.offset i then .error (.misplaced i pos (places.offset i))
    else
      match piece.emit places with
      | .error e => .error e
      | .ok b =>
        if b.length ≠ piece.size then .error (.wrongLength i b.length piece.size)
        else
          match writeFrom places (i + 1) (pos + b.length) rest with
          | .error e => .error e
          | .ok c => .ok (b ++ c)

/-- The bytes of the image. -/
def write (p : Plan) : Except ImageError Bytes := writeFrom p.placement 0 0 p.pieces

end Plan

end CatalystAsm
