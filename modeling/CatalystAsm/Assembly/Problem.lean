import CatalystAsm.Diagnostic.Basic
import CatalystAsm.Gpu
import CatalystAsm.Model.Basic

/-!
# What can be wrong with a statement

Structural errors come from the bookkeeping of sections and kernels. Problems are everything that a
well-formed statement can be refused or warned for; each knows its code and its wording.
-/

namespace CatalystAsm

/-- An operation on sections and kernels that was refused. -/
inductive StructureError where
  | onlyInKernels (name : Bytes)
  | kernelOutOfRange
  | sectionExists (name : Bytes)
  | sectionOutOfRange
  | noSuchSection
  deriving DecidableEq, Repr, Inhabited

/-- The wording of a structural error. -/
def StructureError.message : StructureError → Bytes
  | onlyInKernels name =>
    .ofString "Section '" ++ name ++ .ofString "' permitted only inside kernels"
  | kernelOutOfRange => .ofString "KernelId out of range"
  | sectionExists name => .ofString "Section '" ++ name ++ .ofString "' already exists"
  | sectionOutOfRange => .ofString "SectionId out of range"
  | noSuchSection => .ofString "Section doesn't exist"

/-- Why a statement was refused or warned about. -/
inductive Problem where
  | expectedStatement
  | instruction
  | unknownDirective (name : Bytes)
  | symbolRedefined (name : Bytes)
  | structural (e : StructureError)
  | notWriteable
  | notAddressable
  | fillSize
  | fillTooLarge (bytes : UInt64)
  | skipTooLarge (bytes : UInt64)
  | lateWordSize
  | unknownDevice
  | unknownArchitecture
  | outsideKernel (what : String)
  | afterConfig (what : String)
  | configAfterParts
  | illegalEntryPlace
  | illegalConfigPlace (what : String)
  | unknownArgType (name : Bytes)
  | unknownQualifier (name : Bytes) (type : ArgType)
  | unknownUserDataClass (name : Bytes)
  | tooManyUserData
  | headerTruncated (kernel : Bytes) (size : Nat)
  deriving DecidableEq, Repr, Inhabited

namespace Problem

/-- The code that a problem is reported under. -/
def code : Problem → Code
  | expectedStatement => .expectName
  | instruction => .instruction
  | unknownDirective _ => .unknownDirective
  | symbolRedefined _ => .symbolRedefined
  | structural _ => .structural
  | notWriteable | notAddressable => .notWriteable
  | fillSize | fillTooLarge _ | skipTooLarge _ => .outOfRange
  | lateWordSize => .lateWordSize
  | unknownDevice => .unknownDevice
  | unknownArchitecture => .unknownArchitecture
  | outsideKernel _ => .outsideKernel
  | afterConfig _ => .lateNotes
  | configAfterParts => .lateConfig
  | illegalEntryPlace => .illegalEntryPlace
  | illegalConfigPlace _ => .illegalConfigPlace
  | unknownArgType _ => .unknownArgType
  | unknownQualifier .. => .unknownQualifier
  | unknownUserDataClass _ => .unknownUserDataClass
  | tooManyUserData => .tooManyUserData
  | headerTruncated .. => .headerTruncated

/-- The wording of a problem. -/
def message : Problem → Bytes
  | expectedStatement => .ofString "Expected statement"
  | instruction => .ofString "Instructions are not supported"
  | unknownDirective name => .ofString "Unknown pseudo-op '." ++ name ++ .ofString "'"
  | symbolRedefined name => .ofString "Symbol '" ++ name ++ .ofString "' is already defined"
  | structural e => e.message
  | notWriteable => .ofString "Writing data into non-writeable section is illegal"
  | notAddressable => .ofString "Label can't be defined in non-addressable section"
  | fillSize => .ofString "Fill size is greater than 8, using 8"
  | fillTooLarge n => .ofString "Fill of " ++ .ofNat n.toNat ++ .ofString " bytes is too large"
  | skipTooLarge n => .ofString "Skip of " ++ .ofNat n.toNat ++ .ofString " bytes is too large"
  | lateWordSize => .ofString "Bitness can't be changed after content"
  | unknownDevice => unknownDeviceMessage
  | unknownArchitecture => unknownArchitectureMessage
  | outsideKernel what => .ofString what ++ .ofString " can be defined only inside kernel"
  | afterConfig what => .ofString what ++ .ofString " can't be defined if configuration defined"
  | configAfterParts =>
    .ofString "Config can't be defined if metadata, header and/or CALnotes section exists"
  | illegalEntryPlace => .ofString "Illegal place of entry"
  | illegalConfigPlace what => .ofString "Illegal place of " ++ .ofString what
  | unknownArgType name => .ofString "Unknown argument type '" ++ name ++ .ofString "'"
  | unknownQualifier name type =>
    .ofString "Unknown qualifier '" ++ name ++ .ofString "' for argument of type " ++
      .ofString type.name
  | unknownUserDataClass name => .ofString "Unknown user data class '" ++ name ++ .ofString "'"
  | tooManyUserData =>
    .ofString "Too many UserData elements (at most " ++ .ofNat maxUserData ++ .ofString ")"
  | headerTruncated kernel size =>
    .ofString "Header of kernel '" ++ kernel ++ .ofString "' has " ++ .ofNat size ++
      .ofString " bytes, only " ++ .ofNat headerSize ++ .ofString " are kept"

/-- The error that a problem is reported as. -/
def error (p : Problem) (span : Span) (notes : List Note) : Diagnostic :=
  { severity := .error, code := p.code, message := p.message, span, notes }

/-- The warning that a problem is reported as. -/
def warning (p : Problem) (span : Span) : Diagnostic :=
  { severity := .warning, code := p.code, message := p.message, span }

end Problem

end CatalystAsm
