import CatalystAsm.Model.Basic
import CatalystAsm.Source.Span

/-!
# Sections and kernels of an assembly

The section table lists every section in the order of creation, with the scope that owns it. Each
kernel remembers its own sections and the section to come back to.
-/

namespace CatalystAsm

/-- What a section is for. -/
inductive SectionKind where
  | code | data | config | header | metadata | note | extra
  deriving DecidableEq, Repr, Inhabited

namespace SectionKind

/-- The kinds in the order of their numbers. -/
def all : List SectionKind := [.code, .data, .config, .header, .metadata, .note, .extra]

/-- The name of a kind. -/
def name : SectionKind → String
  | .code => "code"
  | .data => "data"
  | .config => "config"
  | .header => "header"
  | .metadata => "metadata"
  | .note => "calnote"
  | .extra => "extra"

/-- Whether labels may stand in a section. -/
def isAddressable (k : SectionKind) : Bool := k != .config

/-- Whether data may be put into a section. -/
def isWriteable (k : SectionKind) : Bool := k != .config

/-- Whether labels of a section may be used as absolute addresses. -/
def isAbsolutelyAddressable (k : SectionKind) : Bool := k != .config && k != .code

/-- What may be done with a section, as bits: labels, data, absolute addresses. -/
def flags (k : SectionKind) : Nat :=
  (if k.isAddressable then 1 else 0) + (if k.isWriteable then 2 else 0) +
    if k.isAbsolutelyAddressable then 4 else 0

end SectionKind

/-- What owns a section: the whole binary or one kernel. -/
inductive Scope where
  | global
  | kernel (id : Nat)
  deriving DecidableEq, Repr, Inhabited

/-- An entry of the section table. -/
structure TableSection where
  scope : Scope
  kind : SectionKind
  tag : SectionTag := .unmapped
  noteType : NoteType := {}
  name : Bytes := []
  deriving DecidableEq, Repr, Inhabited

/-- What an assembly knows of a kernel: the numbers of its sections, its extra sections by name and
the tag of the next one, and the section to come back to. -/
structure KernelState where
  code : Nat
  data : Option Nat := none
  config : Option Nat := none
  header : Option Nat := none
  metadata : Option Nat := none
  notes : List Nat := []
  extras : List (Bytes × Nat) := []
  extraCount : UInt32 := 0
  saved : Nat
  headerPlace : Span := ⟨0, 0, 0⟩
  deriving DecidableEq, Repr, Inhabited

/-- Whether parts of the kernel are given, so that they cannot be derived from a configuration. -/
def KernelState.hasGivenParts (k : KernelState) : Bool :=
  k.metadata.isSome || k.header.isSome || !k.notes.isEmpty

end CatalystAsm
