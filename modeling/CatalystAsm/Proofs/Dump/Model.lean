import CatalystAsm.Container.Binary
import CatalystAsm.Dump.Model
import CatalystAsm.Proofs.Dump.Pack

/-!
# Dumps of models read back

A model fits a dump when its texts, byte strings and lists have lengths of 32 bits. Its dump is then
read back to the same model, whatever follows the dump (`Dump.read_write_append`). There is one
lemma for each record of the dump; each lists, in order, why the fields of the record are read back.
-/

namespace CatalystAsm

/-! ## Models that fit -/

/-- A list whose length is a number of 32 bits. -/
def IsShort {α : Type} (l : List α) : Prop := l.length < UInt32.size

instance {α : Type} (l : List α) : Decidable (IsShort l) :=
  inferInstanceAs (Decidable (_ < _))

/-- The texts of an argument are short. -/
def KernelArg.Fits (a : KernelArg) : Prop := IsShort a.name ∧ IsShort a.typeName

instance (a : KernelArg) : Decidable a.Fits := inferInstanceAs (Decidable (_ ∧ _))

/-- The data of a note is short. -/
def CalNote.Fits (n : CalNote) : Prop := IsShort (n.data.getD [])

instance (n : CalNote) : Decidable n.Fits := inferInstanceAs (Decidable (IsShort _))

/-- The lists of a configuration are short, and its arguments fit. -/
def KernelConfig.Fits (c : KernelConfig) : Prop :=
  IsShort (c.args.getD []) ∧ (∀ a ∈ c.args.getD [], a.Fits) ∧ IsShort (c.samplers.getD []) ∧
    IsShort (c.userData.getD [])

instance (c : KernelConfig) : Decidable c.Fits := inferInstanceAs (Decidable (_ ∧ _))

/-- The name and the data of an extra section are short. -/
def ExtraSection.Fits (s : ExtraSection) : Prop := IsShort s.name ∧ IsShort (s.data.getD [])

instance (s : ExtraSection) : Decidable s.Fits := inferInstanceAs (Decidable (_ ∧ _))

/-- The name of an extra symbol is short. -/
def ExtraSymbol.Fits (s : ExtraSymbol) : Prop := IsShort s.name

instance (s : ExtraSymbol) : Decidable s.Fits := inferInstanceAs (Decidable (IsShort _))

/-- The byte strings and lists of a kernel are short, and its parts fit. -/
def Kernel.Fits (k : Kernel) : Prop :=
  IsShort k.name ∧ IsShort (k.data.getD []) ∧ IsShort (k.header.getD []) ∧
    IsShort (k.metadata.getD []) ∧ IsShort (k.code.getD []) ∧ k.config.Fits ∧
    (IsShort (k.notes.getD []) ∧ ∀ n ∈ k.notes.getD [], n.Fits) ∧
    (IsShort (k.extraSections.getD []) ∧ ∀ s ∈ k.extraSections.getD [], s.Fits) ∧
    IsShort (k.extraSymbols.getD []) ∧ ∀ s ∈ k.extraSymbols.getD [], s.Fits

instance (k : Kernel) : Decidable k.Fits := inferInstanceAs (Decidable (_ ∧ _))

/-- The byte strings and lists of a model are short, and its parts fit. -/
def Model.Fits (m : Model) : Prop :=
  IsShort m.driverInfo ∧ IsShort m.compileOptions ∧ IsShort (m.globalData.getD []) ∧
    (IsShort (m.kernels.getD []) ∧ ∀ k ∈ m.kernels.getD [], k.Fits) ∧
    (IsShort (m.extraSections.getD []) ∧ ∀ s ∈ m.extraSections.getD [], s.Fits) ∧
    IsShort (m.extraSymbols.getD []) ∧ ∀ s ∈ m.extraSymbols.getD [], s.Fits

instance (m : Model) : Decidable m.Fits := inferInstanceAs (Decidable (_ ∧ _))

namespace Dump

open Codec

/-! ## Records -/

/-- An argument of a kernel is read back. -/
theorem readsBack_arg {a : KernelArg} (h : a.Fits) : arg.ReadsBack a := by
  obtain ⟨hname, htypeName⟩ := h
  exact readsBack_record (by decide +kernel) (
    .cons (copies_field (readsBack_text hname)) <|
    .cons (copies_field (readsBack_text htypeName)) <|
    .cons (copies_field (readsBack_uint8 _)) <|
    .cons (copies_field (readsBack_uint8 _)) <|
    .cons (copies_field (readsBack_uint8 _)) <|
    .cons (copies_field (readsBack_uint8 _)) <|
    .cons (copies_field (readsBack_bool _)) .nil) fun _ => rfl

/-- The items of a vector's list make the vector again. -/
theorem ofFn_getD_toList {n : Nat} (v : Vector UInt8 n) :
    (Vector.ofFn fun i => v.toList.getD i.val 0) = v := by
  refine Vector.ext fun i hi => ?_
  rw [Vector.getElem_ofFn, List.getD_eq_getElem?_getD,
    List.getElem?_eq_getElem (by rw [Vector.length_toList]; exact hi)]
  exact Vector.getElem_toList _

/-- A note is read back. -/
theorem readsBack_note {n : CalNote} (h : n.Fits) : note.ReadsBack n := by
  have howner (earlier : CalNote) : earlier.owner.toList.length = n.owner.toList.length := by
    rw [Vector.length_toList, Vector.length_toList]
  have hshort : n.owner.toList.length < UInt32.size := by
    rw [Vector.length_toList]
    decide
  refine readsBack_record (by decide +kernel) (
    .cons (copies_field (readsBack_uint32 _)) <|
    .cons (copies_field_over fun earlier => read_fixedBlob hshort (howner earlier)) <|
    .cons (copies_field (readsBack_blob h)) .nil) fun earlier => ?_
  show { n with owner := Vector.ofFn fun i => n.owner.toList.getD i.val 0 } = n
  rw [ofFn_getD_toList]

theorem readsBack_userData (u : UserData) : userData.ReadsBack u :=
  readsBack_record (by decide +kernel) (
    .cons (copies_field (readsBack_uint32 _)) <|
    .cons (copies_field (readsBack_uint32 _)) <|
    .cons (copies_field (readsBack_uint32 _)) <|
    .cons (copies_field (readsBack_uint32 _)) .nil) fun _ => rfl

/-- A configuration is read back. -/
theorem readsBack_config {c : KernelConfig} (h : c.Fits) : config.ReadsBack c := by
  obtain ⟨hargs, hfits, hsamplers, huserData⟩ := h
  exact readsBack_record (by decide +kernel) (
    .cons (copies_field (readsBack_list {} hargs fun a ha => readsBack_arg (hfits a ha))) <|
    .cons (copies_field (readsBack_list 0 hsamplers fun v _ => readsBack_uint32 v)) <|
    .cons (copies_field_over fun _ =>
      read_fixedList 0 (by decide : 3 < UInt32.size) rfl fun v _ => readsBack_uint32 v) <|
    .cons (copies_field (readsBack_uint32 _)) <|
    .cons (copies_field (readsBack_uint32 _)) <|
    .cons (copies_field (readsBack_uint32 _)) <|
    .cons (copies_field (readsBack_uint32 _)) <|
    .cons (copies_field (readsBack_uint32 _)) <|
    .cons (copies_field (readsBack_uint32 _)) <|
    .cons (copies_field (readsBack_uint32 _)) <|
    .cons (copies_field (readsBack_uint32 _)) <|
    .cons (copies_field (readsBack_uint32 _)) <|
    .cons (copies_field (readsBack_uint32 _)) <|
    .cons (copies_field (readsBack_uint32 _)) <|
    .cons (copies_field (readsBack_uint32 _)) <|
    .cons (copies_field (readsBack_uint32 _)) <|
    .cons (copies_field (readsBack_uint32 _)) <|
    .cons (copies_field (readsBack_uint32 _)) <|
    .cons (copies_field (readsBack_bool _)) <|
    .cons (copies_field (readsBack_bool _)) <|
    .cons (copies_field (readsBack_list {} huserData fun u _ => readsBack_userData u)) .nil)
    fun _ => rfl

/-- An extra section is read back. -/
theorem readsBack_extraSection {s : ExtraSection} (h : s.Fits) : extraSection.ReadsBack s := by
  obtain ⟨hname, hdata⟩ := h
  exact readsBack_record (by decide +kernel) (
    .cons (copies_field (readsBack_text hname)) <|
    .cons (copies_field (readsBack_blob hdata)) <|
    .cons (copies_field (readsBack_uint64 _)) <|
    .cons (copies_field (readsBack_uint32 _)) <|
    .cons (copies_field (readsBack_uint64 _)) <|
    .cons (copies_field (readsBack_uint32 _)) <|
    .cons (copies_field (readsBack_uint32 _)) <|
    .cons (copies_field (readsBack_uint64 _)) .nil) fun _ => rfl

/-- An extra symbol is read back. -/
theorem readsBack_extraSymbol {s : ExtraSymbol} (h : s.Fits) : extraSymbol.ReadsBack s :=
  readsBack_record (by decide +kernel) (
    .cons (copies_field (readsBack_text h)) <|
    .cons (copies_field (readsBack_uint64 _)) <|
    .cons (copies_field (readsBack_uint64 _)) <|
    .cons (copies_field (readsBack_uint32 _)) <|
    .cons (copies_field (readsBack_uint8 _)) <|
    .cons (copies_field (readsBack_uint8 _)) .nil) fun _ => rfl

/-- A kernel with all of its parts is read back. -/
theorem readsBack_kernel {k : Kernel} (h : k.Fits) : kernel.ReadsBack k := by
  obtain ⟨hname, hdata, hheader, hmetadata, hcode, hconfig, ⟨hnotes, hnote⟩,
    ⟨hsections, hsection⟩, hsymbols, hsymbol⟩ := h
  exact readsBack_record (by decide +kernel) (
    .cons (copies_field (readsBack_text hname)) <|
    .cons (copies_field (readsBack_blob hdata)) <|
    .cons (copies_field (readsBack_blob hheader)) <|
    .cons (copies_field (readsBack_blob hmetadata)) <|
    .cons (copies_field (readsBack_list _ hnotes fun n hn => readsBack_note (hnote n hn))) <|
    .cons (copies_field (readsBack_bool _)) <|
    .cons (copies_field (readsBack_config hconfig)) <|
    .cons (copies_field (readsBack_blob hcode)) <|
    .cons (copies_field (readsBack_list _ hsections fun s hs =>
      readsBack_extraSection (hsection s hs))) <|
    .cons (copies_field (readsBack_list _ hsymbols fun s hs =>
      readsBack_extraSymbol (hsymbol s hs))) .nil) fun _ => rfl

/-- **A model** that fits is read back. -/
theorem readsBack_model {m : Model} (h : m.Fits) : model.ReadsBack m := by
  obtain ⟨hdriverInfo, hcompileOptions, hglobalData, ⟨hkernels, hkernel⟩,
    ⟨hsections, hsection⟩, hsymbols, hsymbol⟩ := h
  exact readsBack_record (by decide +kernel) (
    .cons (copies_field (readsBack_bool _)) <|
    .cons (copies_field (readsBack_uint8 _)) <|
    .cons (copies_field (readsBack_text hdriverInfo)) <|
    .cons (copies_field (readsBack_uint32 _)) <|
    .cons (copies_field (readsBack_text hcompileOptions)) <|
    .cons (copies_field (readsBack_blob hglobalData)) <|
    .cons (copies_field (readsBack_list _ hkernels fun k hk => readsBack_kernel (hkernel k hk))) <|
    .cons (copies_field (readsBack_list _ hsections fun s hs =>
      readsBack_extraSection (hsection s hs))) <|
    .cons (copies_field (readsBack_list _ hsymbols fun s hs =>
      readsBack_extraSymbol (hsymbol s hs))) .nil) fun _ => rfl

/-! ## Dumps -/

/-- A dump is read back, whatever its schema is. -/
theorem readsBack_contents (schema : UInt16) {m : Model} (h : m.Fits) :
    contents.ReadsBack ⟨schema, some m⟩ :=
  readsBack_record (by decide +kernel) (
    .cons (copies_field (readsBack_uint16 _)) <|
    .cons (copies_field (readsBack_optional (by decide) (readsBack_model h) {})) .nil)
    fun _ => rfl

/-- **The dump of a model reads back exactly.** Every model whose texts, byte strings and lists have
lengths of 32 bits is read back from its dump, whatever follows the dump: all of it, with the
difference between what is missing and what is empty. So the model that is read back is generated to
the same binary, or refused for the same reason. -/
theorem read_write_append {m : Model} (h : m.Fits) (t : Bytes) :
    read (write m ++ t) = .ok m ∧
      ∀ n, read (write m ++ t) = .ok n → n = m ∧ n.generate = m.generate := by
  have hread : read (write m ++ t) = .ok m := by
    have hcontents := readsBack_contents currentSchema h {} t
    unfold read write
    rw [hcontents]
    rfl
  refine ⟨hread, fun n hn => ?_⟩
  cases hread.symm.trans hn
  exact ⟨rfl, rfl⟩

/-- Two kernels: one whose data, header, notes and lists are missing, and one where they are
empty. -/
def missingAndEmpty : Model where
  device := ⟨3⟩
  driverInfo := [0x64]
  kernels := some [
    { name := [0x61], metadata := some [1, 2, 3] },
    { name := [0x62], data := some [], header := some [], metadata := some [], notes := some [
        { type := .progInfo }, { type := .uav, data := some [] }], useConfig := true,
      extraSections := some [], extraSymbols := some [] }]

/-- Lists that are missing and lists that are empty are not mixed up, and what follows is left. -/
theorem missingAndEmpty_reads_back :
    read (write missingAndEmpty ++ [0xc1]) = .ok missingAndEmpty :=
  (read_write_append (by decide +kernel) [0xc1]).1

end Dump

end CatalystAsm
