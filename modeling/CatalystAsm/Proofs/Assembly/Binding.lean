import CatalystAsm.Proofs.Assembly.Export
import CatalystAsm.Proofs.Container.Binding

/-!
# Local symbols come first

A symbol table starts with its local symbols, and its header tells how many these are. The number
is the count of the fixed symbols in a binary and one in a kernel image, whatever the source says
about its own symbols; it is right because only symbols that are not local are exported
(`Assembler.local_symbols_first`).
-/

namespace CatalystAsm

/-- The ELF file with the symbol table of a scope: the binary, or in it the image that a kernel's
symbol marks. -/
def ElfFile.scopeBytes (content : Bytes) : Scope → Except Fault Bytes
  | .global => .ok content
  | .kernel k => do
    let (f, found) ← withSymbols content
    match found[3 * k + 2]? with
    | none => .error (.other "no such kernel")
    | some e => f.marked e

namespace Assembler

variable {a : Assembler}

/-- The number of fixed symbols in the table of a scope. In a binary there are three for each
kernel, the one for the compile options and the empty one, and in a kernel image the empty one. -/
def fixedCount (a : Assembler) : Scope → Nat
  | .global => 3 * a.kernels.length + 2
  | .kernel _ => 1

/-- Symbols that a scope exports are not local, however often their binding was changed. -/
theorem bind_ne_of_mem_exportsOf {scope : Scope} {s : Symbol} (hs : s ∈ a.exportsOf scope) :
    s.bind.toNat ≠ 0 := by
  obtain ⟨hexported, -⟩ := List.mem_filter.mp hs
  unfold exported at hexported
  split at hexported
  · have hbind := (List.mem_filter.mp hexported).2
    rw [isExported, Bool.and_eq_true, bne_iff_ne] at hbind
    exact fun hzero => hbind.2 (UInt8.toNat_inj.mp hzero)
  · cases hexported

/-- The bindings of the symbols that a scope exports reach the model. -/
theorem Consistent.map_bindOf_exports (h : a.Consistent) {scope : Scope}
    {indexOf : SectionTag → Option Nat} {f : ElfFile} (hshows : a.ShowsSections scope indexOf f) :
    (a.exported.filterMap (a.exportTo? scope)).map (fun e => (Elf.bindOf e.info).toNat)
      = (a.exportsOf scope).map (·.bind.toNat) := by
  rw [h.filterMap_exportTo? hshows, List.map_map]
  rfl

section

variable {b : Bytes}

theorem Reachable.bindings_global (h : Reachable a) (hb : a.prepare.1.output.generate = .ok b)
    (hlen : a.prepare.1.output.is64 = true → b.length < ElfFile.lengthLimit) :
    ElfFile.bindings b = .ok ⟨a.fixedCount .global,
      List.replicate (a.fixedCount .global) 0 ++ (a.exportsOf .global).map (·.bind.toNat)⟩ := by
  obtain ⟨_, _, _, -, -, hshows, -⟩ := h.exports_global hb hlen
  rw [Model.bindings_generate hb hlen, h.symbols_prepare, h.length_kernels_prepare,
    h.consistent.map_bindOf_exports hshows]
  rfl

theorem Reachable.bindings_kernel (h : Reachable a) (hb : a.prepare.1.output.generate = .ok b)
    (hlen : a.prepare.1.output.is64 = true → b.length < ElfFile.lengthLimit) {k : Nat}
    (hk : k < a.kernels.length) :
    ∃ image, ElfFile.scopeBytes b (.kernel k) = .ok image ∧
      ElfFile.bindings image = .ok ⟨a.fixedCount (.kernel k),
        List.replicate (a.fixedCount (.kernel k)) 0 ++
          (a.exportsOf (.kernel k)).map (·.bind.toNat)⟩ := by
  obtain ⟨_, _, hread, -, -, -, -, himages⟩ := Model.exists_exports hb hlen
  obtain ⟨_, _, _, -, -, hshows, -⟩ := h.exports_kernel hb hlen hk
  obtain ⟨kernel, hkernel⟩ : ∃ kernel, a.prepare.1.output.kernelList[k]? = some kernel :=
    ⟨_, List.getElem?_eq_getElem (Nat.lt_of_lt_of_eq hk h.length_kernels_prepare.symm)⟩
  obtain ⟨e, image, he, hmarked, himage⟩ := himages k kernel hkernel
  obtain ⟨-, -, -, -, -, -, hsymbols⟩ := h.kernel_prepare (List.getElem?_eq_getElem hk) hkernel
  refine ⟨image, ?_, ?_⟩
  · rw [ElfFile.scopeBytes, hread, ok_bind]
    dsimp only
    rw [he]
    exact hmarked
  · rw [Kernel.bindings_imageBytes himage, hsymbols, h.consistent.map_bindOf_exports hshows]
    rfl

end

/-- **Local symbols come first.** When a binary has been generated from a source, whether symbols
are exported or not, a reader finds a symbol table in it and one in the image of each kernel. The
header of a table tells at most as many local entries as there are entries. An entry before that
number is local, and any other is not: these are the symbols that the scope exports. -/
theorem local_symbols_first {options : Options} {f : SourceFile} {cancelled : Option Nat}
    {b : Bytes} (hb : (Assembly.ofFile options f cancelled).state.prepare.1.output.generate = .ok b)
    (hlen : (Assembly.ofFile options f cancelled).state.prepare.1.output.is64 = true →
      b.length < ElfFile.lengthLimit) :
    let a := (Assembly.ofFile options f cancelled).state
    ∀ scope, a.HasScope scope → ∃ image t,
      ElfFile.scopeBytes b scope = .ok image ∧ ElfFile.bindings image = .ok t ∧
      t.locals ≤ t.entries.length ∧
      (∀ i bind, t.entries[i]? = some bind → (bind = 0 ↔ i < t.locals)) ∧
      t.locals = a.fixedCount scope ∧
      t.entries.drop t.locals = (a.exportsOf scope).map (·.bind.toNat) := by
  intro a scope hscope
  have hreachable : Reachable a := reachable_ofFile options f cancelled
  have hothers : ∀ bind ∈ (a.exportsOf scope).map (·.bind.toNat), bind ≠ 0 := by
    intro bind hbind
    obtain ⟨s, hs, rfl⟩ := List.mem_map.mp hbind
    exact bind_ne_of_mem_exportsOf hs
  have hsplit := ElfFile.Bindings.split_append (a.fixedCount scope) hothers
  obtain ⟨image, himage, htable⟩ : ∃ image, ElfFile.scopeBytes b scope = .ok image ∧
      ElfFile.bindings image = .ok ⟨a.fixedCount scope,
        List.replicate (a.fixedCount scope) 0 ++ (a.exportsOf scope).map (·.bind.toNat)⟩ := by
    cases scope with
    | global => exact ⟨b, rfl, hreachable.bindings_global hb hlen⟩
    | kernel k => exact hreachable.bindings_kernel hb hlen hscope
  exact ⟨image, _, himage, htable, hsplit.locals_le, hsplit.local_iff, rfl,
    List.drop_left' List.length_replicate⟩

theorem label_follows_local_symbols :
    ∃ b image t, (Assembly.ofFile { exportSymbols := true } labelSource
        none).state.prepare.1.output.generate = .ok b ∧
      ElfFile.scopeBytes b (.kernel 0) = .ok image ∧ ElfFile.bindings image = .ok t ∧
      t.locals = 1 ∧ t.entries.drop 1 = [1] ∧
      ∀ i bind, t.entries[i]? = some bind → (bind = 0 ↔ i < 1) := by
  obtain ⟨b, hb⟩ := exists_of_isOk (x := (Assembly.ofFile { exportSymbols := true } labelSource
    none).state.prepare.1.output.generate) (by decide +kernel)
  have hkernels : (Assembly.ofFile { exportSymbols := true } labelSource
      none).state.kernels.length = 1 := by decide +kernel
  have hexports : ((Assembly.ofFile { exportSymbols := true } labelSource
      none).state.exportsOf (.kernel 0)).map (·.bind.toNat) = [1] := by decide +kernel
  obtain ⟨image, t, himage, htable, -, hlocal, hlocals, hothers⟩ := local_symbols_first hb
    (fun hwide => absurd hwide (by decide +kernel)) (.kernel 0)
    (Nat.lt_of_lt_of_eq Nat.one_pos hkernels.symm)
  rw [hlocals] at hlocal hothers
  exact ⟨b, image, t, hb, himage, htable, hlocals, hothers.trans hexports, hlocal⟩

end Assembler

end CatalystAsm
