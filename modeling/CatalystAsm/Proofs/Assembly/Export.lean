import CatalystAsm.Proofs.Assembly.Placement
import CatalystAsm.Proofs.Assembly.Symbol
import CatalystAsm.Proofs.Container.Export

/-!
# Where exported symbols land

A symbol of an assembly is known by the number of its section in the section table. On its way to
the binary that number becomes a tag within a scope, and the tag the number of a section of an ELF
image. A reader who goes the way back finds the section that the symbol was defined in
(`Assembler.exported_symbols_land`).
-/

namespace CatalystAsm

/-! ## Order -/

namespace Bytes

/-- Being at most is the order of bytes. -/
theorem atMost_iff {a b : Bytes} : atMost a b = true ↔ a ≤ b := by
  rw [atMost, Bool.not_eq_true']
  exact List.lex_eq_false_iff_ge

theorem atMost_trans (a b c : Bytes) (hab : atMost a b = true) (hbc : atMost b c = true) :
    atMost a c = true :=
  atMost_iff.mpr (List.le_trans (atMost_iff.mp hab) (atMost_iff.mp hbc))

/-- Any two names can be compared. -/
theorem atMost_total (a b : Bytes) : (atMost a b || atMost b a) = true := by
  rw [Bool.or_eq_true, atMost_iff, atMost_iff]
  exact List.le_total a b

theorem before_of_atMost_of_ne {a b : Bytes} (h : atMost a b = true) (hne : a ≠ b) :
    before a b = true :=
  List.lex_eq_true_iff_lt.mpr (Std.lt_of_le_of_ne (atMost_iff.mp h) hne)

end Bytes

namespace Symbol

theorem perm_sorted (l : List Symbol) : (sorted l).Perm l := List.mergeSort_perm l _

/-- Symbols with different names are sorted strictly. -/
theorem Named.pairwise_sorted {l : List Symbol} (h : Named l) :
    (sorted l).Pairwise fun s t => Bytes.before s.name t.name = true := by
  have hsorted : (sorted l).Pairwise fun s t => Bytes.atMost s.name t.name = true :=
    List.pairwise_mergeSort (fun r s t => Bytes.atMost_trans r.name s.name t.name)
      (fun s t => Bytes.atMost_total s.name t.name) l
  have hnodup : ((sorted l).map (·.name)).Nodup := ((perm_sorted l).map _).nodup_iff.mpr h.nodup
  rw [List.Nodup, List.pairwise_map] at hnodup
  exact (hsorted.and hnodup).imp fun h => Bytes.before_of_atMost_of_ne h.1 h.2

end Symbol

/-- Names hold no zero byte. -/
theorem IsName.takeWhile {name : Bytes} (h : IsName name) : name.takeWhile (· != 0) = name := by
  refine List.takeWhile_eq_self_iff.mpr fun b hb => ?_
  rw [bne_iff_ne]
  rintro rfl
  exact absurd (h 0 hb) (by decide)

/-! ## Tables -/

/-- The table that the symbols of a scope go to, and the file that it is in: in a binary of
`kernels` kernels the entries behind those of the kernels, or all entries of the image that a
kernel's symbol marks. -/
def ElfFile.exports (content : Bytes) (kernels : Nat) :
    Scope → Except Fault (ElfFile × List Symbol)
  | .global => do
    let (f, found) ← withSymbols content
    return (f, found.drop (3 * kernels + 1))
  | .kernel k => do
    let (f, found) ← withSymbols content
    match found[3 * k + 2]? with
    | none => .error (.other "no such kernel")
    | some e =>
      let image ← f.marked e
      withSymbols image

/-- Whether the symbols of a section are exported: those of a kernel's code and data and of extra
sections. -/
def TableSection.holdsExports (t : TableSection) : Bool :=
  t.kind = .extra || (t.scope ≠ .global && (t.kind = .code || t.kind = .data))

namespace Assembler

variable {a : Assembler}

/-- A scope is outside kernels or a kernel that exists. -/
def HasScope (a : Assembler) : Scope → Prop
  | .global => True
  | .kernel k => k < a.kernels.length

/-- The scope that an exported symbol belongs to: that of its section, and outside kernels for
absolute symbols. Symbols of other sections belong nowhere. -/
def exportScope? (a : Assembler) (s : Symbol) : Option Scope :=
  match s.home with
  | none => some .global
  | some id => a.sections[id]?.bind fun t => if t.holdsExports then some t.scope else none

/-- The tag that an exported symbol has. -/
def tagOf (a : Assembler) (s : Symbol) : SectionTag :=
  match s.home with
  | none => .absolute
  | some id => (a.sections[id]?.map (·.tag)).getD .unmapped

/-- A file shows the sections of a scope: each tag means a section with the bytes of the section of
that tag. -/
structure ShowsSections (a : Assembler) (scope : Scope) (indexOf : SectionTag → Option Nat)
    (f : ElfFile) : Prop where
  absolute : indexOf .absolute = some Elf.indexAbsolute
  sections : ∀ id t, a.sections[id]? = some t → t.scope = scope → t.holdsExports = true →
    t.tag ≠ .unmapped ∧ ∃ index, indexOf t.tag = some index ∧ index < UInt16.size ∧
      f.HasBody index (a.content id)

/-- Bytes that are given are read back, also when there are none. -/
theorem getD_given (b : Bytes) : (given b).getD [] = b := by
  cases b <;> rfl

/-- The extra sections of a scope are shown, when they are the extra sections of an image. -/
theorem Consistent.shows_extra (h : a.Consistent) {scope : Scope} {first : Nat}
    {indexOf : SectionTag → Option Nat} {f : ElfFile} {l : List ExtraSection}
    (hl : l = (entriesOf a.sections scope .extra).map fun e => extraSection e.1 (a.content e.2))
    (hcount : first + l.length < UInt16.size)
    (hindex : ∀ i, i < l.length → indexOf ⟨UInt32.ofNat i⟩ = some (first + i))
    (hbody : ∀ i s, l[i]? = some s → s.type = Elf.typeProgBits →
      f.HasBody (first + i) (s.data.getD [])) {id : Nat} {t : TableSection}
    (ht : a.sections[id]? = some t) (hscope : t.scope = scope) (hkind : t.kind = .extra) :
    t.tag ≠ .unmapped ∧ ∃ index, indexOf t.tag = some index ∧ index < UInt16.size ∧
      f.HasBody index (a.content id) := by
  obtain ⟨i, hi, htag⟩ := h.exists_rank ht hkind
  rw [hscope] at hi
  have hplace : l[i]? = some (extraSection t (a.content id)) := by
    rw [hl, List.getElem?_map, hi]
    rfl
  have hlt := (List.getElem?_eq_some_iff.mp hplace).1
  have hbody := hbody i _ hplace rfl
  rw [htag]
  refine ⟨SectionTag.ofNat_ne (by omega) (by decide), first + i, hindex i hlt, by omega, ?_⟩
  change f.HasBody (first + i) ((given (a.content id)).getD []) at hbody
  rwa [getD_given] at hbody

/-- The code and the data of a kernel are those of its sections of the table. -/
theorem Reachable.codeBytes_prepare (h : Reachable a) {id k : Nat} {t : TableSection}
    {kernel : Kernel} (hkernel : a.prepare.1.output.kernelList[k]? = some kernel)
    (ht : a.sections[id]? = some t) (hscope : t.scope = .kernel k) :
    (t.kind = .code → kernel.codeBytes = a.content id) ∧
      (t.kind = .data → kernel.dataBytes = a.content id) := by
  have hlt := h.consistent.owners t (List.mem_of_getElem? ht) k hscope
  have hstate := List.getElem?_eq_getElem hlt
  have hlists := h.consistent.kernels k _ hstate
  obtain ⟨hcode, -, -, hdata, -⟩ := h.kernel_prepare hstate hkernel
  have hmem {kind : SectionKind} (hkind : t.kind = kind) : id ∈ a.kernels[k].ids kind := by
    rw [← hlists.ids kind]
    exact mem_idsOf.mpr ⟨t, ht, hscope, hkind⟩
  constructor
  · intro hkind
    rw [Kernel.codeBytes, hcode, getD_given, List.mem_singleton.mp (hmem hkind)]
  · intro hkind
    rw [Kernel.dataBytes, hdata, Option.mem_toList.mp (hmem hkind)]
    rfl

section

variable {b : Bytes}

/-- A reader finds the table of the symbols outside kernels. -/
theorem Reachable.exports_global (h : Reachable a) (hb : a.prepare.1.output.generate = .ok b)
    (hlen : a.prepare.1.output.is64 = true → b.length < ElfFile.lengthLimit) :
    ∃ f found indexOf, ElfFile.exports b a.kernels.length .global = .ok (f, found) ∧
      f.wide = a.prepare.1.output.is64 ∧ a.ShowsSections .global indexOf f ∧
      List.Forall₂ (ElfFile.Symbol.Shows indexOf f.wide)
        (a.exported.filterMap (a.exportTo? .global)) found := by
  obtain ⟨f, found, hread, hwide, hfound, hcount, hsections, -⟩ := Model.exists_exports hb hlen
  rw [h.symbols_prepare, h.length_kernels_prepare, ← hwide] at hfound
  refine ⟨f, found.drop (3 * a.kernels.length + 1),
    Model.sectionIndex? a.prepare.1.output.sectionList.length, ?_, hwide, ⟨rfl, ?_⟩, hfound⟩
  · rw [ElfFile.exports, hread, ok_bind]
    rfl
  · intro id t ht hscope hholds
    refine h.consistent.shows_extra h.sections_prepare hcount
      (fun i hi => Model.sectionIndex?_extra hi hcount) hsections ht hscope ?_
    rw [TableSection.holdsExports, hscope] at hholds
    simpa using hholds

/-- A reader finds the table of the symbols of a kernel. -/
theorem Reachable.exports_kernel (h : Reachable a) (hb : a.prepare.1.output.generate = .ok b)
    (hlen : a.prepare.1.output.is64 = true → b.length < ElfFile.lengthLimit) {k : Nat}
    (hk : k < a.kernels.length) :
    ∃ f found indexOf, ElfFile.exports b a.kernels.length (.kernel k) = .ok (f, found) ∧
      f.wide = false ∧ a.ShowsSections (.kernel k) indexOf f ∧
      List.Forall₂ (ElfFile.Symbol.Shows indexOf f.wide)
        (a.exported.filterMap (a.exportTo? (.kernel k))) found := by
  obtain ⟨outer, symbols, hread, -, -, -, -, himages⟩ := Model.exists_exports hb hlen
  obtain ⟨kernel, hkernel⟩ : ∃ kernel, a.prepare.1.output.kernelList[k]? = some kernel :=
    ⟨_, List.getElem?_eq_getElem (Nat.lt_of_lt_of_eq hk h.length_kernels_prepare.symm)⟩
  obtain ⟨e, image, he, hmarked, himage⟩ := himages k kernel hkernel
  obtain ⟨f, found, hinner, hwide, hfound, hcount, hcode, hdata, hsections⟩ :=
    Kernel.exists_exports himage
  obtain ⟨-, -, -, -, -, hextras, hsymbols⟩ :=
    h.kernel_prepare (List.getElem?_eq_getElem hk) hkernel
  rw [hsymbols, ← hwide] at hfound
  refine ⟨f, found, Kernel.sectionIndex? kernel.sectionList.length, ?_, hwide, ⟨rfl, ?_⟩, hfound⟩
  · rw [ElfFile.exports, hread, ok_bind]
    dsimp only
    rw [he]
    dsimp only
    rw [hmarked, ok_bind, hinner]
  · intro id t ht hscope hholds
    by_cases hextra : t.kind = .extra
    · exact h.consistent.shows_extra hextras hcount
        (fun i hi => Kernel.sectionIndex?_extra hi hcount) hsections ht hscope hextra
    · -- the code and the data have tags of their own
      obtain ⟨hcodeBytes, hdataBytes⟩ := h.codeBytes_prepare hkernel ht hscope
      have htag := h.consistent.tags t (List.mem_of_getElem? ht) hextra
      rw [hscope] at htag
      rw [TableSection.holdsExports, hscope] at hholds
      have hkind : t.kind = .code ∨ t.kind = .data := by
        simpa [hextra] using hholds
      rcases hkind with hkind | hkind
      · rw [hkind] at htag
        rw [htag, ← hcodeBytes hkind]
        exact ⟨(by decide : SectionTag.text ≠ .unmapped), 2, rfl, by decide, hcode⟩
      · rw [hkind] at htag
        rw [htag, ← hdataBytes hkind]
        exact ⟨(by decide : SectionTag.data ≠ .unmapped), 3, rfl, by decide, hdata⟩

end

/-! ## Symbols -/

/-- Sections whose symbols are not exported have no tag. -/
theorem Consistent.tag_unmapped (h : a.Consistent) {id : Nat} {t : TableSection}
    (ht : a.sections[id]? = some t) (hholds : t.holdsExports = false) : t.tag = .unmapped := by
  have hextra : t.kind ≠ .extra := by
    intro hkind
    rw [TableSection.holdsExports, hkind] at hholds
    cases hholds
  rw [h.tags t (List.mem_of_getElem? ht) hextra]
  cases hscope : t.scope with
  | global => rfl
  | kernel k =>
    rw [TableSection.holdsExports, hscope] at hholds
    cases hkind : t.kind with
    | code => simp [hkind] at hholds
    | data => simp [hkind] at hholds
    | extra => exact absurd hkind hextra
    | _ => rfl

/-- A symbol goes under its tag to the scope that it belongs to, and to no other. -/
theorem Consistent.exportTo?_eq (h : a.Consistent) {scope : Scope}
    {indexOf : SectionTag → Option Nat} {f : ElfFile} (hshows : a.ShowsSections scope indexOf f)
    (s : Symbol) : a.exportTo? scope s
      = if a.exportScope? s = some scope then some (s.exported (a.tagOf s)) else none := by
  unfold exportTo? symbolHome? exportScope? tagOf
  cases s.home with
  | none => simp
  | some id =>
    rcases Option.eq_none_or_eq_some a.sections[id]? with hnone | ⟨t, ht⟩
    · simp [hnone]
    · by_cases hholds : t.holdsExports = true
      · by_cases hscope : t.scope = scope
        · obtain ⟨htag, -⟩ := hshows.sections id t ht hscope hholds
          simp [ht, hholds, hscope, htag]
        · -- whatever the tag is, the symbol goes elsewhere
          by_cases htag : t.tag = .unmapped <;> simp [ht, hholds, hscope, htag]
      · have htag := h.tag_unmapped ht (Bool.eq_false_iff.mpr hholds)
        simp [ht, hholds, htag]

/-- The symbols that a scope exports, in the order of their names. -/
def exportsOf (a : Assembler) (scope : Scope) : List Symbol :=
  a.exported.filter fun s => a.exportScope? s = some scope

/-- What goes into the model under a scope is what the scope exports, each under its tag. -/
theorem Consistent.filterMap_exportTo? (h : a.Consistent) {scope : Scope}
    {indexOf : SectionTag → Option Nat} {f : ElfFile} (hshows : a.ShowsSections scope indexOf f) :
    a.exported.filterMap (a.exportTo? scope)
      = (a.exportsOf scope).map fun s => s.exported (a.tagOf s) := by
  rw [exportsOf, ← List.filterMap_eq_map, List.filterMap_filter]
  refine List.filterMap_congr fun s _ => ?_
  rw [h.exportTo?_eq hshows]
  by_cases hscope : a.exportScope? s = some scope <;> simp [hscope]

/-- A scope exports the symbols that are defined there and are not local. -/
theorem mem_exportsOf (hexport : a.options.exportSymbols = true) {scope : Scope} {s : Symbol} :
    s ∈ a.exportsOf scope ↔ s ∈ a.symbols ∧ s.defined = true ∧ s.bind ≠ Elf.bindLocal ∧
      a.exportScope? s = some scope := by
  rw [exportsOf, exported, if_pos hexport, List.mem_filter, List.mem_filter,
    (Symbol.perm_sorted a.symbols).mem_iff, isExported, Bool.and_eq_true, bne_iff_ne,
    decide_eq_true_iff, and_assoc, and_assoc]

/-- What a scope exports is a symbol of the assembly that belongs to the scope. -/
theorem of_mem_exportsOf {scope : Scope} {s : Symbol} (hs : s ∈ a.exportsOf scope) :
    s ∈ a.symbols ∧ a.exportScope? s = some scope := by
  obtain ⟨hexported, hscope⟩ := List.mem_filter.mp hs
  exact ⟨mem_symbols_of_mem_exported hexported, of_decide_eq_true hscope⟩

/-- What a scope exports is sorted strictly. -/
theorem pairwise_exportsOf (h : Symbol.Named a.symbols) (scope : Scope) :
    (a.exportsOf scope).Pairwise fun s t => Bytes.before s.name t.name = true := by
  unfold exportsOf exported
  split
  · exact (h.pairwise_sorted.sublist List.filter_sublist).sublist List.filter_sublist
  · exact List.Pairwise.nil

/-- An entry of a file stands for a symbol: it has its name and its value, as far as a word holds
it, and the number of the section that holds the bytes of the symbol's section. -/
structure StandsFor (a : Assembler) (f : ElfFile) (s : Symbol) (e : ElfFile.Symbol) : Prop where
  name : e.name = s.name
  value : e.value = s.value.toNat % Elf.wordRange f.wide
  absolute : s.home = none → e.home = 0xfff1
  relative : ∀ id, s.home = some id → f.HasBody e.home (a.content id)

/-- An entry that shows a symbol of the model stands for the symbol of the assembly. -/
theorem ShowsSections.standsFor {scope : Scope} {indexOf : SectionTag → Option Nat} {f : ElfFile}
    (h : a.ShowsSections scope indexOf f) {s : Symbol} {e : ElfFile.Symbol} (hname : IsName s.name)
    (hscope : a.exportScope? s = some scope)
    (he : e.Shows indexOf f.wide (s.exported (a.tagOf s))) : a.StandsFor f s e := by
  obtain ⟨index, hindex, hhome⟩ := he.home
  refine ⟨he.name.trans hname.takeWhile, he.value, ?_, ?_⟩
  · intro hnone
    have htag : (s.exported (a.tagOf s)).home = .absolute := by
      show a.tagOf s = _
      rw [tagOf, hnone]
    rw [htag, h.absolute] at hindex
    cases hindex
    exact hhome
  · intro id hid
    rw [exportScope?, hid] at hscope
    obtain ⟨t, ht, hscope⟩ := Option.bind_eq_some_iff.mp hscope
    split at hscope
    · rename_i hholds
      obtain ⟨-, place, hplace, hlt, hbody⟩ := h.sections id t ht (Option.some.inj hscope) hholds
      have htag : (s.exported (a.tagOf s)).home = t.tag := by
        show a.tagOf s = _
        rw [tagOf, hid]
        dsimp only
        rw [ht]
        rfl
      rw [htag, hplace] at hindex
      cases hindex
      rw [hhome, Nat.mod_eq_of_lt hlt]
      exact hbody
    · cases hscope

/-- The width of the words of the table of a scope. -/
def isWide (a : Assembler) : Scope → Bool
  | .global => a.prepare.1.output.is64
  | .kernel _ => false

/-- **A reader finds an entry for each symbol that a scope exports**, in the table of the scope. -/
theorem Reachable.exists_exports (h : Reachable a) {b : Bytes}
    (hb : a.prepare.1.output.generate = .ok b)
    (hlen : a.prepare.1.output.is64 = true → b.length < ElfFile.lengthLimit) {scope : Scope}
    (hscope : a.HasScope scope) : ∃ f found,
      ElfFile.exports b a.kernels.length scope = .ok (f, found) ∧ f.wide = a.isWide scope ∧
      List.Forall₂ (a.StandsFor f) (a.exportsOf scope) found := by
  have hall : ∃ f found indexOf, ElfFile.exports b a.kernels.length scope = .ok (f, found) ∧
      f.wide = a.isWide scope ∧ a.ShowsSections scope indexOf f ∧
      List.Forall₂ (ElfFile.Symbol.Shows indexOf f.wide)
        (a.exported.filterMap (a.exportTo? scope)) found := by
    cases scope with
    | global => exact h.exports_global hb hlen
    | kernel k => exact h.exports_kernel hb hlen hscope
  obtain ⟨f, found, indexOf, hread, hwide, hshows, hfound⟩ := hall
  refine ⟨f, found, hread, hwide, ?_⟩
  rw [h.consistent.filterMap_exportTo? hshows, List.forall₂_map_left_iff] at hfound
  refine forall₂_of_getElem? hfound.length_eq fun i s hs => ?_
  obtain ⟨e, he, hsymbol⟩ := exists_getElem?_of_forall₂ hfound hs
  obtain ⟨hmem, hscope⟩ := of_mem_exportsOf (List.mem_of_getElem? hs)
  have hname := h.named.isName s.name (List.mem_map_of_mem hmem)
  exact ⟨e, he, hshows.standsFor hname hscope hsymbol⟩

/-- The scope of an exported symbol is there. -/
theorem Consistent.hasScope (h : a.Consistent) {s : Symbol} {scope : Scope}
    (hs : a.exportScope? s = some scope) : a.HasScope scope := by
  unfold exportScope? at hs
  split at hs
  · cases hs
    trivial
  · obtain ⟨t, ht, hscope⟩ := Option.bind_eq_some_iff.mp hs
    split at hscope
    · cases hscope
      cases hkernel : t.scope with
      | global => trivial
      | kernel k => exact h.owners t (List.mem_of_getElem? ht) k hkernel
    · cases hscope

/-- An entry and a symbol of one name belong together, since names are different. -/
theorem standsFor_of_name (hnamed : Symbol.Named a.symbols) {scope : Scope} {f : ElfFile}
    {found : List ElfFile.Symbol} (h : List.Forall₂ (a.StandsFor f) (a.exportsOf scope) found)
    {s : Symbol} (hs : s ∈ a.symbols) {e : ElfFile.Symbol} (he : e ∈ found)
    (hname : e.name = s.name) : a.StandsFor f s e := by
  obtain ⟨i, hi⟩ := List.mem_iff_getElem?.mp he
  obtain ⟨t, ht, hstands⟩ := exists_getElem?_of_forall₂ h.flip hi
  obtain ⟨hmem, -⟩ := of_mem_exportsOf (List.mem_of_getElem? ht)
  obtain rfl : t = s := List.inj_on_of_nodup_map hnamed.nodup hmem hs
    (hstands.name.symm.trans hname)
  exact hstands

/-- The entry of a label holds all of its place, since the sizes of sections fit a word. -/
theorem StandsFor.value_eq {f : ElfFile} {s : Symbol} {e : ElfFile.Symbol}
    (h : a.StandsFor f s e) {id n : Nat} (hhome : s.home = some id)
    (hvalue : s.value = UInt64.ofNat n) (hn : n ≤ (a.content id).length) : e.value = n := by
  have hfit := (h.relative id hhome).2
  rw [h.value, hvalue]
  exact Model.toNat_ofNat_mod_wordRange (by omega)

/-- **A global label lands where it was written.** When a source has been assembled without an error
and a binary has been generated, a reader finds a table of exported symbols for the binary and for
each kernel. It has in the order of their names exactly the symbols that are defined, are not local
and belong there: absolute symbols and those of extra sections outside kernels in the table of the
binary, and those of a kernel's code, data and extra sections in the table of the kernel. An
absolute symbol has its value and no section; any other entry has the number of the section that
holds the final bytes of the symbol's section. A label has for its value the number of bytes of
that section when it was written. -/
theorem exported_symbols_land {options : Options} {f : SourceFile} {cancelled : Option Nat}
    {b : Bytes} (hf : f.WellFormed) (hexport : options.exportSymbols = true)
    (hdone : (Assembly.ofFile options f cancelled).succeeded = true)
    (hb : (Assembly.ofFile options f cancelled).state.prepare.1.output.generate = .ok b)
    (hlen : (Assembly.ofFile options f cancelled).state.prepare.1.output.is64 = true →
      b.length < ElfFile.lengthLimit) :
    let a := (Assembly.ofFile options f cancelled).state
    (a.symbols.map (·.name)).Nodup ∧
    (∀ s scope, a.exportScope? s = some scope → a.HasScope scope) ∧
    (∀ scope, a.HasScope scope → ∃ g found,
      ElfFile.exports b a.kernels.length scope = .ok (g, found) ∧ g.wide = a.isWide scope ∧
      (found.map (·.name)).Pairwise (fun x y => Bytes.before x y = true) ∧
      (∀ name, name ∈ found.map (·.name) ↔ ∃ s ∈ a.symbols, s.name = name ∧
        s.defined = true ∧ s.bind ≠ Elf.bindLocal ∧ a.exportScope? s = some scope) ∧
      (∀ s ∈ a.symbols, ∀ e ∈ found, e.name = s.name →
        e.value = s.value.toNat % Elf.wordRange g.wide ∧
        (s.home = none → e.home = 0xfff1) ∧
        ∀ id, s.home = some id → g.HasBody e.home (a.content id)) ∧
      ∀ pre post name isName span,
        Clause.ofFile f cancelled = pre ++ .label name isName span :: post →
        ∀ e ∈ found, e.name = name →
          e.value = ((ofOptions options).afterAll pre).position ∧
          g.HasBody e.home (a.content ((ofOptions options).afterAll pre).current)) ∧
    (∀ pre post name isName span,
      Clause.ofFile f cancelled = pre ++ .label name isName span :: post →
      let p := (ofOptions options).afterAll pre
      p.position ≤ (a.content p.current).length ∧ ∃ s ∈ a.symbols, s.name = name ∧
        s.defined = true ∧ s.home = some p.current ∧ s.value = UInt64.ofNat p.position) ∧
    ∀ pre post name isName span c,
      Clause.ofFile f cancelled = pre ++ .assignment name isName span c :: post →
      ∃ v w d, Statement.expression ((ofOptions options).afterAll pre).lookup c
          = .ok ((v, w), d) ∧ ∃ s ∈ a.symbols, s.name = name ∧ s.IsDefinedAs v := by
  intro a
  have hreachable : Reachable a := reachable_ofFile options f cancelled
  have hnamed := hreachable.named
  have hexport : a.options.exportSymbols = true := by
    have hextends := (consistent_ofOptions options).extends_afterAll (Clause.ofFile f cancelled)
    rw [← (Assembly.ofFile_eq options f cancelled).1] at hextends
    exact hextends.exportSymbols.trans hexport
  refine ⟨hnamed.nodup, fun s scope => hreachable.consistent.hasScope, ?_, ?_, ?_⟩
  · intro scope hscope
    obtain ⟨g, found, hread, hwide, hstands⟩ := hreachable.exists_exports hb hlen hscope
    have hnames : found.map (·.name) = (a.exportsOf scope).map (·.name) :=
      map_eq_map_of_forall₂ (hstands.flip.imp fun e s h => h.name)
    refine ⟨g, found, hread, hwide, ?_, ?_, ?_, ?_⟩
    · rw [hnames, List.pairwise_map]
      exact pairwise_exportsOf hnamed scope
    · intro name
      rw [hnames, List.mem_map]
      simp only [mem_exportsOf hexport]
      constructor
      · rintro ⟨s, ⟨hs, hrest⟩, hname⟩
        exact ⟨s, hs, hname, hrest⟩
      · rintro ⟨s, hs, hname, hrest⟩
        exact ⟨s, ⟨hs, hrest⟩, hname⟩
    · intro s hs e he hname
      have h := standsFor_of_name hnamed hstands hs he hname
      exact ⟨h.value, h.absolute, h.relative⟩
    · intro pre post name isName span hsplit e he hname
      obtain ⟨hbytes, s, hs, -, hhome, hvalue⟩ := Assembly.find?_of_label hf hdone hsplit
      obtain ⟨hmem, hsname⟩ := Symbol.of_find?_eq_some hs
      have h := standsFor_of_name hnamed hstands hmem he (hname.trans hsname.symm)
      exact ⟨h.value_eq hhome hvalue hbytes.length_le, h.relative _ hhome⟩
  · intro pre post name isName span hsplit
    obtain ⟨hbytes, s, hs, hdefined, hhome, hvalue⟩ := Assembly.find?_of_label hf hdone hsplit
    obtain ⟨hmem, hname⟩ := Symbol.of_find?_eq_some hs
    exact ⟨hbytes.length_le, s, hmem, hname, hdefined, hhome, hvalue⟩
  · intro pre post name isName span c hsplit
    obtain ⟨v, w, d, s, hread, hs, hv⟩ := Assembly.find?_of_assignment hdone hsplit
    obtain ⟨hmem, hname⟩ := Symbol.of_find?_eq_some hs
    exact ⟨v, w, d, hread, s, hmem, hname, hv⟩

/-- A kernel of two bytes with an exported label between them. -/
def labelSource : SourceFile where
  id := 0
  path := []
  content := .ofString ".kernel k\n.byte 1\nx: .byte 2\n.global x"

theorem wellFormed_labelSource : labelSource.WellFormed := ⟨rfl, by decide +kernel⟩

/-- The label is found in the binary, between the two bytes of its kernel. -/
theorem label_lands_between_bytes :
    ∃ b g found, (Assembly.ofFile { exportSymbols := true } labelSource
        none).state.prepare.1.output.generate = .ok b ∧
      ElfFile.exports b 1 (.kernel 0) = .ok (g, found) ∧ [0x78] ∈ found.map (·.name) ∧
      ∀ e ∈ found, e.name = [0x78] → e.value = 1 ∧ g.HasBody e.home [1, 2] := by
  obtain ⟨b, hb⟩ := exists_of_isOk (x := (Assembly.ofFile { exportSymbols := true } labelSource
    none).state.prepare.1.output.generate) (by decide +kernel)
  have hkernels : (Assembly.ofFile { exportSymbols := true } labelSource
      none).state.kernels.length = 1 := by decide +kernel
  have hlabel : ∃ s ∈ (Assembly.ofFile { exportSymbols := true } labelSource none).state.symbols,
      (s.name = [0x78] ∧ s.defined = true ∧ s.bind ≠ Elf.bindLocal ∧
        (Assembly.ofFile { exportSymbols := true } labelSource none).state.exportScope? s
          = some (.kernel 0)) ∧ s.home = some 1 ∧ s.value = 1 := by decide +kernel
  have hcontent : (Assembly.ofFile { exportSymbols := true } labelSource none).state.content 1
      = [1, 2] := by decide +kernel
  obtain ⟨-, -, htables, -⟩ := exported_symbols_land wellFormed_labelSource rfl (by decide +kernel)
    hb (fun hwide => absurd hwide (by decide +kernel))
  obtain ⟨g, found, hread, hwide, -, hnames, hentries, -⟩ := htables (.kernel 0)
    (Nat.lt_of_lt_of_eq Nat.one_pos hkernels.symm)
  obtain ⟨s, hs, hexported, hhome, hvalue⟩ := hlabel
  rw [hkernels] at hread
  refine ⟨b, g, found, hb, hread, (hnames _).mpr ⟨s, hs, hexported⟩, ?_⟩
  intro e he hname
  obtain ⟨hevalue, -, hbody⟩ := hentries s hs e he (hname.trans hexported.1.symm)
  constructor
  · rw [hevalue, hvalue, hwide]
    rfl
  · rw [← hcontent]
    exact hbody 1 hhome

end Assembler

end CatalystAsm
