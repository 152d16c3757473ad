import CatalystAsm.Assembly.Prepare
import Mathlib.Data.List.Nodup

/-!
# The section table and what is remembered of it

The same facts are kept in several places: the section table, the numbers that each kernel remembers
of its sections, the names of the extra sections of each scope, and the places to come back to.
`Assembler.Consistent` says that they agree. What a kernel remembers is read as one list of numbers
for each kind of section (`KernelState.ids`), so that agreement is one equation for all kinds.
-/

namespace CatalystAsm

/-! ## Entries of the table -/

/-- The entries of a section table with a scope and a kind, each with its number. -/
def entriesOf (sections : List TableSection) (scope : Scope) (kind : SectionKind) :
    List (TableSection × Nat) :=
  sections.zipIdx.filter fun e => e.1.scope = scope ∧ e.1.kind = kind

/-- The numbers of the sections with a scope and a kind. -/
def idsOf (sections : List TableSection) (scope : Scope) (kind : SectionKind) : List Nat :=
  (entriesOf sections scope kind).map (·.2)

/-- Section `id` is in the table and belongs to a scope. -/
def Owns (sections : List TableSection) (scope : Scope) (id : Nat) : Prop :=
  ∃ s, sections[id]? = some s ∧ s.scope = scope

section

variable {sections : List TableSection} {scope : Scope} {kind : SectionKind} {s : TableSection}

/-- An entry stands in the table under its number, with the scope and the kind. -/
theorem mem_entriesOf {e : TableSection × Nat} : e ∈ entriesOf sections scope kind ↔
    sections[e.2]? = some e.1 ∧ e.1.scope = scope ∧ e.1.kind = kind := by
  rw [entriesOf, List.mem_filter, List.mem_zipIdx_iff_getElem?, decide_eq_true_iff]

/-- A number is that of a section of the table with the scope and the kind. -/
theorem mem_idsOf {id : Nat} : id ∈ idsOf sections scope kind ↔
    ∃ s, sections[id]? = some s ∧ s.scope = scope ∧ s.kind = kind := by
  rw [idsOf, List.mem_map]
  constructor
  · rintro ⟨e, he, rfl⟩
    exact ⟨e.1, mem_entriesOf.mp he⟩
  · rintro ⟨s, hs⟩
    exact ⟨(s, id), mem_entriesOf.mpr hs, rfl⟩

/-- A new section comes last among those of its scope and kind, and is none of the others. -/
theorem entriesOf_append : entriesOf (sections ++ [s]) scope kind = entriesOf sections scope kind ++
    if s.scope = scope ∧ s.kind = kind then [(s, sections.length)] else [] := by
  rw [entriesOf, List.zipIdx_append, List.filter_append, Nat.zero_add]
  congr 1
  by_cases h : s.scope = scope ∧ s.kind = kind
  · rw [if_pos h]
    exact List.filter_cons_of_pos (decide_eq_true h)
  · rw [if_neg h]
    exact List.filter_cons_of_neg (by rw [decide_eq_true_iff]; exact h)

/-- The number of a new section comes last among those of its scope and kind. -/
theorem idsOf_append : idsOf (sections ++ [s]) scope kind = idsOf sections scope kind ++
    if s.scope = scope ∧ s.kind = kind then [sections.length] else [] := by
  rw [idsOf, entriesOf_append, List.map_append]
  congr 1
  split <;> rfl

/-- The numbers come in the order of the table. -/
theorem pairwise_idsOf (sections : List TableSection) (scope : Scope) (kind : SectionKind) :
    (idsOf sections scope kind).Pairwise (· < ·) := by
  have hall : (sections.zipIdx.map (·.2)).Pairwise (· < ·) := by
    rw [List.zipIdx_map_snd, ← List.range_eq_range']
    exact List.pairwise_lt_range
  exact hall.sublist (List.filter_sublist.map _)

/-- A section that a scope owns is still its own when the table grows. -/
theorem Owns.append {id : Nat} (h : Owns sections scope id) : Owns (sections ++ [s]) scope id := by
  obtain ⟨t, ht, hscope⟩ := h
  exact ⟨t, by rw [List.getElem?_append_left (List.getElem?_eq_some_iff.mp ht).1, ht], hscope⟩

/-- A section that a scope owns is in the table. -/
theorem Owns.lt {id : Nat} (h : Owns sections scope id) : id < sections.length := by
  obtain ⟨t, ht, -⟩ := h
  exact (List.getElem?_eq_some_iff.mp ht).1

theorem owns_length (s : TableSection) : Owns (sections ++ [s]) s.scope sections.length :=
  ⟨s, List.getElem?_concat_length, rfl⟩

end

/-! ## What is remembered -/

/-- The tag of a section that is not an extra one. -/
def plainTag : Scope → SectionKind → SectionTag
  | .kernel _, .code => .text
  | .kernel _, .data => .data
  | _, _ => .unmapped

/-- A list of names and numbers lists the extra sections of a scope: in the order of the table,
which is the order of their tags, and with different names. -/
structure ListsExtras (sections : List TableSection) (scope : Scope) (extras : List (Bytes × Nat)) :
    Prop where
  entries : (entriesOf sections scope .extra).map (fun e => (e.1.name, e.2)) = extras
  tags : (entriesOf sections scope .extra).map (·.1.tag)
    = (List.range extras.length).map fun i => ⟨UInt32.ofNat i⟩
  nodup : (extras.map (·.1)).Nodup

/-- The name of a section that is not an extra one. -/
def plainName : Scope → SectionKind → Bytes
  | .kernel _, .code => Assembler.codeName
  | .kernel _, .data => Assembler.dataName
  | _, _ => []

/-- A section whose kind has no tag of its own has no name. -/
theorem plainName_eq_nil {scope : Scope} {kind : SectionKind}
    (h : plainTag scope kind = .unmapped) : plainName scope kind = [] := by
  cases scope with
  | global => rfl
  | kernel k =>
    cases kind with
    | code => exact absurd h (show SectionTag.text ≠ .unmapped by decide)
    | data => exact absurd h (show SectionTag.data ≠ .unmapped by decide)
    | _ => rfl

/-- A section is named for its kind; an extra section has any other name. -/
structure TableSection.WellNamed (s : TableSection) : Prop where
  plain : s.kind ≠ .extra → s.name = plainName s.scope s.kind
  extra : s.kind = .extra → Assembler.textOrData? s.name = none

/-- A section may come next: it has the tag of its kind, or as an extra section the tag after those
there are and a new name. -/
structure TableSection.Fits (s : TableSection) (extras : List (Bytes × Nat)) : Prop where
  plain : s.kind ≠ .extra → s.tag = plainTag s.scope s.kind
  tag : s.kind = .extra → s.tag = ⟨UInt32.ofNat extras.length⟩
  name : s.kind = .extra → s.name ∉ extras.map (·.1)
  wellNamed : s.WellNamed

namespace ListsExtras

variable {sections : List TableSection} {scope : Scope} {extras : List (Bytes × Nat)}
  {s : TableSection}

/-- The numbers of the extra sections are those that are listed. -/
theorem ids (h : ListsExtras sections scope extras) :
    idsOf sections scope .extra = extras.map (·.2) := by
  rw [← h.entries, List.map_map]
  rfl

/-- The extra section of a rank has the tag of that rank. -/
theorem tag_of_getElem? (h : ListsExtras sections scope extras) {b : Nat}
    {e : TableSection × Nat} (he : (entriesOf sections scope .extra)[b]? = some e) :
    e.1.tag = ⟨UInt32.ofNat b⟩ := by
  have hb : b < extras.length := by
    rw [← h.entries, List.length_map]
    exact (List.getElem?_eq_some_iff.mp he).1
  have htag : ((entriesOf sections scope .extra).map (·.1.tag))[b]? = some e.1.tag := by
    rw [List.getElem?_map, he]
    rfl
  rw [h.tags, List.getElem?_map, List.getElem?_range hb] at htag
  exact (Option.some.inj htag).symm

/-- A section elsewhere or of another kind is not listed. -/
theorem append_other (h : ListsExtras sections scope extras)
    (hs : ¬(s.scope = scope ∧ s.kind = .extra)) : ListsExtras (sections ++ [s]) scope extras := by
  have hsame : entriesOf (sections ++ [s]) scope .extra = entriesOf sections scope .extra := by
    rw [entriesOf_append, if_neg hs, List.append_nil]
  exact ⟨by rw [hsame]; exact h.entries, by rw [hsame]; exact h.tags, h.nodup⟩

/-- A new extra section is listed last. -/
theorem append_extra (h : ListsExtras sections scope extras) (hscope : s.scope = scope)
    (hkind : s.kind = .extra) (hfits : s.Fits extras) :
    ListsExtras (sections ++ [s]) scope (extras ++ [(s.name, sections.length)]) := by
  have hnew : entriesOf (sections ++ [s]) scope .extra
      = entriesOf sections scope .extra ++ [(s, sections.length)] := by
    rw [entriesOf_append, if_pos ⟨hscope, hkind⟩]
  refine ⟨?_, ?_, ?_⟩
  · rw [hnew, List.map_append, h.entries]
    rfl
  · rw [hnew, List.map_append, h.tags, List.length_append, List.length_singleton,
      List.range_succ, List.map_append, List.map_singleton, List.map_singleton, hfits.tag hkind]
  · rw [List.map_append, List.map_singleton, List.nodup_append]
    refine ⟨h.nodup, List.nodup_singleton _, ?_⟩
    intro n hn m hm heq
    rw [heq, List.mem_singleton.mp hm] at hn
    exact hfits.name hkind hn

end ListsExtras

namespace KernelState

/-- The numbers of the sections of a kind. -/
def ids (k : KernelState) : SectionKind → List Nat
  | .code => [k.code]
  | .data => k.data.toList
  | .config => k.config.toList
  | .header => k.header.toList
  | .metadata => k.metadata.toList
  | .note => k.notes
  | .extra => k.extras.map (·.2)

/-- What is known of kernel number `i` is what the table holds. -/
structure Lists (k : KernelState) (sections : List TableSection) (i : Nat) : Prop where
  ids : ∀ kind, idsOf sections (.kernel i) kind = k.ids kind
  extras : ListsExtras sections (.kernel i) k.extras
  extraCount : k.extraCount = UInt32.ofNat k.extras.length
  saved : Owns sections (.kernel i) k.saved

/-- The kernel state `l` is `k` with one more section. -/
structure Remembers (k l : KernelState) (s : TableSection) (id : Nat) : Prop where
  ids : ∀ kind, l.ids kind = k.ids kind ++ if s.kind = kind then [id] else []
  extras : l.extras = k.extras ++ if s.kind = .extra then [(s.name, id)] else []
  extraCount : l.extraCount = if s.kind = .extra then k.extraCount + 1 else k.extraCount
  saved : l.saved = k.saved

/-- A kernel may get a section of a kind. Its configuration excludes parts that are given, and is
itself not made like other sections. -/
def Admits (k : KernelState) (kind : SectionKind) : Prop :=
  kind ≠ .config ∧ (k.config.isSome = true → kind ≠ .metadata ∧ kind ≠ .header ∧ kind ≠ .note)

/-- A kernel may always get code, data and extra sections. -/
theorem admits_of_plain {k : KernelState} {kind : SectionKind}
    (h : kind = .code ∨ kind = .data ∨ kind = .extra) : k.Admits kind := by
  rcases h with rfl | rfl | rfl <;> simp [Admits]

/-- A kernel without a configuration may get every other section. -/
theorem admits_of_config {k : KernelState} (h : k.config = none) {kind : SectionKind}
    (hkind : kind ≠ .config) : k.Admits kind := by
  refine ⟨hkind, fun hsome => ?_⟩
  rw [h] at hsome
  cases hsome

namespace Lists

variable {k l : KernelState} {sections : List TableSection} {i : Nat} {s : TableSection}

/-- A section of another scope changes nothing. -/
theorem append_other (h : k.Lists sections i) (hs : s.scope ≠ .kernel i) :
    k.Lists (sections ++ [s]) i where
  ids kind := by
    rw [idsOf_append, if_neg (fun hand => hs hand.1), List.append_nil]
    exact h.ids kind
  extras := h.extras.append_other fun hand => hs hand.1
  extraCount := h.extraCount
  saved := h.saved.append

/-- A new section of the kernel is remembered. -/
theorem append_own (h : k.Lists sections i) (hscope : s.scope = .kernel i)
    (hfits : s.Fits k.extras) (hl : k.Remembers l s sections.length) :
    l.Lists (sections ++ [s]) i where
  ids kind := by
    rw [idsOf_append, h.ids kind, hl.ids kind]
    by_cases hkind : s.kind = kind
    · rw [if_pos ⟨hscope, hkind⟩, if_pos hkind]
    · rw [if_neg (fun hand => hkind hand.2), if_neg hkind]
  extras := by
    rw [hl.extras]
    by_cases hkind : s.kind = .extra
    · rw [if_pos hkind]
      exact h.extras.append_extra hscope hkind hfits
    · rw [if_neg hkind, List.append_nil]
      exact h.extras.append_other fun hand => hkind hand.2
  extraCount := by
    rw [hl.extras, hl.extraCount, h.extraCount]
    split
    · rw [List.length_append, List.length_singleton, UInt32.ofNat_add]
      rfl
    · rw [List.append_nil]
  saved := by
    rw [hl.saved]
    exact h.saved.append

/-- Another place to come back to. -/
theorem with_saved (h : k.Lists sections i) {id : Nat} (hid : Owns sections (.kernel i) id) :
    ({ k with saved := id } : KernelState).Lists sections i :=
  ⟨fun kind => by rw [h.ids kind]; cases kind <;> rfl, h.extras, h.extraCount, hid⟩

end Lists

end KernelState

namespace Assembler

/-- The bookkeeping of sections and kernels agrees with itself. -/
structure Consistent (a : Assembler) : Prop where
  current : Owns a.sections a.scope a.current
  saved : Owns a.sections .global a.saved
  kernels : ∀ (i : Nat) (k : KernelState), a.kernels[i]? = some k → k.Lists a.sections i
  extras : ListsExtras a.sections .global a.extras
  extraCount : a.extraCount = UInt32.ofNat a.extras.length
  /-- outside kernels there is one section that is not an extra one -/
  globals : ∀ kind, kind ≠ .extra →
    idsOf a.sections .global kind = if kind = .data then [globalData] else []
  owners : ∀ s ∈ a.sections, ∀ i, s.scope = .kernel i → i < a.kernels.length
  tags : ∀ s ∈ a.sections, s.kind ≠ .extra → s.tag = plainTag s.scope s.kind
  names : ∀ e ∈ a.kernelNames, e.2 < a.kernels.length
  /-- the section that a symbol is relative to is in the table -/
  homes : ∀ s ∈ a.symbols, ∀ id, s.home = some id → id < a.sections.length
  contents : a.contents.length ≤ a.sections.length
  configs : ∀ id s, a.sections[id]? = some s → s.kind = .config → a.content id = []
  output : a.output.kernelList.length = a.kernels.length

/-- **At the start** the bookkeeping agrees with itself. -/
theorem consistent_ofOptions (options : Options) : (ofOptions options).Consistent where
  current := ⟨_, rfl, rfl⟩
  saved := ⟨_, rfl, rfl⟩
  kernels i k hk := by cases hk
  extras := ⟨rfl, rfl, List.nodup_nil⟩
  extraCount := rfl
  globals kind hkind := by
    cases kind with
    | extra => exact absurd rfl hkind
    | _ => rfl
  owners s hs i hi := by
    rw [List.mem_singleton.mp hs] at hi
    cases hi
  tags s hs _ := by
    rw [List.mem_singleton.mp hs]
    rfl
  names e he := absurd he List.not_mem_nil
  homes s hs := absurd hs List.not_mem_nil
  contents := Nat.zero_le _
  configs id s hs hkind := rfl
  output := rfl

end Assembler

end CatalystAsm
