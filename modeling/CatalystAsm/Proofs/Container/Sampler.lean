import CatalystAsm.Container.Metadata
import CatalystAsm.Proofs.Statement.Numeral
import CatalystAsm.Source.File

/-!
# The lines of samplers

The metadata of a configured kernel has a line for each sampler, which ends with the number of the
sampler and two more fields. Names are written into the metadata as they are, and a newline in one
starts a line of its own. When no name brings along the start of a sampler's line, the lines of the
text that start so are those of the samplers (`Kernel.filter_lines_configMetadata`), and the numbers
on them count up from zero (`Kernel.samplerNumbers_configMetadata`).
-/

namespace CatalystAsm

/-! ## Lines of a text -/

/-- The lines of a text; one that ends with a newline has an empty last line. -/
def Bytes.lines (text : Bytes) : List Bytes := text.splitOn newline

/-- The lines of a text that is written line by line; a piece may itself have several lines. -/
theorem Bytes.lines_flatMap (pieces : List Bytes) :
    lines (pieces.flatMap (· ++ [newline])) = pieces.flatMap lines ++ [[]] := by
  induction pieces with
  | nil => rfl
  | cons piece pieces ih =>
    rw [List.flatMap_cons, List.flatMap_cons, List.append_assoc, List.append_assoc, ← ih]
    exact List.splitOn_append_cons_self piece _

/-- A line stands at the start of the text or after a newline. -/
theorem Bytes.prefix_or_infix_of_mem_lines {text line : Bytes} (h : line ∈ lines text) :
    line <+: text ∨ newline :: line <:+: text := by
  have hjoined (ls : List Bytes) (hmem : line ∈ ls) :
      line <+: [newline].intercalate ls ∨ newline :: line <:+: [newline].intercalate ls := by
    induction ls with
    | nil => exact absurd hmem List.not_mem_nil
    | cons first ls ih =>
      rcases List.mem_cons.mp hmem with rfl | hmem
      · cases ls with
        | nil => exact .inl (by simp)
        | cons second ls => exact .inl (by simp [List.intercalate_cons_cons])
      · cases ls with
        | nil => exact absurd hmem List.not_mem_nil
        | cons second ls =>
          rw [List.intercalate_cons_cons]
          right
          rcases ih hmem with ⟨rest, hrest⟩ | hinner
          · exact ⟨first, rest, by simp [← hrest]⟩
          · exact hinner.trans (List.suffix_append _ _).isInfix
  have hline := hjoined (lines text) h
  rwa [lines, List.intercalate_splitOn] at hline

/-! ## Labels -/

/-- How the line of a sampler starts. -/
def samplerLabel : Bytes := .ofString ";sampler:"

/-- The line of a sampler and its number. -/
def KernelArg.samplerLine (a : KernelArg) (number : Nat) : Bytes :=
  samplerLabel ++ a.name ++ .ofString ":" ++ .ofNat number ++ .ofString ":1:0"

/-- The line of a sampler starts with the label of samplers. -/
theorem KernelArg.isPrefixOf_samplerLine (a : KernelArg) (number : Nat) :
    samplerLabel.isPrefixOf (a.samplerLine number) = true := by
  rw [List.isPrefixOf_iff_prefix, samplerLine, List.append_assoc, List.append_assoc,
    List.append_assoc]
  exact List.prefix_append _ _

/-- A line whose label has another byte at some place is not the line of a sampler. -/
theorem isPrefixOf_append_eq_false {a b : Bytes}
    (h : (a.zip b).any (fun e => e.1 != e.2) = true) (rest : Bytes) :
    a.isPrefixOf (b ++ rest) = false := by
  induction a generalizing b with
  | nil => simp at h
  | cons x a ih =>
    cases b with
    | nil => simp at h
    | cons y b =>
      rw [List.zip_cons_cons, List.any_cons, Bool.or_eq_true] at h
      rw [List.cons_append, List.isPrefixOf_cons_cons]
      rcases h with h | h
      · simp [bne_iff_ne.mp h]
      · simp [ih h]

/-- Whether a label has another byte than that of samplers at some place. -/
def otherLabel (label : String) : Bool :=
  (samplerLabel.zip (Bytes.ofString label)).any fun e => e.1 != e.2

/-- No line with another label is one of a sampler. -/
theorem isPrefixOf_otherLabel (label : String) (h : otherLabel label = true) (rest : Bytes) :
    samplerLabel.isPrefixOf (Bytes.ofString label ++ rest) = false :=
  isPrefixOf_append_eq_false h rest

/-- Of the lines of an argument, only that of a sampler starts as one. -/
theorem KernelArg.filter_metadataLines (a : KernelArg) (i sampler : Nat) :
    (a.metadataLines i sampler).filter samplerLabel.isPrefixOf
      = if a.isSampler then [a.samplerLine sampler] else [] := by
  have hlines : a.metadataLines i sampler
      = [.ofString ";reflection:" ++
          (a.typeName ++ (.ofString " " ++ (a.name ++ .ofString ";")))] ++
        (if a.access.isConst then
          [.ofString ";constarg:" ++ (.ofNat i ++ (.ofString ":" ++ a.name))] else []) ++
        if a.isSampler then [a.samplerLine sampler] else [] := by
    simp only [metadataLines, samplerLine, samplerLabel, List.append_assoc]
  rw [hlines]
  cases a.access.isConst <;> cases a.isSampler <;>
    simp only [List.filter_append, List.filter_cons, List.filter_nil,
      isPrefixOf_otherLabel ";reflection:" (by decide +kernel),
      isPrefixOf_otherLabel ";constarg:" (by decide +kernel),
      isPrefixOf_samplerLine, Bool.false_eq_true, if_false, if_true, List.nil_append]

/-- The samplers among arguments are numbered in their order. -/
theorem KernelArg.filter_listLines (args : List KernelArg) (i sampler : Nat) :
    (listLines i sampler args).filter samplerLabel.isPrefixOf
      = ((args.filter isSampler).zipIdx sampler).map fun e => e.1.samplerLine e.2 := by
  induction args generalizing i sampler with
  | nil => rfl
  | cons a args ih =>
    rw [listLines, List.filter_append, filter_metadataLines, ih, List.filter_cons]
    cases a.isSampler
    · rfl
    · rfl

/-- The lines of samplers in the metadata of a kernel are those of its arguments. -/
theorem Kernel.filter_metadataLines (k : Kernel) (device : Device) (is64 : Bool)
    (uniqueId : UInt32) :
    (k.metadataLines device is64 uniqueId).filter samplerLabel.isPrefixOf
      = ((k.config.argList.filter KernelArg.isSampler).zipIdx).map
          fun e => e.1.samplerLine e.2 := by
  have hversion : samplerLabel.isPrefixOf (.ofString ";version:3:1:111" : Bytes) = false := by
    decide +kernel
  have hwide : (if is64 then [(.ofString ";memory:64bitABI" : Bytes)] else []).filter
      samplerLabel.isPrefixOf = [] := by
    cases is64 <;> decide +kernel
  have hdata : (if k.config.useConstData then [(.ofString ";memory:datareqd" : Bytes)]
      else []).filter samplerLabel.isPrefixOf = [] := by
    cases k.config.useConstData <;> decide +kernel
  have hprintf (id : Bytes) : (if k.config.usePrintf then [.ofString ";printfid:" ++ id]
      else []).filter samplerLabel.isPrefixOf = [] := by
    cases k.config.usePrintf
    · rfl
    · simp only [if_true, List.filter_cons, isPrefixOf_otherLabel ";printfid:" (by decide +kernel)]
      rfl
  have hbuffers (id : Bytes) : (if k.config.constBufferId = notSupplied then []
      else [.ofString ";cbuffers:" ++ id]).filter samplerLabel.isPrefixOf = [] := by
    by_cases hno : k.config.constBufferId = notSupplied
    · rw [if_pos hno]
      rfl
    · simp only [if_neg hno, List.filter_cons,
        isPrefixOf_otherLabel ";cbuffers:" (by decide +kernel)]
      rfl
  unfold metadataLines
  dsimp only
  simp only [List.filter_append, KernelArg.filter_listLines, hwide, hdata, hprintf, hbuffers]
  simp only [List.filter_cons, List.filter_nil, hversion,
    isPrefixOf_otherLabel ";ARGSTART:" (by decide +kernel),
    isPrefixOf_otherLabel ";device:" (by decide +kernel),
    isPrefixOf_otherLabel ";uniqueid:" (by decide +kernel),
    isPrefixOf_otherLabel ";memory:uavprivate:" (by decide +kernel),
    isPrefixOf_otherLabel ";memory:hwlocal:" (by decide +kernel),
    isPrefixOf_otherLabel ";memory:hwregion:" (by decide +kernel),
    isPrefixOf_otherLabel ";function:" (by decide +kernel),
    isPrefixOf_otherLabel ";uavid:" (by decide +kernel),
    isPrefixOf_otherLabel ";privateid:" (by decide +kernel),
    isPrefixOf_otherLabel ";ARGEND:" (by decide +kernel),
    Bool.false_eq_true, if_false, List.nil_append, List.append_nil]

/-! ## Names in the lines -/

/-- The text has a newline with the start of a sampler's line after it. -/
def StartsSampler (text : Bytes) : Prop := newline :: samplerLabel <:+: text

instance (text : Bytes) : Decidable (StartsSampler text) :=
  inferInstanceAs (Decidable (newline :: samplerLabel <:+: text))

namespace StartsSampler

variable {a b : Bytes}

theorem mem_newline (h : StartsSampler a) : newline ∈ a := h.subset List.mem_cons_self

/-- What is written after a text without newlines has the whole of a start. -/
theorem of_append_right (ha : newline ∉ a) (h : StartsSampler (a ++ b)) : StartsSampler b := by
  rcases List.infix_append_iff.mp h with h | h | ⟨l, r, hmark, hl, hr⟩
  · exact absurd (mem_newline h) ha
  · exact h
  · cases l with
    | nil =>
      rw [StartsSampler, hmark, List.nil_append]
      exact hr.isInfix
    | cons x l =>
      obtain ⟨rfl, -⟩ := List.cons.inj hmark
      exact absurd (hl.subset List.mem_cons_self) ha

/-- A byte that the start of a sampler's line does not have keeps two texts apart. -/
theorem of_append_cons {x : UInt8} (hx : x ∉ newline :: samplerLabel)
    (h : StartsSampler (a ++ x :: b)) : StartsSampler a ∨ StartsSampler b := by
  rcases List.infix_append_iff.mp h with h | h | ⟨l, r, hmark, hl, hr⟩
  · exact .inl h
  · rcases List.infix_cons_iff.mp h with ⟨t, ht⟩ | h
    · exact absurd (List.cons.inj ht).1 fun heq => hx (heq ▸ List.mem_cons_self)
    · exact .inr h
  · rcases List.prefix_cons_iff.mp hr with rfl | ⟨t, rfl, -⟩
    · left
      rw [StartsSampler, hmark, List.append_nil]
      exact hl.isInfix
    · exact absurd (hmark ▸ List.mem_append_right l List.mem_cons_self) hx

/-- A start ends with a colon. -/
theorem of_concat {x : UInt8} (hx : x ≠ Bytes.char ':') (h : StartsSampler (a ++ [x])) :
    StartsSampler a := by
  rcases List.infix_concat_iff.mp h with h | h
  · rcases List.suffix_concat_iff.mp h with h | ⟨t, ht, -⟩
    · exact absurd h (List.cons_ne_nil _ _)
    · have hlast := congrArg List.getLast? ht
      rw [List.getLast?_concat] at hlast
      have hcolon : (newline :: samplerLabel).getLast? = some (Bytes.char ':') := by decide +kernel
      exact absurd (Option.some.inj (hlast.symm.trans hcolon)) hx
  · exact h

end StartsSampler

/-- A piece of the metadata from whose lines no other line of a sampler is read than itself. -/
structure PlainLine (line : Bytes) : Prop where
  inner : ¬StartsSampler line
  whole : samplerLabel.isPrefixOf line = true → newline ∉ line

namespace PlainLine

variable {line : Bytes}

/-- A line without a newline in it is read as itself. -/
theorem of_notMem (h : newline ∉ line) : PlainLine line :=
  ⟨fun hstart => h hstart.mem_newline, fun _ => h⟩

/-- A line with another label is plain when what stands after the label starts no sampler's line. -/
theorem labelled (label : String) {rest : Bytes} (hlabel : newline ∉ Bytes.ofString label)
    (hother : otherLabel label = true) (hrest : ¬StartsSampler rest) :
    PlainLine (Bytes.ofString label ++ rest) := by
  refine ⟨fun hstart => hrest (hstart.of_append_right hlabel), fun hprefix => ?_⟩
  rw [isPrefixOf_otherLabel label hother rest] at hprefix
  exact absurd hprefix Bool.false_ne_true

/-- From a plain piece only itself is read as the line of a sampler. -/
theorem filter_lines (h : PlainLine line) :
    (Bytes.lines line).filter samplerLabel.isPrefixOf
      = [line].filter samplerLabel.isPrefixOf := by
  by_cases hprefix : samplerLabel.isPrefixOf line = true
  · rw [Bytes.lines, List.splitOn_eq_singleton (h.whole hprefix)]
  · have hnone : (Bytes.lines line).filter samplerLabel.isPrefixOf = [] := by
      rw [List.filter_eq_nil_iff]
      intro l hl hstart
      rw [List.isPrefixOf_iff_prefix] at hprefix hstart
      rcases Bytes.prefix_or_infix_of_mem_lines hl with hfirst | hlater
      · exact hprefix (hstart.trans hfirst)
      · exact h.inner (((List.prefix_cons_inj newline).mpr hstart).isInfix.trans hlater)
    rw [hnone, List.filter_cons_of_neg hprefix, List.filter_nil]

/-- In a text of plain pieces, the lines of samplers are pieces. -/
theorem filter_lines_flatMap {pieces : List Bytes} (h : ∀ piece ∈ pieces, PlainLine piece) :
    (Bytes.lines (pieces.flatMap (· ++ [newline]))).filter samplerLabel.isPrefixOf
      = pieces.filter samplerLabel.isPrefixOf := by
  have hlast : ([[]] : List Bytes).filter samplerLabel.isPrefixOf = [] := by decide +kernel
  rw [Bytes.lines_flatMap, List.filter_append, hlast, List.append_nil]
  induction pieces with
  | nil => rfl
  | cons piece pieces ih =>
    rw [List.flatMap_cons, List.filter_append, filter_lines (h piece List.mem_cons_self),
      ih fun p hp => h p (List.mem_cons_of_mem _ hp), ← List.filter_append]
    rfl

end PlainLine

/-! ## The pieces of the metadata -/

/-- The bytes of a decimal text are digits. -/
theorem notMem_ofNat {b : UInt8} (hb : Statement.isHexDigit b = false) (n : Nat) :
    b ∉ Bytes.ofNat n := by
  intro hmem
  have hdigit := ((Statement.spells_iff.mp (Statement.spells_ofNat n)).1 b hmem).1
  rw [hb] at hdigit
  exact absurd hdigit Bool.false_ne_true

theorem newline_notMem_labelled (label : String) (hlabel : newline ∉ Bytes.ofString label)
    (n : Nat) : newline ∉ Bytes.ofString label ++ Bytes.ofNat n :=
  List.not_mem_append hlabel (notMem_ofNat (by decide) n)

/-- There is no newline in the name of a device. -/
theorem Device.newline_notMem_name (d : Device) : newline ∉ Bytes.ofString d.name := by
  have htable : ∀ e ∈ Device.table, newline ∉ Bytes.ofString e.1 := by decide +kernel
  have hunknown : newline ∉ Bytes.ofString "UNKNOWN" := by decide +kernel
  unfold name
  cases hrow : table[d.id.toNat]? with
  | none => exact hunknown
  | some e => exact htable e (List.mem_of_getElem? hrow)

/-- The names of a kernel that start no line of a sampler, and samplers whose own names stay on the
line. -/
structure Kernel.PlainNames (k : Kernel) : Prop where
  name : ¬StartsSampler k.name
  args : ∀ a ∈ k.config.argList, ¬StartsSampler a.name ∧ ¬StartsSampler a.typeName
  samplers : ∀ a ∈ k.config.argList, a.isSampler = true → newline ∉ a.name

/-- The lines of an argument are plain if its names are. -/
theorem KernelArg.plainLine_metadataLines {a : KernelArg} (hname : ¬StartsSampler a.name)
    (htype : ¬StartsSampler a.typeName) (hsampler : a.isSampler = true → newline ∉ a.name)
    (i sampler : Nat) {line : Bytes} (h : line ∈ a.metadataLines i sampler) : PlainLine line := by
  have hblank : Bytes.ofString " " = [Bytes.char ' '] := by decide +kernel
  have hcolon : Bytes.ofString ":" = [Bytes.char ':'] := by decide +kernel
  have hend : Bytes.ofString ";" = [Bytes.char ';'] := by decide +kernel
  rw [metadataLines, List.mem_append, List.mem_append, List.mem_singleton] at h
  rcases h with (rfl | h) | h
  · -- the type and the name are kept apart by a blank
    rw [List.append_assoc, List.append_assoc, List.append_assoc, hblank, hend]
    apply PlainLine.labelled ";reflection:" (by decide +kernel) (by decide +kernel)
    intro hstart
    rcases hstart.of_append_cons (by decide +kernel) with hstart | hstart
    · exact htype hstart
    · exact hname (hstart.of_concat (by decide))
  · split at h
    · rw [List.mem_singleton] at h
      subst h
      rw [List.append_assoc, List.append_assoc]
      apply PlainLine.labelled ";constarg:" (by decide +kernel) (by decide +kernel)
      intro hstart
      rw [← List.append_assoc] at hstart
      refine hname (hstart.of_append_right ?_)
      exact List.not_mem_append (notMem_ofNat (by decide) i) (by decide +kernel)
    · exact absurd h List.not_mem_nil
  · split at h
    · rename_i hs
      rw [List.mem_singleton] at h
      subst h
      apply PlainLine.of_notMem
      simp only [List.mem_append, not_or]
      exact ⟨⟨⟨⟨by decide +kernel, hsampler hs⟩, by decide +kernel⟩,
        notMem_ofNat (by decide) sampler⟩, by decide +kernel⟩
    · exact absurd h List.not_mem_nil

/-- The lines of arguments are plain if their names are. -/
theorem KernelArg.plainLine_listLines {args : List KernelArg}
    (hargs : ∀ a ∈ args, ¬StartsSampler a.name ∧ ¬StartsSampler a.typeName)
    (hsamplers : ∀ a ∈ args, a.isSampler = true → newline ∉ a.name) (i sampler : Nat)
    {line : Bytes} (h : line ∈ listLines i sampler args) : PlainLine line := by
  induction args generalizing i sampler with
  | nil => exact absurd h List.not_mem_nil
  | cons a args ih =>
    rcases List.mem_append.mp h with h | h
    · obtain ⟨hname, htype⟩ := hargs a List.mem_cons_self
      exact plainLine_metadataLines hname htype (hsamplers a List.mem_cons_self) i sampler h
    · exact ih (fun b hb => hargs b (List.mem_cons_of_mem _ hb))
        (fun b hb => hsamplers b (List.mem_cons_of_mem _ hb)) _ _ h

/-- Plain names make the lines of the metadata plain. -/
theorem Kernel.PlainNames.plainLine {k : Kernel} (hk : k.PlainNames) (device : Device)
    (is64 : Bool) (uniqueId : UInt32) :
    ∀ line ∈ k.metadataLines device is64 uniqueId, PlainLine line := by
  have howner (label : String) (hlabel : newline ∉ Bytes.ofString label)
      (hother : otherLabel label = true) :
      PlainLine (.ofString label ++ (.ofString "__OpenCL_" ++ k.name ++ .ofString "_kernel")) := by
    have hkernel : Bytes.ofString "_kernel" = Bytes.char '_' :: Bytes.ofString "kernel" := by
      decide +kernel
    apply PlainLine.labelled label hlabel hother
    rw [List.append_assoc, hkernel]
    intro hstart
    have hinner := hstart.of_append_right (by decide +kernel)
    rcases hinner.of_append_cons (by decide +kernel) with hname | hlabel
    · exact hk.name hname
    · exact absurd hlabel.mem_newline (by decide +kernel)
  have hnumber (label : String) (n : UInt32) (hlabel : newline ∉ Bytes.ofString label) :
      PlainLine (.ofString label ++ .ofNat n.toNat) :=
    .of_notMem (newline_notMem_labelled label hlabel n.toNat)
  have hdevice : PlainLine (.ofString ";device:" ++ .ofString device.name) :=
    .of_notMem (List.not_mem_append (by decide +kernel) device.newline_notMem_name)
  have hargs : ∀ line ∈ KernelArg.listLines 0 0 k.config.argList, PlainLine line :=
    fun line hline => KernelArg.plainLine_listLines hk.args hk.samplers 0 0 hline
  have hoptional (p : Prop) [Decidable p] {line : Bytes} (hline : PlainLine line) :
      ∀ l ∈ if p then [line] else [], PlainLine l := by
    split
    · exact List.forall_mem_singleton.mpr hline
    · exact List.forall_mem_nil _
  have hunless (p : Prop) [Decidable p] {line : Bytes} (hline : PlainLine line) :
      ∀ l ∈ if p then [] else [line], PlainLine l := by
    rw [← ite_not]
    exact hoptional (¬p) hline
  unfold metadataLines
  dsimp only
  simp only [List.forall_mem_append, List.forall_mem_cons]
  have hnil : ∀ l ∈ ([] : List Bytes), PlainLine l := List.forall_mem_nil _
  refine ⟨⟨⟨⟨⟨⟨⟨⟨?_, ?_, hdevice, ?_, ?_, ?_, ?_, hnil⟩, ?_⟩, ?_⟩, hargs⟩, ?_, ?_, ?_, hnil⟩, ?_⟩,
    ?_⟩, ?_, hnil⟩
  · exact howner ";ARGSTART:" (by decide +kernel) (by decide +kernel)
  · exact .of_notMem (by decide +kernel)
  · exact hnumber ";uniqueid:" _ (by decide +kernel)
  · exact hnumber ";memory:uavprivate:" _ (by decide +kernel)
  · exact hnumber ";memory:hwlocal:" _ (by decide +kernel)
  · exact hnumber ";memory:hwregion:" _ (by decide +kernel)
  · exact hoptional _ (.of_notMem (by decide +kernel))
  · exact hoptional _ (.of_notMem (by decide +kernel))
  · exact hnumber ";function:" _ (by decide +kernel)
  · exact hnumber ";uavid:" _ (by decide +kernel)
  · exact hnumber ";privateid:" _ (by decide +kernel)
  · exact hoptional _ (hnumber ";printfid:" _ (by decide +kernel))
  · exact hunless _ (hnumber ";cbuffers:" _ (by decide +kernel))
  · exact howner ";ARGEND:" (by decide +kernel) (by decide +kernel)

/-- **The lines of samplers in the metadata** of a kernel with plain names are those of its sampler
arguments. -/
theorem Kernel.filter_lines_configMetadata {k : Kernel} (hk : k.PlainNames) (device : Device)
    (is64 : Bool) (uniqueId : UInt32) :
    (Bytes.lines (k.configMetadata device is64 uniqueId)).filter samplerLabel.isPrefixOf
      = ((k.config.argList.filter KernelArg.isSampler).zipIdx).map
          fun e => e.1.samplerLine e.2 :=
  (PlainLine.filter_lines_flatMap (hk.plainLine device is64 uniqueId)).trans
    (k.filter_metadataLines device is64 uniqueId)

/-! ## Numbers -/

/-- The number on the line of a sampler: its third field from the end. -/
def samplerNumber? (line : Bytes) : Option Nat :=
  if samplerLabel.isPrefixOf line then
    (line.splitOn (Bytes.char ':')).reverse[2]?.map (Statement.digitsValue 10)
  else none

/-- The number is read back from the line of a sampler. -/
theorem KernelArg.samplerNumber?_samplerLine (a : KernelArg) (number : Nat) :
    samplerNumber? (a.samplerLine number) = some number := by
  have hcolon : Bytes.ofString ":" = [Bytes.char ':'] := by decide +kernel
  have htail : Bytes.ofString ":1:0" = Bytes.char ':' :: Bytes.ofString "1:0" := by decide +kernel
  have hfields : (Bytes.ofString "1:0").splitOn (Bytes.char ':')
      = [[Bytes.char '1'], [Bytes.char '0']] := by decide +kernel
  have hline : a.samplerLine number = (samplerLabel ++ a.name) ++ Bytes.char ':' ::
      (Bytes.ofNat number ++ Bytes.char ':' :: Bytes.ofString "1:0") := by
    rw [samplerLine, hcolon, htail]
    simp only [List.append_assoc, List.cons_append, List.nil_append]
  have hsplit : ((a.samplerLine number).splitOn (Bytes.char ':')).reverse[2]?
      = some (Bytes.ofNat number) := by
    rw [hline, List.splitOn_append_cons_self, List.splitOn_append_cons_self, hfields,
      List.splitOn_eq_singleton (notMem_ofNat (by decide) number)]
    simp
  rw [samplerNumber?, if_pos (a.isPrefixOf_samplerLine number), hsplit, Option.map_some,
    (Statement.spells_ofNat number).digitsValue_eq]

/-- The numbers are read off the lines of samplers only. -/
theorem filterMap_samplerNumber? (lines : List Bytes) :
    lines.filterMap samplerNumber?
      = (lines.filter samplerLabel.isPrefixOf).filterMap samplerNumber? := by
  rw [List.filterMap_filter]
  apply List.filterMap_congr
  intro line _
  unfold samplerNumber?
  split
  · rfl
  · rfl

/-- **The samplers of the metadata are numbered from zero on**, in the order of the arguments. -/
theorem Kernel.samplerNumbers_configMetadata {k : Kernel} (hk : k.PlainNames) (device : Device)
    (is64 : Bool) (uniqueId : UInt32) :
    (Bytes.lines (k.configMetadata device is64 uniqueId)).filterMap samplerNumber?
      = List.range (k.config.argList.filter KernelArg.isSampler).length := by
  rw [filterMap_samplerNumber?, filter_lines_configMetadata hk, List.filterMap_map]
  have hnumber : samplerNumber? ∘ (fun e : KernelArg × Nat => e.1.samplerLine e.2)
      = some ∘ Prod.snd := by
    funext e
    exact e.1.samplerNumber?_samplerLine e.2
  rw [hnumber, List.filterMap_eq_map, List.zipIdx_map_snd, List.range_eq_range']

end CatalystAsm
