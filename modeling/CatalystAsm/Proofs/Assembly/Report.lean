import CatalystAsm.Proofs.Assembly.Clause
import CatalystAsm.Proofs.Statement.Place

/-!
# Where reports point

A statement is executed with the spans of its own text and those that the state remembers: the
places of symbols and of kernel headers. If all of them satisfy a property of spans, then so do the
spans of every report, and those that the state remembers afterwards. `Outcome.Tells` says both, and
follows the parts of an outcome one by one.
-/

namespace CatalystAsm

/-! ## Outcomes -/

namespace Outcome

variable {α β : Type} {G : Span → Prop} {P : α → Prop} {R : β → Prop} {o : Outcome α}

/-- Every report points to spans that satisfy `G`, and the value satisfies `P`. -/
def Tells (G : Span → Prop) (P : α → Prop) (o : Outcome α) : Prop :=
  (∀ d ∈ o.reports, d.PointsTo G) ∧ ∀ v, o.value = some v → P v

/-- Work that is done tells of nothing. -/
theorem tells_done {v : α} (h : P v) : (done v).Tells G P := by
  refine ⟨fun d hd => absurd hd List.not_mem_nil, ?_⟩
  intro w hw
  cases hw
  exact h

/-- Reports without a value. -/
theorem tells_none {ds : List Diagnostic} (h : ∀ d ∈ ds, d.PointsTo G) :
    (⟨ds, none⟩ : Outcome α).Tells G P :=
  ⟨h, fun v hv => by cases hv⟩

/-- Work in two parts tells of what the parts tell of. -/
theorem Tells.andThen {f : α → Outcome β} (ho : o.Tells G P) (hf : ∀ v, P v → (f v).Tells G R) :
    (o.andThen f).Tells G R := by
  cases hv : o.value with
  | none =>
    rw [andThen_eq_of_value_eq_none hv]
    exact tells_none ho.1
  | some v =>
    obtain ⟨hreports, hvalue⟩ := hf v (ho.2 v hv)
    rw [andThen_eq_of_value hv]
    exact ⟨List.forall_mem_append.mpr ⟨ho.1, hreports⟩, hvalue⟩

/-- Work that falls back to a value tells of the same as before. -/
theorem Tells.onto {v : α} (h : o.Tells G P) (hv : P v) : (o.onto v).Tells G P := by
  refine ⟨h.1, ?_⟩
  intro w hw
  cases hw
  cases hvalue : o.value with
  | none => exact hv
  | some u => exact h.2 u hvalue

end Outcome

namespace ArgReader

variable {α β : Type} {s c : Cursor} {G : Span → Prop} {P : α → Prop} {Q : β → Prop}
  {r : ArgReader α}

/-- Reading from anywhere in the statement at `s` stays in it, and what is told of satisfies `G`. -/
def Tells (s : Cursor) (G : Span → Prop) (P : α → Prop) (r : ArgReader α) : Prop :=
  ∀ c, s.LeadsTo c → (r c).Tells G fun v => s.LeadsTo v.2 ∧ P v.1

/-- One reader after the other, from wherever the first one ends. -/
theorem Tells.bind {f : α → ArgReader β} (hr : r.Tells s G P)
    (hf : ∀ v, P v → (f v).Tells s G Q) : (r >>= f).Tells s G Q :=
  fun c hc => (hr c hc).andThen fun v hv => hf v.1 hv.2 v.2 hv.1

/-- Running a reader from a place in the statement. -/
theorem Tells.run (h : r.Tells s G P) (hc : s.LeadsTo c) : (r.run c).Tells G P :=
  (h c hc).andThen fun _ hv => Outcome.tells_done hv.2

section

variable (hG : ∀ t, s.Spans t → G t)

include hG

end

end ArgReader

/-! ## What the state remembers -/

/-- The spans of symbols satisfy `G` after an update, if the new span does. -/
theorem Symbol.forall_span_update {G : Span → Prop} {symbols : List Symbol}
    (h : ∀ t ∈ symbols, G t.span) (name : Bytes) {span : Span} (hspan : G span)
    {f : Symbol → Symbol} (hf : ∀ t, G t.span → G (f t).span) :
    ∀ t ∈ Symbol.update symbols name span f, G t.span := by
  intro t ht
  rcases Symbol.mem_update ht with ht | ⟨u, hu | rfl, -, rfl⟩
  · exact h t ht
  · exact hf u (h u hu)
  · exact hf _ hspan

namespace Assembler

variable {a b : Assembler} {s : Cursor} {G : Span → Prop}

/-- The spans that are remembered satisfy `G`: those of symbols, and the places of the headers that
kernels have. -/
structure Marks (G : Span → Prop) (a : Assembler) : Prop where
  symbols : ∀ t ∈ a.symbols, G t.span
  headers : ∀ k ∈ a.kernels, k.header.isSome = true → G k.headerPlace

namespace Marks

/-- Only symbols and kernels remember spans. -/
theorem of_eq (h : Marks G a) (hsymbols : b.symbols = a.symbols)
    (hkernels : b.kernels = a.kernels) : Marks G b :=
  ⟨fun t ht => h.symbols t (hsymbols ▸ ht), fun k hk => h.headers k (hkernels ▸ hk)⟩

/-- A kernel may change as long as the place of its header satisfies `G`. -/
theorem modifyKernel (h : Marks G a) (i : Nat) {f : KernelState → KernelState}
    (hf : ∀ k, (k.header.isSome = true → G k.headerPlace) →
      (f k).header.isSome = true → G (f k).headerPlace) : Marks G (a.modifyKernel i f) := by
  refine ⟨h.symbols, ?_⟩
  intro k hk
  obtain ⟨j, hj⟩ := List.getElem?_of_mem hk
  obtain ⟨l, hl, rfl⟩ := getElem?_modifyKernel hj
  have hold := h.headers l (List.mem_of_getElem? hl)
  by_cases hij : i = j
  · rw [if_pos hij]
    exact hf l hold
  · rw [if_neg hij]
    exact hold

/-- A change that is about neither the header nor its place. -/
theorem modifyOther (h : Marks G a) (i : Nat) {f : KernelState → KernelState}
    (hf : ∀ k, (f k).header = k.header ∧ (f k).headerPlace = k.headerPlace) :
    Marks G (a.modifyKernel i f) := by
  refine h.modifyKernel i fun k hold => ?_
  rw [(hf k).1, (hf k).2]
  exact hold

/-- Moving remembers no span. -/
theorem moveTo (h : Marks G a) (scope : Scope) (id : Nat) : Marks G (a.moveTo scope id) := by
  have hsave : Marks G a.saveSection := by
    unfold saveSection
    cases a.scope with
    | global => exact h.of_eq rfl rfl
    | kernel i => exact h.modifyOther i fun _ => ⟨rfl, rfl⟩
  exact hsave.of_eq rfl rfl

theorem newSection (h : Marks G a) (t : TableSection) : Marks G (a.newSection t).1 :=
  h.of_eq rfl rfl

/-- A new kernel has no header. -/
theorem withKernel (h : Marks G a) (name : Bytes) : Marks G (a.withKernel name) := by
  refine ⟨h.symbols, ?_⟩
  intro k hk
  rcases List.mem_append.mp hk with hk | hk
  · exact h.headers k hk
  · -- a new kernel has no header
    rw [List.mem_singleton.mp hk]
    intro hheader
    cases hheader

/-- An extra section remembers no span. -/
theorem addExtra (h : Marks G a) (scope : Scope) (name : Bytes) (id : Nat) :
    Marks G (a.addExtra scope name id) := by
  unfold Assembler.addExtra
  cases scope with
  | global => exact h.of_eq rfl rfl
  | kernel k => exact h.modifyOther k fun _ => ⟨rfl, rfl⟩

/-- The code or data section of a kernel remembers no span. -/
theorem textOrDataSection (h : Marks G a) (k : Nat) (state : KernelState) (kind : SectionKind)
    (tag : SectionTag) (name : Bytes) :
    Marks G (a.textOrDataSection k state kind tag name).1 := by
  unfold Assembler.textOrDataSection
  split
  · exact h
  · exact (h.newSection _).modifyOther k fun _ => ⟨rfl, rfl⟩

/-- Adding a section remembers no span, whether it is refused or not. -/
theorem tryAddSection (h : Marks G a) (name : Bytes) (scope : Scope) :
    Marks G (a.tryAddSection name scope).state := by
  unfold Assembler.tryAddSection
  split
  · cases scope with
    | global => exact h
    | kernel k =>
      dsimp only
      split
      · exact h
      · exact (h.textOrDataSection k _ _ _ name).moveTo _ _
  · split
    · exact h
    · split
      · exact h
      · exact ((h.newSection _).addExtra scope name _).moveTo scope _

/-- Going to a kernel remembers no span. -/
theorem trySetKernel (h : Marks G a) (scope : Scope) : Marks G (a.trySetKernel scope).state := by
  unfold Assembler.trySetKernel
  cases scope with
  | global => exact h.moveTo _ _
  | kernel k =>
    dsimp only
    split
    · exact h
    · exact h.moveTo _ _

theorem trySetSection (h : Marks G a) (id : Nat) : Marks G (a.trySetSection id).state := by
  unfold Assembler.trySetSection
  split
  · exact h
  · exact h.moveTo _ _

/-- An update of the symbols at a span that satisfies `G`. -/
theorem update (h : Marks G a) (name : Bytes) {span : Span} (hspan : G span)
    {f : Symbol → Symbol} (hf : ∀ t, G t.span → G (f t).span) :
    Marks G { a with symbols := Symbol.update a.symbols name span f } :=
  ⟨Symbol.forall_span_update h.symbols name hspan hf, h.headers⟩

end Marks

/-! ## Data and symbols -/

open ArgReader

section

variable (hG : ∀ t, s.Spans t → G t) {c : Cursor}

include hG

end

end Assembler

end CatalystAsm
