import CatalystAsm.Proofs.Assembly.Resume
import CatalystAsm.Proofs.Statement.Reading

/-!
# Definitions and what expressions see of them

A label and an assignment write a symbol; an expression reads a value. The value that was written is
the one that is read, in the state that the definition leads to and in all states behind it: the
symbol keeps all of the value (`Symbol.IsDefinedAs.toValue_eq`), and no action takes a definition
back (`Assembler.Consistent.extends_actAll`). The single dot is apart. It can be written like any
other name, but it is read as the current position.
-/

namespace CatalystAsm

theorem isName_singleton {b : UInt8} (h : Statement.isNameByte b = true) : IsName [b] := by
  intro c hc
  rw [List.mem_singleton.mp hc]
  exact h

/-! ## From values to symbols and back -/

theorem Symbol.plain_toValue (s : Symbol) : s.toValue.Plain := by
  unfold Symbol.toValue
  split
  · exact fun _ => rfl
  · exact fun habsolute => nomatch habsolute

/-- A symbol stands for the value that it was defined as. -/
theorem Symbol.IsDefinedAs.toValue_eq {s : Symbol} {v : Value} (h : s.IsDefinedAs v)
    (hv : v.Plain) : s.toValue = v := by
  obtain ⟨bits, home, relative⟩ := v
  obtain ⟨-, hvalue, hhome⟩ := h
  unfold Symbol.toValue
  rw [hhome, hvalue]
  cases relative with
  | false =>
    -- a symbol has no room for the section of an absolute value
    rw [show home = 0 from hv rfl]
    rfl
  | true =>
    show Value.mk bits (UInt32.ofNat home.toNat) true = _
    rw [UInt32.ofNat_toNat]

namespace Assembler

variable {a : Assembler} {name : Bytes} {v : Value}

theorem plain_here (a : Assembler) : a.here.Plain := fun habsolute => nomatch habsolute

theorem plain_lookup (a : Assembler) (n : Bytes) (v : Value) (hv : a.lookup n = some v) :
    v.Plain := by
  unfold lookup at hv
  split at hv
  · cases hv
    exact a.plain_here
  · split at hv
    · rename_i s _
      split at hv
      · cases hv
        exact s.plain_toValue
      · cases hv
    · cases hv

/-- A defined name is found, unless it is the name of the current position. -/
theorem Defines.lookup_eq (h : a.Defines name v) (hv : v.Plain) (hname : name ≠ dotName) :
    a.lookup name = some v := by
  obtain ⟨s, hs, hdefined⟩ := h
  unfold lookup
  rw [if_neg hname, hs]
  dsimp only
  rw [if_pos hdefined.defined, hdefined.toValue_eq hv]

/-! ## Later states -/

/-- **Actions lose nothing.** -/
theorem Consistent.extends_actAll (h : a.Consistent) (l : List Action) :
    Extends a (a.actAll l) := by
  induction l generalizing a with
  | nil => exact .refl a
  | cons x l ih =>
    obtain ⟨scope, hstep⟩ := h.stepIn_act x
    exact hstep.extends.trans (ih (h.step hstep))

/-- What a clause defines is found in all later states. -/
theorem Consistent.lookup_actAll (h : a.Consistent) {x : Clause}
    (hdefines : (a.after x).Defines name v) (hv : v.Plain) (hname : name ≠ dotName)
    (l : List Action) : ((a.after x).actAll l).lookup name = some v := by
  have hextends := (h.step (h.step_after x)).extends_actAll l
  exact (hextends.definitions.defines hdefines).lookup_eq hv hname

/-- **Definitions are visible.** Take any state of an assembly and any name but the single dot. When
a label of that name is executed without an error, the name stands for the place of the label, in
the state behind it and after any further actions, statements of a source among them. When an
assignment is executed without an error, its expression has a value, and the name stands for it. -/
theorem definitions_visible (h : Reachable a) (isName : IsName name) (hname : name ≠ dotName)
    (span : Span) :
    (NoError (a.perform (.label name isName span)).reports →
      ∀ l, ((a.after (.label name isName span)).actAll l).lookup name = some a.here) ∧
    ∀ c, NoError (a.perform (.assignment name isName span c)).reports →
      ∃ v w d, Statement.expression a.lookup c = .ok ((v, w), d) ∧
        ∀ l, ((a.after (.assignment name isName span c)).actAll l).lookup name = some v := by
  refine ⟨?_, ?_⟩
  · intro hno
    have hdefines := after_of_yields (x := .label name isName span)
      (yields_defineLabel a name span) hno
    exact h.consistent.lookup_actAll hdefines a.plain_here hname
  · intro c hno
    obtain ⟨v, w, d, hread, hdefines⟩ := after_of_yields (x := .assignment name isName span c)
      (yields_assign a name span c) hno
    have hplain : v.Plain := Statement.of_expression Value.closed_plain a.plain_lookup hread
    exact ⟨v, w, d, hread, h.consistent.lookup_actAll hdefines hplain hname⟩

/-- A label behind a byte of a kernel is found after the kernel was left and a second label of its
name was refused, and so is a number that was computed from its distance. -/
theorem definitions_visible_elsewhere :
    let byte := Cursor.ofRange 0 (.ofString ".byte 1") 0 7
    let a := (((ofOptions {}).addKernel [0x6b]).1.statement byte).1
    let b := a.after (labelX 8)
    let c := Cursor.ofRange 0 (.ofString "y = . - x + 7") 3 13
    let l := [Action.addKernel [0x6d], .clause (labelX 9), .setKernel .global]
    (b.actAll l).current = 0 ∧
      (b.actAll l).lookup [0x78] = some { bits := 1, home := 1, relative := true } ∧
      ((b.after (.assignment [0x79] (isName_singleton rfl) ⟨0, 0, 1⟩ c)).actAll l).lookup [0x79]
        = some { bits := 7 } := by
  intro byte a b c l
  have ha : Reachable a := .statement _ (.addKernel [0x6b] (.start {}))
  have hb : Reachable b := .clause (labelX 8) ha
  have hlabel : (a.perform (labelX 8)).reports = [] := by decide +kernel
  have hassignment : (b.perform (.assignment [0x79] (isName_singleton rfl) ⟨0, 0, 1⟩ c)).reports
      = [] := by decide +kernel
  have hread : Statement.expression b.lookup c
      = .ok (({ bits := 7 }, ⟨0, 4, 13⟩), .ofRange 0 (.ofString "y = . - x + 7") 13 13) := by
    rw [Statement.expression_eq_ok_iff]
    decide +kernel
  refine ⟨by decide +kernel, ?_, ?_⟩
  · have hhere : a.here = { bits := 1, home := 1, relative := true } := by decide +kernel
    rw [← hhere]
    refine (definitions_visible ha _ (by decide) (.point 0 8)).1 ?_ l
    exact hlabel ▸ noError_nil
  · obtain ⟨v, w, d, hvalue, hlookup⟩ := (definitions_visible hb (isName_singleton rfl)
      (by decide) ⟨0, 0, 1⟩).2 c (hassignment ▸ noError_nil)
    rw [hread] at hvalue
    cases hvalue
    exact hlookup l

/-- The dot can be assigned, and still stands for the current position. -/
theorem dot_assigned_unseen :
    let a := ofOptions {}
    let c := Cursor.ofRange 0 (.ofString ". = 5") 3 5
    let x := Clause.assignment dotName (isName_singleton rfl) ⟨0, 0, 1⟩ c
    Reachable a ∧ NoError (a.perform x).reports ∧
      (∃ w d, Statement.expression a.lookup c = .ok (({ bits := 5 }, w), d)) ∧
      (a.after x).lookup dotName ≠ some { bits := 5 } := by
  intro a c x
  have hno : (a.perform x).reports = [] := by decide +kernel
  have hread : Statement.expression a.lookup c
      = .ok (({ bits := 5 }, ⟨0, 4, 5⟩), .ofRange 0 (.ofString ". = 5") 5 5) := by
    rw [Statement.expression_eq_ok_iff]
    decide +kernel
  exact ⟨.start {}, hno ▸ noError_nil, ⟨_, _, hread⟩, by decide +kernel⟩

end Assembler

end CatalystAsm
