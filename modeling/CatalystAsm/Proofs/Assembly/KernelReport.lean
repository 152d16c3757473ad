import CatalystAsm.Proofs.Assembly.Report

/-!
# Where reports about the kernel format point

The directives of the kernel format, which read and remember as those of every format do. The place
of a kernel's header is remembered when the header is made.
-/

namespace CatalystAsm

namespace Assembler

open ArgReader

variable {a : Assembler} {s c : Cursor} {G : Span → Prop}

/-! ## Sections of a kernel -/

/-- A new note remembers no span. -/
theorem Marks.newNote (h : Marks G a) (k : Nat) (type : NoteType) :
    Marks G (a.newNote k type).state := by
  have hmade := (h.newSection { scope := .kernel k, kind := .note, noteType := type }).modifyOther k
    (f := fun l => { l with notes := l.notes ++ [a.sections.length] }) fun _ => ⟨rfl, rfl⟩
  exact hmade.trySetSection _

section

variable (hG : ∀ t, s.Spans t → G t)

include hG

end

end Assembler

end CatalystAsm
