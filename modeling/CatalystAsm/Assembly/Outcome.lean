import CatalystAsm.Assembly.Problem
import CatalystAsm.Statement.Argument

/-!
# Outcomes

Executing a statement makes reports and gives the state after it. Work that stops before anything
was changed gives no value.
-/

namespace CatalystAsm

/-- The reports made so far, and the value unless an error stopped the work. -/
structure Outcome (α : Type) where
  reports : List Diagnostic
  value : Option α
  deriving Repr

namespace Outcome

/-- A value without reports. -/
def done {α : Type} (a : α) : Outcome α := ⟨[], some a⟩

/-- An error, and no value. -/
def stop {α : Type} (d : Diagnostic) : Outcome α := ⟨[d], none⟩

/-- A problem that is an error. -/
def fail {α : Type} (p : Problem) (span : Span) : Outcome α := stop (p.error span [])

/-- Goes on with the value, keeping the reports. -/
def andThen {α β : Type} (o : Outcome α) (f : α → Outcome β) : Outcome β :=
  match o.value with
  | none => ⟨o.reports, none⟩
  | some a => ⟨o.reports ++ (f a).reports, (f a).value⟩

/-- The work on a value that stays as it is when the work stops. -/
def onto {α : Type} (o : Outcome α) (a : α) : Outcome α := ⟨o.reports, some (o.value.getD a)⟩

instance : Monad Outcome where
  pure := done
  bind := andThen

/-- What a scanner gives, with what it found as errors. -/
def ofScanned {α : Type} : Scanned α → Outcome (α × Cursor)
  | .ok r => done r
  | .error s => ⟨s.reports, none⟩

/-- A structural operation, with its error reported at a place. -/
def ofStructural {α : Type} (place : Span) : Except StructureError α → Outcome α
  | .ok a => done a
  | .error e => fail (.structural e) place

end Outcome

/-- A reader of the arguments of a statement: from a cursor to a value and the cursor after it. -/
def ArgReader (α : Type) := Cursor → Outcome (α × Cursor)

namespace ArgReader

instance : Monad ArgReader where
  pure a := fun c => .done (a, c)
  bind r f := fun c => (r c).andThen fun (a, d) => f a d

/-- Reads with a scanner. -/
def scan {α : Type} (f : Cursor → Scanned α) : ArgReader α := fun c => .ofScanned (f c)

/-- Makes reports. -/
def report (ds : List Diagnostic) : ArgReader Unit := fun c => ⟨ds, some ((), c)⟩

/-- Stops with a problem. -/
def fail {α : Type} (p : Problem) (span : Span) : ArgReader α := fun _ => .fail p span

/-- What is known without reading on. -/
def lift {α : Type} (o : Outcome α) : ArgReader α := fun c => o.andThen fun a => .done (a, c)

/-- A name; `what` tells what is missing without one. -/
def name (what : String) : ArgReader (Bytes × Span) := scan (Statement.expectName (.ofString what))

/-- A string. -/
def string : ArgReader Bytes := scan Statement.quotedString

/-- An absolute expression and its span. -/
def absolute (symbols : Resolver) : ArgReader (UInt64 × Span) := scan (Statement.absolute symbols)

/-- An absolute expression cut to 32 bits. -/
def word (symbols : Resolver) : ArgReader UInt32 := do
  let (v, warnings) ← scan (Statement.word symbols)
  report warnings
  pure v

/-- Whether a comma follows. -/
def comma : ArgReader Bool := scan Statement.comma

/-- The comma before `what`. -/
def requiredComma (what : String) : ArgReader Unit :=
  scan (Statement.requiredComma (.ofString what))

/-- The end of the statement. -/
def finish : ArgReader Unit := scan Statement.noGarbage

/-- Whether only blanks are left. -/
def atEnd : ArgReader Bool := fun c => .done (Statement.atEnd c, c.skipBlanks)

/-- The value alone. -/
def run {α : Type} (r : ArgReader α) (c : Cursor) : Outcome α := (r c).andThen fun (a, _) => .done a

end ArgReader

end CatalystAsm
