import CatalystAsm.Assembly.KernelDirective

/-!
# Running an assembly

A source file is assembled line by line. A line holds any number of labels and then an assignment, a
directive or nothing. What an observer can follow is the list of events.
-/

namespace CatalystAsm

/-- What happens during an assembly. -/
inductive Event where
  | report (d : Diagnostic)
  /-- a directive is about to be executed in a section that holds `size` bytes -/
  | directive (name : Bytes) (scope : Scope) (current : Nat) (size : Nat)
  deriving DecidableEq, Repr

namespace Event

/-- The report that an event is. -/
def report? : Event → Option Diagnostic
  | report d => some d
  | directive .. => none

/-- Whether an event reports an error. -/
def isError (e : Event) : Bool := e.report?.any (·.severity == .error)

end Event

namespace Assembler

open ArgReader

/-- The state after an outcome and what was reported; without a value the state stays. -/
def settle (a : Assembler) (o : Outcome Assembler) : Assembler × List Event :=
  (o.value.getD a, o.reports.map .report)

/-- Executes the directive of a name, without the dot. -/
def directive (a : Assembler) (name : Bytes) (place : Place) (c : Cursor) : Outcome Assembler :=
  match Directive.ofName? name, KernelDirective.ofName? name with
  | some d, _ => a.execute d place c
  | none, some d => a.executeKernel d place c
  | none, none => .fail (.unknownDirective name) place.name

/-- Defines a symbol as the value of the expression at the cursor. -/
def assign (a : Assembler) (name : Bytes) (span : Span) : ArgReader Assembler := do
  let (v, _) ← scan (Statement.expression a.lookup)
  finish
  lift (a.defineSymbol name span v)

/-- The cursor after a single equals sign, when one is next. -/
def afterAssignment? (c : Cursor) : Option Cursor :=
  match c.rest with
  | 0x3d :: 0x3d :: _ => none
  | 0x3d :: _ => some (c.advance 1)
  | _ => none

/-- The name of a directive without its dot. -/
def directiveName? : Bytes → Option Bytes
  | 0x2e :: b :: rest => some (b :: rest)
  | _ => none

/-- Assembles the statement at the cursor. -/
def statement (a : Assembler) (c : Cursor) : Assembler × List Event :=
  let start := c.skipBlanks
  let stmt := start.spanTo start.toLimit
  if start.atLimit then (a, [])
  else
    match _ : Statement.name? start with
    | none => a.settle (.fail .expectedStatement stmt)
    | some (name, d) =>
      let span := start.spanTo d
      match _ : d.skipBlanks.eat? 0x3a with
      | some e =>
        let (b, events) := a.settle (a.defineLabel name span)
        let (z, more) := b.statement e
        (z, events ++ more)
      | none =>
        match afterAssignment? d.skipBlanks with
        | some e => a.settle ((a.assign name span).run e)
        | none =>
          match directiveName? name with
          | none => a.settle (.fail .instruction stmt)
          | some n =>
            let (b, events) := a.settle (a.directive n ⟨span, stmt⟩ d.skipBlanks)
            (b, .directive name a.scope a.current a.position :: events)
termination_by c.rest.length
decreasing_by
  have := Cursor.length_rest_eat? ‹d.skipBlanks.eat? 0x3a = some e›
  have := d.length_rest_skipBlanks
  have : d.rest.length < c.skipBlanks.rest.length :=
    Statement.length_rest_name? ‹_ = some (name, d)›
  have := c.length_rest_skipBlanks
  omega

/-- Assembles statements one after another. -/
def statements (a : Assembler) : List Cursor → Assembler × List Event
  | [] => (a, [])
  | c :: rest =>
    let (b, events) := a.statement c
    let (z, more) := b.statements rest
    (z, events ++ more)

end Assembler

/-- An assembly after its last line: the state, what happened, and whether every line was read. -/
structure Assembly where
  state : Assembler
  events : List Event
  finished : Bool
  deriving Repr

namespace Assembly

/-- The cursors of the statements of a file, line by line and without comments. -/
def cursors (f : SourceFile) : List Cursor :=
  f.lineRanges.map fun (start, stop) =>
    .ofRange f.id f.content start (Statement.statementEnd f.content start stop)

/-- Before every line whose number is a multiple of this, a run checks whether it was cancelled. -/
def cancelInterval : Nat := 1024

/-- How many lines are read before a check; the first check has number 0. -/
def linesBefore (check : Nat) : Nat := cancelInterval * (check + 1) - 1

/-- How many checks there are; the last one may come after the last line. -/
def checks (f : SourceFile) : Nat := (f.lineRanges.length + 1) / cancelInterval

/-- The statements that are read: all, or those before the check where the run was cancelled. -/
def reached (f : SourceFile) : (cancelled : Option Nat) → List Cursor
  | none => cursors f
  | some check => (cursors f).take (linesBefore check)

/-- Assembles a file, up to the check where the run was cancelled. -/
def ofFile (options : Options) (f : SourceFile) (cancelled : Option Nat) : Assembly :=
  let (state, events) := (Assembler.ofOptions options).statements (reached f cancelled)
  { state, events, finished := cancelled.all fun check => (cursors f).length < linesBefore check }

/-- The reports in order. -/
def reports (r : Assembly) : List Diagnostic := r.events.filterMap (·.report?)

/-- Whether every line was read and no error was reported. -/
def succeeded (r : Assembly) : Bool := r.finished && !r.events.any (·.isError)

end Assembly

end CatalystAsm
