import CatalystAsm.Diagnostic.Basic

/-!
# The diagnostics of one file

A bag keeps what was reported, at most `limit` entries of it. An entry equal to an earlier one in
code, severity, span and message is not counted again. Past the limit entries are only counted,
except that the first error takes the place of the last entry kept, so that what is kept always
shows why an assembly failed.
-/

namespace CatalystAsm

/-- What makes two diagnostics the same. -/
structure Diagnostic.Key where
  code : Code
  severity : Severity
  span : Span
  message : Bytes
  deriving DecidableEq, Repr

/-- The key of a diagnostic. -/
def Diagnostic.key (d : Diagnostic) : Diagnostic.Key := ⟨d.code, d.severity, d.span, d.message⟩

/-- Diagnostics in the order they are kept. A limit of zero or less is no limit. -/
structure Bag where
  limit : Int := 0
  items : List Diagnostic := []
  dropped : Nat := 0
  infos : Nat := 0
  warnings : Nat := 0
  errors : Nat := 0
  seen : List Diagnostic.Key := []
  deriving Repr, Inhabited

namespace Bag

/-- An empty bag. -/
def withLimit (limit : Int) : Bag := { limit }

/-- One more diagnostic of a severity. -/
def count (b : Bag) (s : Severity) : Bag :=
  if s = .info then { b with infos := b.infos + 1 }
  else if s = .warning then { b with warnings := b.warnings + 1 }
  else if s = .error then { b with errors := b.errors + 1 }
  else b

/-- Whether there is room for one more entry. -/
def hasRoom (b : Bag) : Bool := b.limit ≤ 0 || (b.items.length : Int) < b.limit

/-- Reports a diagnostic, and tells whether it was kept as an entry of its own. -/
def add (b : Bag) (d : Diagnostic) : Bag × Bool :=
  if b.seen.contains d.key then (b, false)
  else
    let firstError := Severity.error.rank ≤ d.severity.rank && b.errors == 0
    let counted := { b.count d.severity with seen := d.key :: b.seen }
    if b.hasRoom then ({ counted with items := b.items ++ [d] }, true)
    else
      let items := if firstError then b.items.dropLast ++ [d] else b.items
      ({ counted with items, dropped := b.dropped + 1 }, false)

/-- Reports several diagnostics in order. -/
def addAll (b : Bag) (ds : List Diagnostic) : Bag := ds.foldl (fun b d => (b.add d).1) b

/-- Whether an error was reported, kept or not. -/
def hasErrors (b : Bag) : Bool := 0 < b.errors

/-- Whether a warning or an error was reported, kept or not. -/
def hasWarnings (b : Bag) : Bool := 0 < b.warnings || b.hasErrors

/-- How many diagnostics of a severity were reported, kept or not. -/
def countOf (b : Bag) (s : Severity) : Nat :=
  if s = .info then b.infos
  else if s = .warning then b.warnings
  else if s = .error then b.errors
  else 0

/-- Whether `x` may stand before `y`: by file, start, end, the more serious first, then by code. -/
def inOrder (x y : Diagnostic) : Bool :=
  let order :=
    (compare x.span.file y.span.file).then <|
    (compare x.span.start y.span.start).then <|
    (compare x.span.stop y.span.stop).then <|
    (compare y.severity.rank x.severity.rank).then <|
    compare x.code.number y.code.number
  order != .gt

/-- The entries ordered by place; equal places keep their order. -/
def sort (b : Bag) : Bag := { b with items := b.items.mergeSort inOrder }

end Bag

end CatalystAsm
