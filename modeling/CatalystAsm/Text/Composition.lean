import Std.Data.HashMap
import CatalystAsm.Text.CanonicalData
import CatalystAsm.Text.Character

/-!
# Composed normal form

Text is brought into canonical composed form: every character is decomposed, marks are put in the
order of their combining classes, and pairs are composed again where nothing blocks them. Before
that, text is made safe for streams: no more than thirty non-starters follow each other without a
grapheme joiner between them.
-/

namespace CatalystAsm.Text

namespace Canonical

/-- The combining classes that are not zero. -/
def classes : Std.HashMap Nat Nat :=
  .ofList ((Table.rows classRows).flatMap fun
    | [lo, hi, k] => (List.range (hi + 1 - lo)).map fun i => (lo + i, k)
    | _ => [])

/-- The canonical decompositions. -/
def decompositions : Std.HashMap Nat (List Nat) :=
  .ofList ((Table.rows decompositionRows).filterMap fun
    | code :: parts => some (code, parts)
    | [] => none)

/-- The ranges of code points that are not composed again. -/
def exclusions : Array (Nat × Nat) := Table.ranges exclusionRows

/-- The pairs that compose. -/
def compositions : Std.HashMap (Nat × Nat) Nat :=
  .ofList ((Table.rows decompositionRows).filterMap fun
    | [code, a, b] => if Table.contains exclusions code then none else some ((a, b), code)
    | _ => none)

/-- The code points that compose with one before them, conjoining vowels and finals apart. -/
def seconds : Std.HashMap Nat Unit := .ofList (compositions.toList.map fun ((_, b), _) => (b, ()))

/-- Leading and trailing non-starters where the compatibility form differs. -/
def nonStarterExceptions : Std.HashMap Nat (Nat × Nat) :=
  .ofList ((Table.rows nonStarterRows).filterMap fun
    | [code, lead, trail] => some (code, lead, trail)
    | _ => none)

end Canonical

/-- The combining class of a code point. -/
def combiningClass (code : Nat) : Nat := Canonical.classes.getD code 0

/-! ## Hangul syllables -/

def syllableBase : Nat := 0xac00

def leadBase : Nat := 0x1100

def vowelBase : Nat := 0x1161

def finalBase : Nat := 0x11a7

/-- Whether a code point is a precomposed syllable. -/
def isSyllable (code : Nat) : Bool := syllableBase ≤ code && code < syllableBase + 11172

/-- Whether a code point is a conjoining vowel or final. -/
def isVowelOrFinal (code : Nat) : Bool :=
  (vowelBase ≤ code && code < vowelBase + 21) || (finalBase < code && code < finalBase + 28)

/-- The parts of a precomposed syllable. -/
def syllableParts (code : Nat) : List Nat :=
  let i := code - syllableBase
  let parts := [leadBase + i / 588, vowelBase + i % 588 / 28]
  if i % 28 = 0 then parts else parts ++ [finalBase + i % 28]

/-! ## Decomposition -/

/-- The full decomposition, with `depth` steps at most. -/
def decomposeWithin : Nat → Nat → List Nat
  | 0, code => [code]
  | depth + 1, code =>
    match Canonical.decompositions[code]? with
    | some parts => parts.flatMap (decomposeWithin depth)
    | none => [code]

/-- The full canonical decomposition of a code point; no chain of decompositions is longer than
four. -/
def decompose (code : Nat) : List Nat :=
  if isSyllable code then syllableParts code else decomposeWithin 4 code

/-- Sorts each run of marks by combining class, keeping the order of equal classes. -/
def sortMarks (codes : List Nat) : List Nat :=
  let flush (marks : List Nat) (out : List Nat) : List Nat :=
    (marks.reverse.mergeSort fun a b => combiningClass a ≤ combiningClass b).reverse ++ out
  let (marks, out) := codes.foldl (fun (marks, out) code =>
    if combiningClass code = 0 then (([] : List Nat), code :: flush marks out)
    else (code :: marks, out)) ([], [])
  (flush marks out).reverse

/-! ## Composition -/

/-- The code point that two adjacent ones compose to. -/
def composePair (a b : Nat) : Option Nat :=
  if leadBase ≤ a && a < leadBase + 19 && vowelBase ≤ b && b < vowelBase + 21 then
    some (syllableBase + ((a - leadBase) * 21 + (b - vowelBase)) * 28)
  else if isSyllable a && (a - syllableBase) % 28 == 0 && finalBase < b && b < finalBase + 28 then
    some (a + (b - finalBase))
  else Canonical.compositions[(a, b)]?

/-- A text that is being composed: the last starter, the marks after it that stayed, last first,
and what stands before the starter, last first. -/
structure Composing where
  before : List Nat := []
  starter : Option Nat := none
  marks : List Nat := []

namespace Composing

/-- Everything so far, last first. -/
def reversed (s : Composing) : List Nat := s.marks ++ s.starter.toList ++ s.before

/-- Takes one more code point: it composes with the starter unless a mark of the same or a higher
class, or any mark if it is a starter itself, stands between them. -/
def push (s : Composing) (code : Nat) : Composing :=
  let class_ := combiningClass code
  let blocked := match s.marks with
    | [] => false
    | mark :: _ => class_ ≤ combiningClass mark
  let composed := if blocked then none else s.starter.bind (composePair · code)
  match composed with
  | some c => { s with starter := some c }
  | none =>
    if class_ = 0 then { before := s.reversed, starter := some code }
    else { s with marks := code :: s.marks }

end Composing

/-- Composes a decomposed and sorted text. -/
def composeCodes (codes : List Nat) : List Nat := (codes.foldl Composing.push {}).reversed.reverse

/-! ## Runs of non-starters -/

/-- Whether a code point counts as a non-starter: it has a combining class or composes with one
before it. -/
def isNonStarter (code : Nat) : Bool :=
  combiningClass code != 0 || Canonical.seconds.contains code || isVowelOrFinal code

/-- How many non-starters the form of a code point begins and ends with. -/
def nonStarters (code : Nat) : Nat × Nat :=
  match Canonical.nonStarterExceptions[code]? with
  | some counts => counts
  | none =>
    let parts := decompose code
    ((parts.takeWhile isNonStarter).length, (parts.reverse.takeWhile isNonStarter).length)

/-- The most non-starters that may follow each other. -/
def maxNonStarters : Nat := 30

/-- The character that divides long runs of non-starters. -/
def graphemeJoiner : Nat := 0x34f

/-- Puts a grapheme joiner before each non-starter that would make a run too long. -/
def limitRuns (codes : List Nat) : List Nat :=
  let step := fun (state : Nat × List Nat) (code : Nat) =>
    let (run, out) := state
    let (lead, trail) := nonStarters code
    if lead = 0 then (trail, code :: out)
    else if maxNonStarters < run + lead then (lead, code :: graphemeJoiner :: out)
    else (run + lead, code :: out)
  (codes.foldl step (0, [])).2.reverse

/-- The composed normal form of a valid text. -/
def compose (b : Bytes) : Bytes :=
  (composeCodes (sortMarks ((limitRuns (Utf8.codePoints b)).flatMap decompose))).flatMap Utf8.encode

end CatalystAsm.Text
