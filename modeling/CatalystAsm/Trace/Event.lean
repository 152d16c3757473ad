import CatalystAsm.Decimal
import CatalystAsm.Text.Json
import CatalystAsm.Time
import CatalystAsm.Trace.Basic

/-!
# Trace events and their lines
-/

namespace CatalystAsm.Trace

/-- Texts by name, as they were attached to a span. -/
abbrev Extras := List (Bytes × Bytes)

/-- The texts in the order of their names. -/
def Extras.sorted (x : Extras) : Extras := x.mergeSort fun a b => Bytes.atMost a.1 b.1

/-- The texts with one more; a text of the same name is replaced. -/
def Extras.put (x : Extras) (name text : Bytes) : Extras :=
  x.filter (·.1 != name) ++ [(name, text)]

/-- One event of a trace. -/
structure Event where
  time : Instant := {}
  seq : UInt64 := 0
  kind : Kind
  scope : Scope
  span : UInt64 := 0
  parent : UInt64 := 0
  name : Bytes := []
  detail : Bytes := []
  /-- the nanoseconds that a span took -/
  duration : Int := 0
  extras : Option Extras := none
  deriving DecidableEq, Repr, Inhabited

namespace Event

/-- What is shown of the attached texts. -/
def extraText (e : Event) : Bytes :=
  match e.extras with
  | none | some [] => []
  | some x => .concat [[0x20, 0x7b], .intercalate (.ofString ", ") (x.sorted.map fun (name, text) =>
      name ++ Bytes.char '=' :: text), [0x7d]]

/-- An event as a line of text: time and number, then a name indented by scope. -/
def text (e : Event) : Bytes :=
  let depth := e.scope.number.toNat - Scope.build.number.toNat
  .concat [.ofString "[", e.time.clock, .ofString "] #",
    Bytes.padRight 5 0x20 (.ofNat e.seq.toNat), .ofString " ", List.replicate (2 * depth) 0x20,
    .ofString e.kind.mark, e.name,
    if e.detail.isEmpty then [] else .concat [.ofString " (", e.detail, .ofString ")"],
    e.extraText,
    if e.kind = .spanEnd then
      .concat [.ofString " [", Decimal.milliseconds 3 e.duration, .ofString "ms]"]
    else [],
    [0x0a]]

/-- An event as a JSON object; what is zero or empty is left out. -/
def json (e : Event) : Json :=
  let extras := match e.extras with
    | none | some [] => []
    | some x =>
      [(Bytes.ofString "extra", .object (x.sorted.map fun (name, text) => (name, .text text)))]
  .object ([Json.textField "time" e.time.stamp, Json.natField "seq" e.seq.toNat,
    Json.textField "kind" (.ofString e.kind.name),
    Json.textField "scope" (.ofString e.scope.name)] ++
    Json.intField? "span_id" e.span.toNat ++ Json.intField? "parent_id" e.parent.toNat ++
    [Json.textField "name" e.name] ++ Json.textField? "detail" e.detail ++
    Json.intField? "dur_us" (e.duration.tdiv 1000) ++ extras)

/-- An event as a line of a format. -/
def line (e : Event) (f : Format) : Bytes :=
  if f = .json then e.json.compact ++ [0x0a] else e.text

end Event

end CatalystAsm.Trace
