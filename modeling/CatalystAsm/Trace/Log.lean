import CatalystAsm.Trace.Event
import CatalystAsm.Trace.Ring

/-!
# Logs of spans and points

A log numbers its events and its spans, and goes on from where the logs before it stopped counting.
Events that its level records go to its stream, to its ring or to both. A span that is not recorded
is passive: it has no number, and its children belong to its own parent.
-/

namespace CatalystAsm.Trace

/-- What a log is asked to be. -/
structure Config where
  level : Level := {}
  mode : Mode := {}
  format : Format := {}
  /-- the name of the output file, which can tell the format -/
  path : Bytes := []
  ringSize : Int := 0
  deriving Repr, Inhabited

/-- The counters of all logs together. -/
structure Counters where
  /-- how many events were numbered -/
  events : UInt64 := 0
  /-- how many spans were numbered -/
  spans : UInt64 := 0
  /-- how many recorded spans have not ended -/
  openSpans : Int64 := 0
  deriving Repr, Inhabited

/-- A span that was begun. -/
structure Span where
  /-- whether the span is recorded -/
  isActive : Bool := false
  /-- the number of the span, zero when it is passive -/
  id : UInt64 := 0
  parent : UInt64
  scope : Scope
  name : Bytes
  started : Instant := {}
  ended : Bool := false
  extras : Option Extras := none
  /-- whether the span belongs to a log at all -/
  attached : Bool := true
  deriving Repr, Inhabited

/-- An event in a ring, with the place of the span that it ends. -/
structure Kept where
  event : Event
  ends : Option Nat := none
  deriving Repr, Inhabited

/-- A log. -/
structure Log where
  level : Level := {}
  /-- the format of the stream -/
  stream : Option Format := none
  ring : Option (Ring Kept) := none
  /-- what was written to the stream, last piece first -/
  written : List Bytes := []
  counters : Counters := {}
  /-- the spans that were begun, in order -/
  spans : List Span := []
  deriving Repr, Inhabited

namespace Log

/-- The message about a mode that is none. -/
def modeMessage (m : Mode) : Bytes := .ofString "unknown storage mode: " ++ .ofString m.name

/-- An empty log. With level `off` it records nothing, with level `error` it has a ring only. -/
def ofConfig (c : Config) (counters : Counters := {}) : Except Bytes Log :=
  let ring : Option (Ring Kept) := some (.ofCapacity c.ringSize)
  let stream := some (c.format.resolve c.path)
  if c.level = .off then .ok { counters }
  else if c.level = .error || c.mode = .ring then .ok { level := c.level, ring, counters }
  else if c.mode = .stream then .ok { level := c.level, stream, counters }
  else if c.mode = .both then .ok { level := c.level, stream, ring, counters }
  else .error (modeMessage c.mode)

/-- Whether an event is recorded. -/
def accepts (l : Log) (e : Event) : Bool := l.level.records e.scope || e.kind == .heartbeat

/-- Records an event. -/
def emit (l : Log) (e : Event) (ends : Option Nat) : Log :=
  if l.accepts e then
    { l with
      written := l.stream.elim l.written fun f => e.line f :: l.written
      ring := l.ring.map (·.push { event := e, ends }) }
  else l

/-- Numbers an event and records it. -/
def number (l : Log) (e : Event) (ends : Option Nat) : Log :=
  let seq := l.counters.events + 1
  { l with counters := { l.counters with events := seq } }.emit { e with seq } ends

/-- Whether spans and points of a scope are recorded. -/
def records (l : Log) (s : Scope) : Bool := l.level.isEnabled && l.level.records s

/-- Begins a span under the span with number `parent`; zero is no parent. Also gives the place of
the span in the log. -/
def begin_ (l : Log) (now : Instant) (scope : Scope) (name : Bytes) (parent : UInt64)
    (attached : Bool) : Log × Nat :=
  let span : Span := { parent, scope, name, attached }
  let place := l.spans.length
  if attached && l.records scope then
    let id := l.counters.spans + 1
    let counters := { l.counters with spans := id, openSpans := l.counters.openSpans + 1 }
    let spans := l.spans ++ [{ span with isActive := true, id, started := now }]
    let event : Event := { time := now, kind := .spanBegin, scope, span := id, parent, name }
    ({ l with counters, spans }.number event none, place)
  else ({ l with spans := l.spans ++ [span] }, place)

/-- The span at a place. -/
def span? (l : Log) (place : Option Nat) : Option Span := place.bind fun n => l.spans[n]?

/-- The number of the span at a place, zero when it is passive. -/
def idOf (l : Log) (place : Option Nat) : UInt64 := ((l.span? place).map (·.id)).getD 0

/-- Begins a span inside another one. Without one, the new span belongs to no log. -/
def child (l : Log) (now : Instant) (place : Option Nat) (scope : Scope) (name : Bytes) :
    Log × Nat :=
  match l.span? place with
  | none => l.begin_ now scope name 0 false
  | some s => l.begin_ now scope name (if s.isActive then s.id else s.parent) s.attached

/-- Begins a span inside the current one, or at the root when there is none. -/
def beginUnder (l : Log) (now : Instant) (current : Option Nat) (scope : Scope) (name : Bytes) :
    Log × Nat :=
  match l.span? current with
  | none => l.begin_ now scope name 0 true
  | some _ => l.child now current scope name

/-- Ends the span at a place, once. -/
def end_ (l : Log) (now : Instant) (place : Option Nat) (detail : Bytes) : Log :=
  match place, l.span? place with
  | some n, some s =>
    if !s.isActive || s.ended then l
    else
      let event : Event :=
        { time := now
          kind := .spanEnd
          scope := s.scope
          span := s.id
          parent := s.parent
          name := s.name
          detail
          duration := now.ns - s.started.ns
          extras := s.extras }
      let counters := { l.counters with openSpans := l.counters.openSpans - 1 }
      let spans := l.spans.set n { s with ended := true }
      { l with counters, spans }.number event (some n)
  | _, _ => l

/-- The event with texts that were attached to its span later. They show only if the span had texts
when it ended. -/
def Kept.refresh (n : Nat) (extras : Extras) (k : Kept) : Kept :=
  if k.ends = some n && k.event.extras.isSome then
    { k with event := { k.event with extras := some extras } }
  else k

/-- Attaches a text to the span at a place. -/
def attach (l : Log) (place : Option Nat) (name text : Bytes) : Log :=
  match place, l.span? place with
  | some n, some s =>
    if !s.isActive then l
    else
      let extras := (s.extras.getD []).put name text
      { l with
        spans := l.spans.set n { s with extras := some extras }
        ring := l.ring.map (·.map (Kept.refresh n extras)) }
  | _, _ => l

/-- Records a point under the span with number `parent`. -/
def point (l : Log) (now : Instant) (scope : Scope) (name detail : Bytes) (parent : UInt64) :
    Log :=
  if l.records scope then
    l.number { time := now, kind := .point, scope, parent, name, detail } none
  else l

/-- What was written to the stream. -/
def output (l : Log) : Bytes := .concat l.written.reverse

/-- The log with nothing written. -/
def flushed (l : Log) : Log := { l with written := [] }

/-- The events in the ring, oldest first. -/
def snapshot? (l : Log) : Option (List Event) := l.ring.map fun r => r.toList.map (·.event)

/-- The lines of the events in the ring. -/
def dump? (l : Log) (f : Format) : Option Bytes :=
  l.snapshot?.map fun es => es.flatMap (·.line f)

end Log

end CatalystAsm.Trace
