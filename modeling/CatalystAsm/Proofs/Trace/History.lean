import CatalystAsm.Proofs.Trace.Ring

/-!
# Calls and their history

What a log emits is told as a history: every call with the event that it emitted, if any. The
history alone tells under which number a span belongs (`Under`): under its parent when that was
recorded, and else wherever the parent itself belongs, up to a number that was given. `Log.Emits`
says what a call does to a log: it changes spans, and it may put one event into the ring.
-/

namespace CatalystAsm.Trace

/-- What is asked of a log about spans. A span is called by its place in the order in which spans
are begun; no place is no span. -/
inductive Call where
  /-- a span under the span with number `parent`; zero is none -/
  | begin_ (scope : Scope) (name : Bytes) (parent : UInt64)
  | child (place : Option Nat) (scope : Scope) (name : Bytes)
  | attach (place : Option Nat) (name text : Bytes)
  | end_ (place : Option Nat) (detail : Bytes)

/-- Scope and name of the span that a call begins. -/
def Call.begun? : Call → Option (Scope × Bytes)
  | begin_ scope name _ => some (scope, name)
  | child _ scope name => some (scope, name)
  | attach .. => none
  | end_ .. => none

/-- A call with the event that it emitted. -/
structure Entry where
  call : Call
  event : Option Event

namespace Log

/-- The log after a call. -/
def perform (l : Log) (now : Instant) : Call → Log
  | .begin_ scope name parent => (l.begin_ now scope name parent true).1
  | .child place scope name => (l.child now place scope name).1
  | .attach place name text => l.attach place name text
  | .end_ place detail => l.end_ now place detail

/-- The event that a call emits: what is found in an empty ring after it. -/
def emission (l : Log) (now : Instant) (c : Call) : Option Event :=
  ({ l with ring := some (.ofCapacity 1) }.perform now c).snapshot?.bind List.head?

/-- The log after calls one after another. -/
def performAll (l : Log) (calls : List (Instant × Call)) : Log :=
  calls.foldl (fun l c => l.perform c.1 c.2) l

/-- The history of calls one after another. -/
def history (l : Log) : List (Instant × Call) → List Entry
  | [] => []
  | c :: calls => ⟨c.2, l.emission c.1 c.2⟩ :: (l.perform c.1 c.2).history calls

end Log

/-! ## What a history tells -/

/-- How many spans are begun in a history. -/
def spanCount (history : List Entry) : Nat := history.countP (·.call.begun?.isSome)

/-- The events of a history. -/
def emitted (history : List Entry) : List Event := history.filterMap (·.event)

/-- The events of a history that begin spans. -/
def begins (history : List Entry) : List Event := (emitted history).filter (·.kind = .spanBegin)

/-- The events of a history that end spans. -/
def ends (history : List Entry) : List Event := (emitted history).filter (·.kind = .spanEnd)

/-- The span at place `n` is begun by the entry `q`, behind the entries `older`. -/
structure Begun (history : List Entry) (n : Nat) (older : List Entry) (q : Entry) : Prop where
  split : older ++ [q] <+: history
  begins : q.call.begun?.isSome = true
  place : spanCount older = n

/-- The end of the span at place `n` was recorded. -/
def IsEnded (history : List Entry) (n : Nat) : Prop :=
  ∃ q ∈ history, (∃ detail, q.call = .end_ (some n) detail) ∧ q.event.isSome = true

/-- The number that a call begins its span under, when it comes behind a history: the number that is
given, or that of the nearest recorded span around it, or the number that is given further out. -/
inductive Under : List Entry → Call → UInt64 → Prop
  | given {history : List Entry} {scope : Scope} {name : Bytes} (parent : UInt64) :
    Under history (.begin_ scope name parent) parent
  | recorded {history older : List Entry} {n : Nat} {q : Entry} {b : Event} {scope : Scope}
    {name : Bytes} : Begun history n older q → q.event = some b →
    Under history (.child (some n) scope name) b.span
  | passive {history older : List Entry} {n : Nat} {q : Entry} {d : UInt64} {scope : Scope}
    {name : Bytes} : Begun history n older q → q.event = none → Under older q.call d →
    Under history (.child (some n) scope name) d

section

variable {history older : List Entry} {n : Nat} {q e : Entry}

theorem spanCount_concat : spanCount (history ++ [e])
    = spanCount history + if e.call.begun?.isSome then 1 else 0 := by
  rw [spanCount, spanCount, List.countP_append, List.countP_singleton]

/-- One more entry adds its event, if it has one. -/
theorem emitted_concat : emitted (history ++ [e]) = emitted history ++ e.event.toList := by
  rw [emitted, emitted, List.filterMap_append]
  cases he : e.event <;> simp [he]

/-- What is begun stays begun when the history goes on. -/
theorem Begun.concat (h : Begun history n older q) : Begun (history ++ [e]) n older q :=
  ⟨h.split.trans (List.prefix_append _ _), h.begins, h.place⟩

/-- A span is begun before the last entry or by it. -/
theorem begun_concat_iff : Begun (history ++ [e]) n older q ↔ Begun history n older q ∨
    (older = history ∧ q = e ∧ e.call.begun?.isSome = true ∧ n = spanCount history) := by
  constructor
  · rintro ⟨hsplit, hbegins, hplace⟩
    rcases List.prefix_concat_iff.mp hsplit with heq | hold
    · obtain ⟨rfl, hq⟩ := List.append_inj' heq rfl
      obtain rfl := List.singleton_inj.mp hq
      exact .inr ⟨rfl, rfl, hbegins, hplace.symm⟩
    · exact .inl ⟨hold, hbegins, hplace⟩
  · rintro (hold | ⟨rfl, rfl, hbegins, rfl⟩)
    · exact hold.concat
    · exact ⟨List.prefix_rfl, hbegins, rfl⟩

/-- A span that is begun is counted. -/
theorem Begun.lt (h : Begun history n older q) : n < spanCount history := by
  have hle := h.split.sublist.countP_le (p := fun q : Entry => q.call.begun?.isSome)
  change spanCount (older ++ [q]) ≤ spanCount history at hle
  rw [spanCount_concat, if_pos h.begins, h.place] at hle
  exact hle

/-- A span has ended if it had before, or if the last entry ends it. -/
theorem isEnded_concat_iff : IsEnded (history ++ [e]) n ↔ IsEnded history n ∨
    ((∃ detail, e.call = .end_ (some n) detail) ∧ e.event.isSome = true) := by
  unfold IsEnded
  simp only [List.mem_append, List.mem_singleton, or_and_right, exists_or, exists_eq_left]

end

/-! ## What a call does -/

namespace Log

variable {l : Log} {now : Instant} {scope : Scope} {name detail text : Bytes} {n : Nat}
  {attached : Bool} {s : Span} {c : Call} {place : Option Nat}

/-- The event that begins the next span. -/
def beginEvent (l : Log) (now : Instant) (scope : Scope) (name : Bytes) (parent : UInt64) :
    Event :=
  { time := now, seq := l.counters.events + 1, kind := .spanBegin, scope,
    span := l.counters.spans + 1, parent, name }

/-- The event that ends a span. -/
def endEvent (l : Log) (now : Instant) (s : Span) (detail : Bytes) : Event :=
  { time := now, seq := l.counters.events + 1, kind := .spanEnd, scope := s.scope,
    span := s.id, parent := s.parent, name := s.name, detail,
    duration := now.ns - s.started.ns, extras := s.extras }

/-- What differs between two logs with the same spans and numbers: the number of events, the stream
and the ring, into which an event may have been put. -/
structure Emits (l m : Log) (k : Option Kept) : Prop where
  level : m.level = l.level
  spans : m.spans = l.spans
  spanCount : m.counters.spans = l.counters.spans
  openSpans : m.counters.openSpans = l.counters.openSpans
  ring : m.ring = l.ring.map fun r => k.elim r r.push

theorem emits_none (l : Log) : Emits l l none :=
  ⟨rfl, rfl, rfl, rfl, Option.map_id'.symm⟩

/-- An event that the level records is numbered and put into the ring. -/
theorem emits_number {e : Event} (h : l.level.records e.scope = true) (ends : Option Nat) :
    Emits l (l.number e ends) (some ⟨{ e with seq := l.counters.events + 1 }, ends⟩) := by
  have haccepts : accepts { l with counters := { l.counters with events := l.counters.events + 1 } }
      { e with seq := l.counters.events + 1 } = true := by simp [accepts, h]
  unfold number emit
  dsimp only
  rw [if_pos haccepts]
  exact ⟨rfl, rfl, rfl, rfl, rfl⟩

/-- The span that is begun next. -/
def nextSpan (l : Log) (now : Instant) (scope : Scope) (name : Bytes) (parent : UInt64)
    (attached : Bool) : Span :=
  if attached && l.records scope then
    { parent, scope, name, attached, isActive := true, id := l.counters.spans + 1, started := now }
  else { parent, scope, name, attached }

/-- The log with one more span, which is counted when it is recorded. -/
def addSpan (l : Log) (s : Span) : Log :=
  { l with
    spans := l.spans ++ [s]
    counters := if s.isActive then { l.counters with
        spans := l.counters.spans + 1
        openSpans := l.counters.openSpans + 1 }
      else l.counters }

/-- The log in which the span at place `n` has ended. -/
def closeSpan (l : Log) (n : Nat) (s : Span) : Log :=
  { l with
    spans := l.spans.set n { s with ended := true }
    counters := { l.counters with openSpans := l.counters.openSpans - 1 } }

/-- Beginning a span adds it, and emits an event when it is recorded. -/
theorem emits_begin (l : Log) (now : Instant) (scope : Scope) (name : Bytes) (parent : UInt64)
    (attached : Bool) :
    Emits (l.addSpan (l.nextSpan now scope name parent attached))
      (l.begin_ now scope name parent attached).1
      (if attached && l.records scope then some ⟨l.beginEvent now scope name parent, none⟩
        else none) := by
  unfold begin_ nextSpan
  dsimp only
  cases hactive : attached && l.records scope with
  | true =>
    have hrecords : l.level.records scope = true :=
      (Bool.and_eq_true_iff.mp (Bool.and_eq_true_iff.mp hactive).2).2
    refine emits_number (e := l.beginEvent now scope name parent) ?_ none
    exact hrecords
  | false => exact emits_none _

/-- Ending a span that is open closes it, and emits an event. -/
theorem emits_end_of_open (hspan : l.spans[n]? = some s) (hopen : (s.isActive && !s.ended) = true)
    (hrecords : l.level.records s.scope = true) :
    Emits (l.closeSpan n s) (l.end_ now (some n) detail)
      (some ⟨l.endEvent now s detail, some n⟩) := by
  have hskip : ¬(!s.isActive || s.ended) = true := by
    simp only [Bool.and_eq_true, Bool.not_eq_true'] at hopen
    simp [hopen]
  unfold end_
  rw [show l.span? (some n) = some s from hspan]
  dsimp only
  rw [if_neg hskip]
  exact emits_number hrecords (some n)

/-- Ending what is not open does nothing. -/
theorem end_eq_of_closed (h : ∀ n s, place = some n → l.spans[n]? = some s →
    (s.isActive && !s.ended) = false) : l.end_ now place detail = l := by
  unfold end_
  split
  · rename_i n s hspan
    have hclosed := h n s rfl hspan
    have hskip : (!s.isActive || s.ended) = true := by
      cases hactive : s.isActive <;> cases hended : s.ended <;> simp_all
    rw [if_pos hskip]
  · rfl

end Log

end CatalystAsm.Trace
