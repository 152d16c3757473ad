import CatalystAsm.Host.Program
import CatalystAsm.Trace.Log

/-!
# Programs that keep a log

A program that begins and ends spans and records points, each with the time when it happens.
-/

namespace CatalystAsm

/-- A program that keeps a log. -/
abbrev Traced := StateT Trace.Log Program

namespace Traced

open Trace

/-- Changes the log, given the time. -/
def record {α : Type} (change : Log → Instant → Log × α) : Traced α := do
  let now ← (Program.now : Program Instant)
  let (log, result) := change (← get) now
  set log
  return result

/-- Begins a span inside the one at `current`, or at the root when there is none. -/
def beginUnder (current : Option Nat) (scope : Trace.Scope) (name : Bytes) : Traced Nat :=
  record fun log now => log.beginUnder now current scope name

/-- Begins a span inside another one. -/
def child (place : Nat) (scope : Trace.Scope) (name : Bytes) : Traced Nat :=
  record fun log now => log.child now (some place) scope name

/-- Ends a span. -/
def end_ (place : Nat) (detail : Bytes) : Traced Unit :=
  record fun log now => (log.end_ now (some place) detail, ())

/-- Attaches a text to a span. -/
def attach (place : Nat) (name text : Bytes) : Traced Unit :=
  modify fun log => log.attach (some place) name text

/-- Records a point under a span. -/
def point (place : Nat) (scope : Trace.Scope) (name detail : Bytes) : Traced Unit :=
  record fun log now => (log.point now scope name detail (log.idOf (some place)), ())

end Traced

end CatalystAsm
