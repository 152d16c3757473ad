import CatalystAsm.Proofs.Trace.Span
import Mathlib.Data.List.Induction
import Mathlib.Data.List.Nodup

/-!
# The forest of spans

What every call keeps, any number of calls keeps. So each entry of a history is explained by the
entries before it, whatever the calls are (`Log.spans_form_forest`), and the ring of the log holds
the end of the history.
-/

namespace CatalystAsm.Trace

/-! ## Any number of calls -/

/-- An event without the texts that were attached to its span. -/
def Event.withoutExtras (e : Event) : Event := { e with extras := none }

namespace Log

variable {start : Counters} {level : Level} {history : List Entry} {l m : Log} {now : Instant}
  {c : Call} {capacity : Nat} {e : Entry}

/-- **One call** leads where its history leads. -/
theorem Follows.perform (h : Follows start level history l) (now : Instant) (c : Call) :
    Follows start level (history ++ [⟨c, l.emission now c⟩]) (l.perform now c) := by
  cases c with
  | begin_ scope name parent => exact h.begin_ rfl
  | child place scope name => exact h.begin_ rfl
  | attach place name text => exact h.attach now place name text
  | end_ place detail => exact h.end_ now place detail

theorem performAll_concat (l : Log) (calls : List (Instant × Call)) (c : Instant × Call) :
    l.performAll (calls ++ [c]) = (l.performAll calls).perform c.1 c.2 := List.foldl_concat ..

/-- The history of calls in two parts, the second one from the log that the first one leaves. -/
theorem history_append (l : Log) (before after : List (Instant × Call)) :
    l.history (before ++ after) = l.history before ++ (l.performAll before).history after := by
  induction before generalizing l with
  | nil => rfl
  | cons c before ih => exact congrArg (_ :: ·) (ih (l.perform c.1 c.2))

/-- An entry of a history is a call on the log that the calls before it lead to. -/
theorem exists_of_history_eq {calls : List (Instant × Call)} {pre post : List Entry} {q : Entry}
    (h : l.history calls = pre ++ q :: post) : ∃ before now,
      l.history before = pre ∧ q.event = (l.performAll before).emission now q.call := by
  induction pre generalizing l calls with
  | nil =>
    cases calls with
    | nil => cases h
    | cons c calls =>
      obtain ⟨rfl, -⟩ := List.cons.inj h
      exact ⟨[], c.1, rfl, rfl⟩
  | cons p pre ih =>
    cases calls with
    | nil => cases h
    | cons c calls =>
      obtain ⟨rfl, hrest⟩ := List.cons.inj h
      obtain ⟨before, now, rfl, hevent⟩ := ih hrest
      exact ⟨c :: before, now, rfl, hevent⟩

/-- **Any number of calls** leads where their history leads. -/
theorem follows_performAll (start : Counters) (level : Level) (capacity : Int)
    (calls : List (Instant × Call)) :
    Follows start level ((inMemory start level capacity).history calls)
      ((inMemory start level capacity).performAll calls) := by
  induction calls using List.reverseRecOn with
  | nil => exact follows_inMemory start level capacity
  | append_singleton calls c ih =>
    rw [history_append, performAll_concat]
    exact ih.perform c.1 c.2

/-! ## The ring of a log -/

/-- The ring of a log holds the latest events of its history, up to the texts of spans. -/
def Keeps (capacity : Nat) (history : List Entry) (l : Log) : Prop :=
  ∃ r, l.ring = some r ∧ r.IsSound ∧ r.capacity = capacity ∧
    r.toList.map (·.event.withoutExtras)
      = ((emitted history).map Event.withoutExtras).rtake capacity

/-- The ring of a new log is empty, as its history is. -/
theorem keeps_inMemory (start : Counters) (level : Level) (capacity : Int) :
    Keeps (Ring.ofCapacity capacity : Ring Kept).capacity [] (inMemory start level capacity) := by
  refine ⟨_, rfl, Ring.isSound_ofCapacity capacity, rfl, ?_⟩
  rw [Ring.toList_ofCapacity]
  exact List.drop_nil.symm

/-- A call that emits an event puts it into the ring as the latest one. -/
theorem Keeps.emits {b : Log} {k : Option Kept} (h : Keeps capacity history l)
    (hm : Emits b m k) (hb : b.ring = l.ring) (he : e.event = k.map (·.event)) :
    Keeps capacity (history ++ [e]) m := by
  obtain ⟨r, hr, hsound, rfl, htoList⟩ := h
  have hring : m.ring = some (k.elim r r.push) := by
    rw [hm.ring, hb, hr]
    rfl
  refine ⟨_, hring, ?_⟩
  rw [emitted_concat, he]
  cases k with
  | none =>
    refine ⟨hsound, rfl, ?_⟩
    rw [Option.map_none, Option.toList_none, List.append_nil]
    exact htoList
  | some k =>
    refine ⟨hsound.push k, r.capacity_push k, ?_⟩
    rw [Option.map_some, Option.toList_some, Option.elim_some, hsound.toList_push, map_rtake,
      List.map_append, htoList, rtake_rtake_append, List.map_append]
    rfl

/-- Texts that are attached later change nothing else of an event. -/
theorem withoutExtras_refresh (n : Nat) (extras : Extras) (k : Kept) :
    (Kept.refresh n extras k).event.withoutExtras = k.event.withoutExtras := by
  unfold Kept.refresh
  split <;> rfl

/-- Attaching a text changes the events of the ring in their texts alone. -/
theorem Keeps.attach (h : Keeps capacity history l) (now : Instant) (place : Option Nat)
    (name text : Bytes) :
    Keeps capacity
      (history ++ [⟨.attach place name text, l.emission now (.attach place name text)⟩])
      (l.attach place name text) := by
  have hidle := h.emits (e := ⟨.attach place name text, none⟩) (emits_none l) rfl rfl
  rw [emission_attach]
  unfold Log.attach
  split
  · split
    · exact hidle
    · obtain ⟨r, hr, hsound, hcapacity, htoList⟩ := hidle
      rename_i n s _ _
      refine ⟨_, congrArg (Option.map _) hr, hsound.map _, hcapacity, ?_⟩
      rw [Ring.toList_map, List.map_map, ← htoList]
      exact List.map_congr_left fun k _ => withoutExtras_refresh n _ k
  · exact hidle

/-- One call puts the event that it emits into the ring, if there is one. -/
theorem Keeps.perform (hkeeps : Keeps capacity history l) (h : Follows start level history l)
    (now : Instant) (c : Call) :
    Keeps capacity (history ++ [⟨c, l.emission now c⟩]) (l.perform now c) := by
  have hbegun {scope : Scope} {name : Bytes} (hc : c.begun? = some (scope, name)) :
      Keeps capacity (history ++ [⟨c, l.emission now c⟩]) (l.perform now c) := by
    rw [perform_of_begun hc, emission_of_begun l now hc]
    refine hkeeps.emits (emits_begin l now scope name (l.above c).1 (l.above c).2) rfl ?_
    cases (l.above c).2 && l.records scope <;> rfl
  cases c with
  | begin_ scope name parent => exact hbegun rfl
  | child place scope name => exact hbegun rfl
  | attach place name text => exact hkeeps.attach now place name text
  | end_ place detail =>
    rcases h.end_cases now place detail with ⟨n, s, -, -, -, -, hemission, hemits⟩ |
      ⟨-, hemission, hend⟩
    · rw [hemission]
      exact hkeeps.emits hemits rfl rfl
    · rw [hemission]
      show Keeps capacity _ (l.end_ now place detail)
      rw [hend]
      exact hkeeps.emits (emits_none l) rfl rfl

/-- After any number of calls the ring holds the latest events. -/
theorem keeps_performAll (start : Counters) (level : Level) (capacity : Int)
    (calls : List (Instant × Call)) :
    Keeps (Ring.ofCapacity capacity : Ring Kept).capacity
      ((inMemory start level capacity).history calls)
      ((inMemory start level capacity).performAll calls) := by
  induction calls using List.reverseRecOn with
  | nil => exact keeps_inMemory start level capacity
  | append_singleton calls c ih =>
    rw [history_append, performAll_concat]
    exact ih.perform (follows_performAll start level capacity calls) c.1 c.2

/-! ## The numbers of spans -/

/-- As long as a number of 64 bits counts them, spans have different numbers. None of them is zero
before the counter comes to its end. -/
theorem Follows.nodup_ids (h : Follows start level history l) :
    ((begins history).length < UInt64.size → ((begins history).map (·.span)).Nodup) ∧
    (start.spans.toNat + (begins history).length < UInt64.size →
      0 ∉ (begins history).map (·.span)) := by
  rw [h.ids]
  have hsize : UInt64.size = 2 ^ 64 := rfl
  constructor
  · intro hcount
    refine List.Nodup.map_on ?_ List.nodup_range
    intro i hi j hj heq
    have hi := List.mem_range.mp hi
    have hj := List.mem_range.mp hj
    have hnumber := congrArg UInt64.toNat ((UInt64.add_right_inj _).mp heq)
    rw [UInt64.toNat_ofNat_of_lt' (by omega), UInt64.toNat_ofNat_of_lt' (by omega)] at hnumber
    omega
  · intro hcount hzero
    obtain ⟨i, hi, heq⟩ := List.mem_map.mp hzero
    have hi := List.mem_range.mp hi
    have hnumber := congrArg UInt64.toNat heq
    rw [UInt64.toNat_add, UInt64.toNat_ofNat_of_lt' (by omega), Nat.mod_eq_of_lt (by omega)]
      at hnumber
    rw [UInt64.toNat_zero] at hnumber
    omega

/-- **The spans of a trace form a forest.** Take a ring of any level and capacity, and any calls
that begin spans at the root or inside others, attach texts to them and end them. A call that begins
a span emits an event exactly when the level records its scope and there is a span or the root for
it to stand under. The event has its scope and name, and as its parent the number of the nearest
span around it that was recorded, or the number given at the root. A call that ends a span emits an
event exactly when the beginning of the span was recorded before and no end of it was, and repeats
number, parent, scope and name. Attaching emits nothing. The counters go on from where they
stand when the log is made. Spans are numbered in the order in which they are recorded, so the
numbers are different, and not zero before the counter comes to its end. The counter of open spans
grows by the spans that are recorded and have not ended, which are those that began without those
that ended. The ring holds the latest of these events, up to texts that were attached to their
spans. -/
theorem spans_form_forest (start : Counters) (level : Level) (capacity : Int)
    (calls : List (Instant × Call)) :
    let log := (inMemory start level capacity).performAll calls
    let history := (inMemory start level capacity).history calls
    (∀ pre q post, history = pre ++ q :: post →
      (∀ scope name, q.call.begun? = some (scope, name) →
        (q.event.isSome = true ↔
          (level.isEnabled = true ∧ level.records scope = true) ∧ ∃ d, Under pre q.call d) ∧
        ∀ e, q.event = some e → e.kind = .spanBegin ∧ e.scope = scope ∧ e.name = name ∧
          ∀ d, Under pre q.call d ↔ d = e.parent) ∧
      (∀ place detail, q.call = .end_ place detail →
        (q.event.isSome = true ↔ ∃ n older b, place = some n ∧ Begun pre n older b ∧
          b.event.isSome = true ∧ ¬IsEnded pre n) ∧
        ∀ e, q.event = some e → ∃ n older b f, place = some n ∧ Begun pre n older b ∧
          b.event = some f ∧ e.kind = .spanEnd ∧ e.span = f.span ∧ e.parent = f.parent ∧
          e.scope = f.scope ∧ e.name = f.name) ∧
      ∀ place name text, q.call = .attach place name text → q.event = none) ∧
    (begins history).map (·.span) = (List.range (begins history).length).map
      (fun i => start.spans + UInt64.ofNat (i + 1)) ∧
    ((begins history).length < UInt64.size → ((begins history).map (·.span)).Nodup) ∧
    (start.spans.toNat + (begins history).length < UInt64.size →
      0 ∉ (begins history).map (·.span)) ∧
    log.counters.openSpans = start.openSpans + Int64.ofNat log.pending ∧
    log.pending + (ends history).length = (begins history).length ∧
    ∃ kept, log.snapshot? = some kept ∧ kept.map Event.withoutExtras
      = ((emitted history).map Event.withoutExtras).rtake
        (if capacity ≤ 0 then 4096 else capacity.toNat) := by
  intro log history
  have hlog : Follows start level history log := follows_performAll start level capacity calls
  refine ⟨?_, hlog.ids, hlog.nodup_ids.1, hlog.nodup_ids.2, hlog.openSpans, hlog.pending, ?_⟩
  · -- an entry has the event that its call emits from the log before it
    intro pre q post hsplit
    obtain ⟨before, now, rfl, hevent⟩ := exists_of_history_eq hsplit
    have hbefore := follows_performAll start level capacity before
    rw [hevent]
    refine ⟨?_, ?_, ?_⟩
    · intro scope name hc
      obtain ⟨hemits, hfields⟩ := hbefore.emission_begun now hc
      refine ⟨hemits, fun e he => ?_⟩
      obtain ⟨hkind, hscope, hname, hunder, -⟩ := hfields e he
      refine ⟨hkind, hscope, hname, fun d => ?_⟩
      -- a call stands under one number at most
      rw [hbefore.under_iff] at hunder ⊢
      rw [← hunder.2]
      exact and_iff_right hunder.1
    · intro place detail hc
      rw [hc]
      exact hbefore.emission_end
    · intro place name text hc
      rw [hc]
      exact emission_attach _ now place name text
  · obtain ⟨r, hr, -, -, htoList⟩ := keeps_performAll start level capacity calls
    refine ⟨_, congrArg (Option.map _) hr, ?_⟩
    rw [List.map_map]
    exact htoList

end Log

end CatalystAsm.Trace
