import CatalystAsm.Proofs.Trace.History

/-!
# Spans and their history

The spans of a log are those that its history begins, with the numbers that were emitted, and they
have ended when the history tells so. `Log.Follows` is this invariant. It tells what the next call
emits (`Log.Follows.emission_begun`, `Log.Follows.emission_end`), and it is kept by every kind of
call.
-/

namespace CatalystAsm.Trace

/-! ## The invariant -/

/-- A span is what the history tells of the entry `q` that begins it behind the entries `older`. -/
structure Span.Matches (s : Span) (level : Level) (older : List Entry) (q : Entry) : Prop where
  begun : q.call.begun? = some (s.scope, s.name)
  under : ∀ d, Under older q.call d ↔ s.attached = true ∧ d = s.parent
  active : s.isActive = (s.attached && (level.isEnabled && level.records s.scope))
  event : q.event.isSome = s.isActive
  fields : ∀ b, q.event = some b → b.kind = .spanBegin ∧ b.span = s.id ∧
    b.parent = s.parent ∧ b.scope = s.scope ∧ b.name = s.name

/-- The spans of a list are those that a history begins. -/
structure ListsBegun (level : Level) (history : List Entry) (spans : List Span) : Prop where
  length : spans.length = spanCount history
  begun : ∀ n < spans.length, ∃ older q, Begun history n older q
  spans : ∀ n older q, Begun history n older q →
    ∃ s, spans[n]? = some s ∧ s.Matches level older q

/-- The spans of a list have ended when a history tells so. -/
structure ListsEnded (history : List Entry) (spans : List Span) : Prop where
  ended : ∀ n s, spans[n]? = some s → (s.ended = true ↔ IsEnded history n)
  lt : ∀ n, IsEnded history n → n < spans.length

/-- How many spans of a log are recorded and have not ended. -/
def Log.pending (l : Log) : Nat := l.spans.countP fun s => s.isActive && !s.ended

/-- A log stands where its history leads from the counters `start`. -/
structure Log.Follows (start : Counters) (level : Level) (history : List Entry) (l : Log) :
    Prop where
  level_eq : l.level = level
  begun : ListsBegun level history l.spans
  ended : ListsEnded history l.spans
  ids : (begins history).map (·.span)
    = (List.range (begins history).length).map fun i => start.spans + UInt64.ofNat (i + 1)
  spanCount : l.counters.spans = start.spans + UInt64.ofNat (begins history).length
  openSpans : l.counters.openSpans = start.openSpans + Int64.ofNat l.pending
  pending : l.pending + (ends history).length = (begins history).length

section

variable {level : Level} {history : List Entry} {spans : List Span} {n : Nat} {s t : Span}
  {e : Entry}

/-- Every span of the list is begun by an entry of the history, and matches it. -/
theorem ListsBegun.exists_matches (h : ListsBegun level history spans) (hs : spans[n]? = some s) :
    ∃ older q, Begun history n older q ∧ s.Matches level older q := by
  obtain ⟨older, q, hbegun⟩ := h.begun n (List.getElem?_eq_some_iff.mp hs).1
  obtain ⟨t, ht, hmatches⟩ := h.spans n older q hbegun
  obtain rfl := Option.some.inj (hs.symm.trans ht)
  exact ⟨older, q, hbegun, hmatches⟩

/-- The last entry begins one more span. -/
theorem ListsBegun.concat (h : ListsBegun level history spans) (he : e.call.begun?.isSome = true)
    (hs : s.Matches level history e) : ListsBegun level (history ++ [e]) (spans ++ [s]) where
  length := by
    rw [List.length_append, List.length_singleton, spanCount_concat, if_pos he, h.length]
  begun n hn := by
    rw [List.length_append, List.length_singleton] at hn
    rcases Nat.lt_succ_iff_lt_or_eq.mp hn with hlt | rfl
    · obtain ⟨older, q, hbegun⟩ := h.begun n hlt
      exact ⟨older, q, hbegun.concat⟩
    · exact ⟨history, e, begun_concat_iff.mpr (.inr ⟨rfl, rfl, he, h.length⟩)⟩
  spans n older q hbegun := by
    rcases begun_concat_iff.mp hbegun with hold | ⟨rfl, rfl, -, rfl⟩
    · obtain ⟨t, ht, hmatches⟩ := h.spans n older q hold
      exact ⟨t, by rw [List.getElem?_append_left (h.length ▸ hold.lt)]; exact ht, hmatches⟩
    · rw [← h.length]
      exact ⟨s, List.getElem?_concat_length, hs⟩

/-- The last entry begins no span. -/
theorem ListsBegun.concat_other (h : ListsBegun level history spans)
    (he : ¬e.call.begun?.isSome = true) : ListsBegun level (history ++ [e]) spans where
  length := by rw [spanCount_concat, if_neg he]; exact h.length
  begun n hn := by
    obtain ⟨older, q, hbegun⟩ := h.begun n hn
    exact ⟨older, q, hbegun.concat⟩
  spans n older q hbegun := by
    rcases begun_concat_iff.mp hbegun with hold | ⟨-, -, hbegins, -⟩
    · exact h.spans n older q hold
    · exact absurd hbegins he

/-- Setting a place that is there changes this place alone. -/
theorem getElem?_set_of_some (hs : spans[n]? = some s) (m : Nat) :
    (spans.set n t)[m]? = if n = m then some t else spans[m]? := by
  have hlt := (List.getElem?_eq_some_iff.mp hs).1
  rw [List.getElem?_set, if_pos hlt]

/-- Setting a place changes a count by what was there and what is there now. -/
theorem countP_set_add (hs : spans[n]? = some s) (p : Span → Bool) :
    (spans.set n t).countP p + (p s).toNat = spans.countP p + (p t).toNat := by
  obtain ⟨hlt, rfl⟩ := List.getElem?_eq_some_iff.mp hs
  have hcounted : p spans[n] = true → 0 < spans.countP p := fun hp =>
    List.countP_pos_iff.mpr ⟨_, List.getElem_mem hlt, hp⟩
  rw [List.countP_set hlt]
  cases hp : p spans[n] with
  | true =>
    have := hcounted hp
    cases p t <;> simp <;> omega
  | false => cases p t <;> simp

/-- A span changes in nothing that its beginning tells. -/
theorem ListsBegun.set (h : ListsBegun level history spans) (hs : spans[n]? = some s)
    (ht : ∀ older q, s.Matches level older q → t.Matches level older q) :
    ListsBegun level history (spans.set n t) where
  length := List.length_set.trans h.length
  begun m hm := h.begun m (List.length_set ▸ hm)
  spans m older q hbegun := by
    obtain ⟨u, hu, hmatches⟩ := h.spans m older q hbegun
    rw [getElem?_set_of_some hs]
    by_cases hnm : n = m
    · subst hnm
      obtain rfl := Option.some.inj (hs.symm.trans hu)
      exact ⟨t, if_pos rfl, ht older q hmatches⟩
    · exact ⟨u, (if_neg hnm).trans hu, hmatches⟩

/-- A new span has not ended. -/
theorem ListsEnded.concat (h : ListsEnded history spans) (he : e.call.begun?.isSome = true)
    (hs : s.ended = false) : ListsEnded (history ++ [e]) (spans ++ [s]) := by
  have hsame (n : Nat) : IsEnded (history ++ [e]) n ↔ IsEnded history n := by
    rw [isEnded_concat_iff]
    refine or_iff_left ?_
    rintro ⟨⟨detail, hcall⟩, -⟩
    rw [hcall] at he
    cases he
  refine ⟨?_, ?_⟩
  · intro n t ht
    rw [hsame]
    rcases Nat.lt_trichotomy n spans.length with hlt | rfl | hgt
    · rw [List.getElem?_append_left hlt] at ht
      exact h.ended n t ht
    · -- no end of the new span was recorded before it
      obtain rfl := Option.some.inj (List.getElem?_concat_length.symm.trans ht)
      rw [hs]
      refine ⟨fun hended => absurd hended Bool.false_ne_true, fun hbefore => ?_⟩
      exact absurd (h.lt _ hbefore) (Nat.lt_irrefl _)
    · rw [List.getElem?_eq_none (by rw [List.length_append]; exact hgt)] at ht
      cases ht
  · intro n hn
    rw [List.length_append]
    exact Nat.lt_add_right 1 (h.lt n ((hsame n).mp hn))

/-- An entry that emits nothing ends no span. -/
theorem ListsEnded.concat_other (h : ListsEnded history spans) (he : e.event = none) :
    ListsEnded (history ++ [e]) spans := by
  have hsame (n : Nat) : IsEnded (history ++ [e]) n ↔ IsEnded history n := by
    rw [isEnded_concat_iff, he]
    exact or_iff_left fun hnew => nomatch hnew.2
  exact ⟨fun n s hs => (h.ended n s hs).trans (hsame n).symm, fun n hn => h.lt n ((hsame n).mp hn)⟩

/-- A change of a span that leaves whether it has ended. -/
theorem ListsEnded.set (h : ListsEnded history spans) (hs : spans[n]? = some s)
    (ht : t.ended = s.ended) : ListsEnded history (spans.set n t) := by
  refine ⟨?_, fun m hm => (h.lt m hm).trans_eq List.length_set.symm⟩
  intro m u hu
  rw [getElem?_set_of_some hs] at hu
  split at hu
  · rename_i hnm
    subst hnm
    cases hu
    rw [ht]
    exact h.ended n s hs
  · exact h.ended m u hu

/-- The last entry ends a span. -/
theorem ListsEnded.set_ended (h : ListsEnded history spans) (hs : spans[n]? = some s)
    (ht : t.ended = true) {detail : Bytes} (hcall : e.call = .end_ (some n) detail)
    (he : e.event.isSome = true) : ListsEnded (history ++ [e]) (spans.set n t) := by
  -- the entry ends the span at place `n` and no other
  have hnew (m : Nat) : IsEnded (history ++ [e]) m ↔ IsEnded history m ∨ m = n := by
    rw [isEnded_concat_iff, hcall]
    refine or_congr_right ⟨?_, ?_⟩
    · rintro ⟨⟨_, heq⟩, -⟩
      cases heq
      rfl
    · rintro rfl
      exact ⟨⟨detail, rfl⟩, he⟩
  have hlt := (List.getElem?_eq_some_iff.mp hs).1
  refine ⟨?_, ?_⟩
  · intro m u hu
    rw [hnew]
    rw [getElem?_set_of_some hs] at hu
    split at hu
    · rename_i hnm
      cases hu
      exact ⟨fun _ => .inr hnm.symm, fun _ => ht⟩
    · rename_i hnm
      rw [h.ended m u hu]
      exact (or_iff_left fun heq => hnm heq.symm).symm
  · intro m hm
    rw [List.length_set]
    rcases (hnew m).mp hm with hold | rfl
    · exact h.lt m hold
    · exact hlt

end

namespace Log

variable {start : Counters} {level : Level} {history : List Entry} {l m : Log} {now : Instant}
  {c : Call} {n : Nat} {s : Span} {scope : Scope} {name detail text : Bytes} {place : Option Nat}

/-- A new log stands where an empty history leads. -/
theorem follows_inMemory (start : Counters) (level : Level) (capacity : Int) :
    Follows start level [] (inMemory start level capacity) where
  level_eq := rfl
  begun := ⟨rfl, fun n hn => absurd hn (Nat.not_lt_zero n),
    fun n _ _ h => absurd h.lt (Nat.not_lt_zero n)⟩
  ended := by
    refine ⟨fun n s hs => (nomatch hs), ?_⟩
    rintro n ⟨q, hq, -⟩
    exact absurd hq List.not_mem_nil
  ids := rfl
  spanCount := (UInt64.add_zero _).symm
  openSpans := (Int64.add_zero _).symm
  pending := rfl

/-- Neither the stream nor the ring has a part in the invariant. -/
theorem Follows.emits {k : Option Kept} (h : Follows start level history l) (hm : Emits l m k) :
    Follows start level history m := by
  have hpending : m.pending = l.pending := by
    unfold Log.pending
    rw [hm.spans]
  exact ⟨hm.level.trans h.level_eq, hm.spans ▸ h.begun, hm.spans ▸ h.ended, h.ids,
    hm.spanCount.trans h.spanCount, hm.openSpans.trans (hpending ▸ h.openSpans),
    hpending ▸ h.pending⟩

/-- Only spans of the log are recorded, and of these the ones whose scope is. -/
theorem Follows.of_isActive (h : Follows start level history l) (hs : l.spans[n]? = some s)
    (hactive : s.isActive = true) : s.attached = true ∧ l.level.records s.scope = true := by
  obtain ⟨older, q, -, hmatches⟩ := h.begun.exists_matches hs
  rw [hmatches.active, Bool.and_eq_true, Bool.and_eq_true] at hactive
  exact ⟨hactive.1, h.level_eq ▸ hactive.2.2⟩

/-! ## Where a span belongs -/

/-- The number above the span that a call begins, and whether the span belongs to the log. -/
def above (l : Log) : Call → UInt64 × Bool
  | .begin_ _ _ parent => (parent, true)
  | .child place _ _ => ((l.span? place).map fun s =>
      (if s.isActive then s.id else s.parent, s.attached)).getD (0, false)
  | .attach .. => (0, false)
  | .end_ .. => (0, false)

/-- A call that begins a span begins it under the number above it. -/
theorem perform_of_begun (h : c.begun? = some (scope, name)) :
    l.perform now c = (l.begin_ now scope name (l.above c).1 (l.above c).2).1 := by
  cases c with
  | begin_ scope name parent =>
    cases h
    rfl
  | child place scope name =>
    cases h
    show (l.child now place scope name).1 = _
    unfold child
    cases hspan : l.span? place <;> simp [above, hspan]
  | attach => cases h
  | end_ => cases h

/-- **The log and the history agree about where a span belongs.** -/
theorem Follows.under_iff (h : Follows start level history l) (d : UInt64) :
    Under history c d ↔ (l.above c).2 = true ∧ d = (l.above c).1 := by
  constructor
  · intro hunder
    cases hunder with
    | given parent => exact ⟨rfl, rfl⟩
    | @recorded _ older n q b _ _ hbegun hevent =>
      obtain ⟨s, hs, hmatches⟩ := h.begun.spans n older q hbegun
      have hactive : s.isActive = true := by rw [← hmatches.event, hevent]; rfl
      have hspan : l.span? (some n) = some s := hs
      simp only [above, hspan, Option.map_some, Option.getD_some, if_pos hactive]
      exact ⟨(h.of_isActive hs hactive).1, (hmatches.fields b hevent).2.1⟩
    | @passive _ older n q d _ _ hbegun hevent hunder =>
      -- the span around it was not recorded, so its own place counts
      obtain ⟨s, hs, hmatches⟩ := h.begun.spans n older q hbegun
      have hpassive : ¬s.isActive = true := by rw [← hmatches.event, hevent]; simp
      have hspan : l.span? (some n) = some s := hs
      simp only [above, hspan, Option.map_some, Option.getD_some, if_neg hpassive]
      exact (hmatches.under d).mp hunder
  · rintro ⟨hattached, rfl⟩
    cases c with
    | begin_ scope name parent => exact .given parent
    | child place scope name =>
      cases hspan : l.span? place with
      | none => simp [above, hspan] at hattached
      | some s =>
        obtain ⟨n, rfl, hs⟩ := Option.bind_eq_some_iff.mp hspan
        obtain ⟨older, q, hbegun, hmatches⟩ := h.begun.exists_matches hs
        simp only [above, hspan, Option.map_some, Option.getD_some] at hattached ⊢
        cases hevent : q.event with
        | some b =>
          have hactive : s.isActive = true := by rw [← hmatches.event, hevent]; rfl
          rw [if_pos hactive, ← (hmatches.fields b hevent).2.1]
          exact .recorded hbegun hevent
        | none =>
          have hpassive : ¬s.isActive = true := by rw [← hmatches.event, hevent]; simp
          rw [if_neg hpassive]
          exact .passive hbegun hevent ((hmatches.under _).mpr ⟨hattached, rfl⟩)
    | attach => simp [above] at hattached
    | end_ => simp [above] at hattached

/-! ## What is emitted -/

/-- What is put into an empty ring is what is found there. -/
theorem emission_of_emits {k : Option Kept} (hl : l.ring = some (.ofCapacity 1))
    (h : Emits l m k) : m.snapshot?.bind List.head? = k.map (·.event) := by
  rw [snapshot?, h.ring, hl]
  cases k <;> rfl

/-- A call that begins a span emits an event if the span belongs to the log and is recorded. -/
theorem emission_of_begun (l : Log) (now : Instant) (h : c.begun? = some (scope, name)) :
    l.emission now c = if (l.above c).2 && l.records scope
      then some (l.beginEvent now scope name (l.above c).1) else none := by
  unfold emission
  rw [perform_of_begun h]
  have hsame : above { l with ring := some (.ofCapacity 1) } c = l.above c := by cases c <;> rfl
  rw [hsame, emission_of_emits rfl (emits_begin _ now scope name (l.above c).1 (l.above c).2)]
  show Option.map _ (if (l.above c).2 && l.records scope then _ else _) = _
  split <;> rfl

/-- Attaching a text emits nothing. -/
theorem emission_attach (l : Log) (now : Instant) (place : Option Nat) (name text : Bytes) :
    l.emission now (.attach place name text) = none := by
  have hring (m : Log) (h : m.ring = some (.ofCapacity 1)) :
      (m.attach place name text).snapshot?.bind List.head? = none := by
    unfold attach
    split
    · split <;> simp [snapshot?, h, Ring.toList_map, Ring.toList_ofCapacity]
    · simp [snapshot?, h, Ring.toList_ofCapacity]
  exact hring _ rfl

/-- Ending a span that is open emits its end. -/
theorem emission_end_of_open (hspan : l.spans[n]? = some s)
    (hopen : (s.isActive && !s.ended) = true) (hrecords : l.level.records s.scope = true) :
    l.emission now (.end_ (some n) detail) = some (l.endEvent now s detail) :=
  emission_of_emits (l := closeSpan { l with ring := some (.ofCapacity 1) } n s) rfl
    (emits_end_of_open (l := { l with ring := some (.ofCapacity 1) }) hspan hopen hrecords)

/-- Ending what is not open emits nothing. -/
theorem emission_end_of_closed (h : ∀ n s, place = some n → l.spans[n]? = some s →
    (s.isActive && !s.ended) = false) : l.emission now (.end_ place detail) = none := by
  show (end_ { l with ring := some (.ofCapacity 1) } now place detail).snapshot?.bind _ = none
  rw [end_eq_of_closed (l := { l with ring := some (.ofCapacity 1) }) h]
  rfl

end Log

/-! ## One call -/

section

variable {history : List Entry} {e : Entry}

/-- One more entry adds its event to those that begin spans, if it is one. -/
theorem begins_concat : begins (history ++ [e])
    = begins history ++ e.event.toList.filter (·.kind = .spanBegin) := by
  rw [begins, emitted_concat, List.filter_append]
  rfl

/-- One more entry adds its event to those that end spans, if it is one. -/
theorem ends_concat : ends (history ++ [e])
    = ends history ++ e.event.toList.filter (·.kind = .spanEnd) := by
  rw [ends, emitted_concat, List.filter_append]
  rfl

end

namespace Log

variable {start : Counters} {level : Level} {history : List Entry} {l : Log} {now : Instant}
  {c : Call} {n : Nat} {s : Span} {scope : Scope} {name detail text : Bytes} {place : Option Nat}

/-- **A call that begins a span** emits an event when the level records the scope and the span
belongs to the log, with the next number and under the number that the history tells. -/
theorem Follows.emission_begun (h : Follows start level history l) (now : Instant)
    (hc : c.begun? = some (scope, name)) :
    ((l.emission now c).isSome = true ↔
      (level.isEnabled = true ∧ level.records scope = true) ∧ ∃ d, Under history c d) ∧
    ∀ e, l.emission now c = some e → e.kind = .spanBegin ∧ e.scope = scope ∧ e.name = name ∧
      Under history c e.parent ∧
      e.span = start.spans + UInt64.ofNat ((begins history).length + 1) := by
  rw [emission_of_begun l now hc, records, h.level_eq]
  constructor
  · simp only [h.under_iff, Bool.and_eq_true]
    split
    · rename_i hactive
      simp [hactive]
    · rename_i hpassive
      simp only [Option.isSome_none, Bool.false_eq_true, false_iff]
      rintro ⟨hrecords, d, hattached, -⟩
      exact hpassive ⟨hattached, hrecords⟩
  · intro e he
    split at he
    · rename_i hactive
      cases he
      have hattached := (Bool.and_eq_true_iff.mp hactive).1
      refine ⟨rfl, rfl, rfl, (h.under_iff _).mpr ⟨hattached, rfl⟩, ?_⟩
      rw [UInt64.ofNat_add, ← UInt64.add_assoc, ← h.spanCount]
      rfl
    · cases he

/-- What an end finds: a span that was recorded and has not ended, or nothing to do. -/
theorem Follows.end_cases (h : Follows start level history l) (now : Instant) (place : Option Nat)
    (detail : Bytes) :
    (∃ n s, place = some n ∧ l.spans[n]? = some s ∧ s.isActive = true ∧ s.ended = false ∧
      l.emission now (.end_ place detail) = some (l.endEvent now s detail) ∧
      Emits (l.closeSpan n s) (l.end_ now place detail)
        (some ⟨l.endEvent now s detail, some n⟩)) ∨
    ((∀ n s, place = some n → l.spans[n]? = some s → (s.isActive && !s.ended) = false) ∧
      l.emission now (.end_ place detail) = none ∧ l.end_ now place detail = l) := by
  by_cases hclosed : ∀ n s, place = some n → l.spans[n]? = some s →
      (s.isActive && !s.ended) = false
  · exact .inr ⟨hclosed, emission_end_of_closed hclosed, end_eq_of_closed hclosed⟩
  · push Not at hclosed
    obtain ⟨n, s, rfl, hs, hopen⟩ := hclosed
    have hopen : (s.isActive && !s.ended) = true := eq_true_of_ne_false hopen
    obtain ⟨hactive, hended⟩ := Bool.and_eq_true_iff.mp hopen
    have hrecords := (h.of_isActive hs hactive).2
    exact .inl ⟨n, s, rfl, hs, hactive, Bool.not_eq_true' _ ▸ hended,
      emission_end_of_open hs hopen hrecords, emits_end_of_open hs hopen hrecords⟩

/-- **A call that ends a span** emits an event when the span was recorded and its end was not, and
repeats what was said when the span began. -/
theorem Follows.emission_end (h : Follows start level history l) :
    ((l.emission now (.end_ place detail)).isSome = true ↔ ∃ n older q, place = some n ∧
      Begun history n older q ∧ q.event.isSome = true ∧ ¬IsEnded history n) ∧
    ∀ e, l.emission now (.end_ place detail) = some e → ∃ n older q b, place = some n ∧
      Begun history n older q ∧ q.event = some b ∧ e.kind = .spanEnd ∧ e.span = b.span ∧
      e.parent = b.parent ∧ e.scope = b.scope ∧ e.name = b.name := by
  rcases h.end_cases now place detail with ⟨n, s, rfl, hs, hactive, hended, hemission, -⟩ |
    ⟨hclosed, hemission, -⟩
  · obtain ⟨older, q, hbegun, hmatches⟩ := h.begun.exists_matches hs
    have hsome : q.event.isSome = true := hmatches.event.trans hactive
    rw [hemission]
    constructor
    · have hopen : ¬IsEnded history n := by
        rw [← h.ended.ended n s hs, hended]
        exact Bool.false_ne_true
      exact ⟨fun _ => ⟨n, older, q, rfl, hbegun, hsome, hopen⟩, fun _ => rfl⟩
    · intro e he
      cases he
      obtain ⟨b, hb⟩ := Option.isSome_iff_exists.mp hsome
      obtain ⟨-, hspan, hparent, hscope, hname⟩ := hmatches.fields b hb
      exact ⟨n, older, q, b, rfl, hbegun, hb, rfl, hspan.symm, hparent.symm, hscope.symm,
        hname.symm⟩
  · rw [hemission]
    refine ⟨⟨fun hsome => by simp at hsome, ?_⟩, fun e he => nomatch he⟩
    rintro ⟨n, older, q, rfl, hbegun, hsome, hopen⟩
    obtain ⟨s, hs, hmatches⟩ := h.begun.spans n older q hbegun
    have hended : ¬s.ended = true := fun hended => hopen ((h.ended.ended n s hs).mp hended)
    have := hclosed n s rfl hs
    rw [← hmatches.event, hsome] at this
    simp [hended] at this

/-! ## What one call preserves -/

/-- The new span is what the history tells of it. -/
theorem Follows.matches_nextSpan (h : Follows start level history l) (now : Instant)
    (hc : c.begun? = some (scope, name)) :
    (l.nextSpan now scope name (l.above c).1 (l.above c).2).Matches level history
      ⟨c, l.emission now c⟩ := by
  rw [emission_of_begun l now hc]
  unfold nextSpan
  cases hactive : (l.above c).2 && l.records scope with
  | true =>
    have hboth := Bool.and_eq_true_iff.mp hactive
    refine ⟨hc, h.under_iff, ?_, rfl, ?_⟩
    · rw [← h.level_eq]
      exact hactive.symm
    · rintro b ⟨⟩
      exact ⟨rfl, rfl, rfl, rfl, rfl⟩
  | false =>
    refine ⟨hc, h.under_iff, ?_, rfl, fun b hb => nomatch hb⟩
    rw [← h.level_eq]
    exact hactive.symm

/-- The next span is recorded if it belongs to the log and its scope is recorded. It has not
ended. -/
theorem isActive_nextSpan (l : Log) (now : Instant) (scope : Scope) (name : Bytes)
    (parent : UInt64) (attached : Bool) : (l.nextSpan now scope name parent attached).isActive
      = (attached && l.records scope) ∧
    (l.nextSpan now scope name parent attached).ended = false := by
  unfold nextSpan
  cases attached && l.records scope <;> exact ⟨rfl, rfl⟩

/-- A new span is pending if it is recorded. -/
theorem pending_addSpan (l : Log) (hs : s.ended = false) :
    (l.addSpan s).pending = l.pending + s.isActive.toNat := by
  unfold pending addSpan
  rw [List.countP_append, List.countP_singleton, hs]
  cases s.isActive <;> rfl

/-- A call that **begins a span** leads where its history leads. -/
theorem Follows.begin_ (h : Follows start level history l) (hc : c.begun? = some (scope, name)) :
    Follows start level (history ++ [⟨c, l.emission now c⟩]) (l.perform now c) := by
  have hbegins : c.begun?.isSome = true := by rw [hc]; rfl
  have hmatches := h.matches_nextSpan now hc
  have hemission := emission_of_begun l now hc
  obtain ⟨hactive, hended⟩ := l.isActive_nextSpan now scope name (l.above c).1 (l.above c).2
  rw [perform_of_begun hc]
  refine Follows.emits ?_ (emits_begin l now scope name _ _)
  generalize l.nextSpan now scope name (l.above c).1 (l.above c).2 = s at hmatches hactive hended
  rw [← hactive] at hemission
  have hpending := h.pending
  cases hrecorded : s.isActive with
  | true =>
    -- one more span is numbered, and one more is open
    rw [hrecorded] at hemission
    have hadded := l.pending_addSpan hended
    rw [hrecorded] at hadded
    have hnumber : start.spans + UInt64.ofNat ((begins history).length + 1)
        = l.counters.spans + 1 := by
      rw [UInt64.ofNat_add, ← UInt64.add_assoc, ← h.spanCount]
      rfl
    have hnew : begins (history ++ [⟨c, l.emission now c⟩])
        = begins history ++ [l.beginEvent now scope name (l.above c).1] := by
      rw [begins_concat, hemission]
      rfl
    have hold : ends (history ++ [⟨c, l.emission now c⟩]) = ends history := by
      rw [ends_concat, hemission]
      exact List.append_nil _
    refine ⟨h.level_eq, h.begun.concat hbegins hmatches, h.ended.concat hbegins hended, ?_, ?_, ?_,
      ?_⟩
    · rw [hnew, List.length_append, List.length_singleton, List.range_succ, List.map_append,
        List.map_append, h.ids, List.map_singleton, List.map_singleton, hnumber]
      rfl
    · rw [hnew, List.length_append, List.length_singleton, hnumber, addSpan, if_pos hrecorded]
    · rw [hadded, addSpan, if_pos hrecorded, Bool.toNat_true, Int64.ofNat_add, ← Int64.add_assoc,
        ← h.openSpans]
      rfl
    · rw [hnew, hold, hadded, List.length_append, List.length_singleton, Bool.toNat_true]
      omega
  | false =>
    rw [hrecorded] at hemission
    have hadded := l.pending_addSpan hended
    rw [hrecorded] at hadded
    have hnew : begins (history ++ [⟨c, l.emission now c⟩]) = begins history := by
      rw [begins_concat, hemission]
      exact List.append_nil _
    have hold : ends (history ++ [⟨c, l.emission now c⟩]) = ends history := by
      rw [ends_concat, hemission]
      exact List.append_nil _
    have hcounters : (l.addSpan s).counters = l.counters := by
      rw [addSpan, hrecorded]
      rfl
    refine ⟨h.level_eq, h.begun.concat hbegins hmatches, h.ended.concat hbegins hended,
      hnew ▸ h.ids, ?_, ?_, ?_⟩
    · rw [hnew, hcounters]
      exact h.spanCount
    · rw [hadded, hcounters]
      exact h.openSpans
    · rw [hnew, hold, hadded]
      exact hpending

/-- A call that emits nothing and begins nothing. -/
theorem Follows.idle (h : Follows start level history l) (hc : ¬c.begun?.isSome = true) :
    Follows start level (history ++ [⟨c, none⟩]) l where
  level_eq := h.level_eq
  begun := h.begun.concat_other hc
  ended := h.ended.concat_other rfl
  ids := by
    rw [begins_concat]
    exact (List.append_nil (begins history)).symm ▸ h.ids
  spanCount := by
    rw [begins_concat]
    exact (List.append_nil (begins history)).symm ▸ h.spanCount
  openSpans := h.openSpans
  pending := by
    rw [begins_concat, ends_concat, List.length_append, List.length_append]
    exact h.pending

/-- A call that **attaches a text** leads where its history leads. -/
theorem Follows.attach (h : Follows start level history l) (now : Instant) (place : Option Nat)
    (name text : Bytes) :
    Follows start level
      (history ++ [⟨.attach place name text, l.emission now (.attach place name text)⟩])
      (l.attach place name text) := by
  have hidle := h.idle (c := .attach place name text) Bool.false_ne_true
  rw [emission_attach]
  unfold Log.attach
  split
  · rename_i n s hs
    have hs : l.spans[n]? = some s := hs
    split
    · exact hidle
    · dsimp only
      have hpending (extras : Option Extras) (ring : Option (Ring Kept)) :
          Log.pending { l with spans := l.spans.set n { s with extras }, ring } = l.pending :=
        Nat.add_right_cancel (countP_set_add hs _)
      refine ⟨hidle.level_eq, hidle.begun.set hs ?_, hidle.ended.set hs rfl, hidle.ids,
        hidle.spanCount, ?_, ?_⟩
      · intro older q hmatches
        exact ⟨hmatches.begun, hmatches.under, hmatches.active, hmatches.event, hmatches.fields⟩
      · rw [hpending]
        exact hidle.openSpans
      · rw [hpending]
        exact hidle.pending
  · exact hidle

/-- Ending a span that is open leaves one pending span less. -/
theorem pending_closeSpan (hs : l.spans[n]? = some s) (hactive : s.isActive = true)
    (hended : s.ended = false) : (l.closeSpan n s).pending + 1 = l.pending := by
  have hcount := countP_set_add (t := { s with ended := true }) hs fun s => s.isActive && !s.ended
  have hbefore : (s.isActive && !s.ended) = true := by rw [hactive, hended]; rfl
  rw [hbefore, Bool.not_true, Bool.and_false] at hcount
  exact hcount

/-- A call that **ends a span** leads where its history leads. -/
theorem Follows.end_ (h : Follows start level history l) (now : Instant) (place : Option Nat)
    (detail : Bytes) :
    Follows start level (history ++ [⟨.end_ place detail, l.emission now (.end_ place detail)⟩])
      (l.end_ now place detail) := by
  rcases h.end_cases now place detail with
    ⟨n, s, rfl, hs, hactive, hended, hemission, hemits⟩ | ⟨-, hemission, hend⟩
  · rw [hemission]
    refine Follows.emits ?_ hemits
    have hnew : begins (history ++ [⟨.end_ (some n) detail, some (l.endEvent now s detail)⟩])
        = begins history := by
      rw [begins_concat]
      exact List.append_nil _
    have hclosed := pending_closeSpan hs hactive hended
    have hpending := h.pending
    refine ⟨h.level_eq, ListsBegun.set (h.begun.concat_other ?_) hs ?_,
      h.ended.set_ended hs rfl rfl rfl, hnew ▸ h.ids, ?_, ?_, ?_⟩
    · exact Bool.false_ne_true
    · intro older q hmatches
      exact ⟨hmatches.begun, hmatches.under, hmatches.active, hmatches.event, hmatches.fields⟩
    · rw [hnew]
      exact h.spanCount
    · -- one span less is open
      show l.counters.openSpans - 1 = _
      rw [h.openSpans, ← hclosed, Int64.ofNat_add, ← Int64.add_assoc]
      exact Int64.add_sub_cancel _ _
    · rw [hnew, ends_concat, List.length_append]
      show _ + (_ + 1) = _
      omega
  · rw [hemission, hend]
    exact h.idle Bool.false_ne_true

end Log

end CatalystAsm.Trace
