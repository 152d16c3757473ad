import CatalystAsm.Trace.Log
import Mathlib.Data.List.DropRight

/-!
# What a ring keeps

A ring fills its cells from the first to the last and then writes over the oldest one. Read from the
oldest entry on, it is always the end of what was put into it: one entry more is put behind the
others and cut to the capacity (`Ring.IsSound.toList_push`), and cutting early or late makes no
difference, so the same holds of any number of entries (`Ring.IsSound.toList_foldl_push`).
-/

namespace CatalystAsm.Trace

/-- Cutting before more is put behind changes nothing of what is kept. -/
theorem rtake_rtake_append {α : Type} (l m : List α) (n : Nat) :
    (l.rtake n ++ m).rtake n = (l ++ m).rtake n := by
  unfold List.rtake
  rw [List.length_append, List.length_append, List.length_drop, List.drop_append, List.drop_append,
    List.drop_drop, List.length_drop]
  congr 2 <;> omega

theorem rtake_suffix {α : Type} (l : List α) (n : Nat) : l.rtake n <:+ l := List.drop_suffix _ l

/-- The last entries of a list are as many as asked for, or all. -/
theorem length_rtake {α : Type} (l : List α) (n : Nat) : (l.rtake n).length = min n l.length := by
  rw [List.rtake, List.length_drop]
  omega

theorem map_rtake {α β : Type} (f : α → β) (l : List α) (n : Nat) :
    (l.rtake n).map f = (l.map f).rtake n := by
  rw [List.rtake, List.rtake, List.map_drop, List.length_map]

namespace Ring

variable {α β : Type} {r : Ring α}

/-- The cells of a ring are within its capacity, and the oldest entry is the first one until all
cells are taken. -/
structure IsSound (r : Ring α) : Prop where
  length_le : r.cells.length ≤ r.capacity
  next_lt : r.next < r.capacity
  next_eq : r.cells.length < r.capacity → r.next = 0

/-- A new ring is sound. -/
theorem isSound_ofCapacity (capacity : Int) : (ofCapacity capacity : Ring α).IsSound := by
  have hpos : 0 < (ofCapacity capacity : Ring α).capacity := by
    unfold ofCapacity defaultCapacity
    dsimp only
    split <;> omega
  exact ⟨Nat.zero_le _, hpos, fun _ => rfl⟩

theorem toList_ofCapacity (capacity : Int) : (ofCapacity capacity : Ring α).toList = [] := rfl

@[simp] theorem capacity_push (r : Ring α) (a : α) : (r.push a).capacity = r.capacity := by
  unfold push
  split <;> rfl

/-- When the oldest entry is in the first cell, the entries are the cells in their order. -/
theorem toList_of_next_eq (h : r.next = 0) : r.toList = r.cells := by
  rw [toList, h]
  exact List.append_nil _

/-- A ring has as many entries as cells that are taken. -/
theorem length_toList (r : Ring α) : r.toList.length = r.cells.length := by
  rw [toList, List.length_append, List.length_drop, List.length_take]
  omega

namespace IsSound

variable (h : r.IsSound)

include h

/-- While there is room, an entry goes into the next cell. -/
theorem push_of_lt (hroom : r.cells.length < r.capacity) (a : α) :
    (r.push a).IsSound ∧ (r.push a).toList = r.toList ++ [a] := by
  have hnext := h.next_eq hroom
  rw [push, if_pos hroom]
  refine ⟨⟨?_, h.next_lt, fun _ => hnext⟩, ?_⟩
  · rw [List.length_append]
    exact hroom
  · rw [toList_of_next_eq hnext]
    exact toList_of_next_eq hnext

/-- In a full ring, an entry takes the place of the oldest one, and the one behind that is the
oldest then. -/
theorem push_of_eq (hfull : r.cells.length = r.capacity) (a : α) :
    (r.push a).IsSound ∧ (r.push a).toList = r.toList.tail ++ [a] := by
  have hlt : r.next < r.cells.length := hfull ▸ h.next_lt
  have hpush : r.push a
      = { r with cells := r.cells.set r.next a, next := (r.next + 1) % r.cells.length } := by
    rw [push, if_neg (by omega)]
  have hdrop : r.cells.drop r.next = r.cells[r.next] :: r.cells.drop (r.next + 1) :=
    List.drop_eq_getElem_cons hlt
  have hold : r.toList.tail ++ [a] = r.cells.drop (r.next + 1) ++ (r.cells.take r.next ++ [a]) := by
    rw [toList, hdrop]
    exact List.append_assoc ..
  have hcells : r.cells.set r.next a
      = (r.cells.take r.next ++ [a]) ++ r.cells.drop (r.next + 1) := by
    rw [List.set_eq_take_append_cons_drop, if_pos hlt, List.append_assoc]
    rfl
  have htake : (r.cells.take r.next ++ [a]).length = r.next + 1 := by
    rw [List.length_append, List.length_take_of_le (Nat.le_of_lt hlt)]
    rfl
  rw [hpush, hold]
  refine ⟨⟨?_, ?_, ?_⟩, ?_⟩
  · exact (List.length_set ..).trans_le h.length_le
  · exact hfull ▸ Nat.mod_lt _ (by omega)
  · intro hroom
    have hlength : (r.cells.set r.next a).length = r.cells.length := List.length_set
    exact absurd hroom (by dsimp only; omega)
  · -- the place of the oldest entry goes back to the first cell behind the last one
    rcases Nat.lt_or_ge (r.next + 1) r.cells.length with hinside | hlast
    · rw [toList, Nat.mod_eq_of_lt hinside, hcells, List.drop_left' htake, List.take_left' htake]
    · have hend : r.next + 1 = r.cells.length := by omega
      have hnone : r.cells.drop (r.next + 1) = [] := List.drop_of_length_le hlast
      rw [toList_of_next_eq (by rw [hend, Nat.mod_self]), hcells, hnone, List.append_nil]
      rfl

/-- One more entry leaves a ring sound. -/
theorem push (a : α) : (r.push a).IsSound := by
  rcases Nat.lt_or_eq_of_le h.length_le with hroom | hfull
  · exact (h.push_of_lt hroom a).1
  · exact (h.push_of_eq hfull a).1

/-- **One more entry.** It is put behind the others, and the latest ones are kept. -/
theorem toList_push (a : α) : (r.push a).toList = (r.toList ++ [a]).rtake r.capacity := by
  have hlength : (r.toList ++ [a]).length = r.cells.length + 1 := by
    rw [List.length_append, length_toList]
    rfl
  rcases Nat.lt_or_eq_of_le h.length_le with hroom | hfull
  · rw [(h.push_of_lt hroom a).2, List.rtake, hlength, Nat.sub_eq_zero_of_le hroom, List.drop_zero]
  · have hsome : r.toList ≠ [] := by
      rw [← List.length_pos_iff, length_toList, hfull]
      exact Nat.zero_lt_of_lt h.next_lt
    rw [(h.push_of_eq hfull a).2, List.rtake, hlength, hfull, Nat.add_sub_cancel_left,
      List.drop_one, List.tail_append_of_ne_nil hsome]

/-- A sound ring holds no more entries than its capacity. -/
theorem toList_rtake : r.toList.rtake r.capacity = r.toList := by
  rw [List.rtake, length_toList, Nat.sub_eq_zero_of_le h.length_le, List.drop_zero]

/-- **Any number of entries.** The latest ones are kept. -/
theorem toList_foldl_push (l : List α) :
    (l.foldl Ring.push r).IsSound ∧ (l.foldl Ring.push r).capacity = r.capacity ∧
      (l.foldl Ring.push r).toList = (r.toList ++ l).rtake r.capacity := by
  induction l generalizing r with
  | nil => exact ⟨h, rfl, by rw [List.append_nil]; exact h.toList_rtake.symm⟩
  | cons a l ih =>
    obtain ⟨hsound, hcapacity, htoList⟩ := ih (h.push a)
    rw [capacity_push] at hcapacity htoList
    refine ⟨hsound, hcapacity, htoList.trans ?_⟩
    rw [h.toList_push, rtake_rtake_append, List.append_assoc]
    rfl

/-- Changing the entries changes neither their number nor their order. -/
theorem map (f : α → β) : (r.map f).IsSound := by
  have hlength : (r.map f).cells.length = r.cells.length := List.length_map f
  exact ⟨hlength ▸ h.length_le, h.next_lt, fun hroom => h.next_eq (hlength ▸ hroom)⟩

end IsSound

/-- Changing the entries keeps their order. -/
theorem toList_map (r : Ring α) (f : α → β) : (r.map f).toList = r.toList.map f := by
  unfold toList Ring.map
  rw [List.map_append, List.map_drop, List.map_take]

end Ring

/-! ## Logs in memory -/

namespace Log

/-- A log that keeps its events in a ring only, and goes on from counters of the logs before it. -/
def inMemory (counters : Counters) (level : Level) (capacity : Int) : Log :=
  { level, counters, ring := some (.ofCapacity capacity) }

/-- Every level but `off` can be asked for with a ring. -/
theorem ofConfig_ring (counters : Counters) {level : Level} (h : level ≠ .off) (capacity : Int) :
    ofConfig { level, mode := .ring, ringSize := capacity } counters
      = .ok (inMemory counters level capacity) := by
  unfold ofConfig
  rw [if_neg h]
  simp [inMemory]

/-- Records events one after another, each with the place of the span that it ends. -/
def emitAll (l : Log) (events : List (Event × Option Nat)) : Log :=
  events.foldl (fun l e => l.emit e.1 e.2) l

/-- Among events, those that are recorded go into the ring, and nothing else changes there. -/
theorem ring_emitAll (l : Log) (events : List (Event × Option Nat)) :
    (l.emitAll events).level = l.level ∧
    (l.emitAll events).ring = l.ring.map fun r =>
      ((events.filter fun e => l.accepts e.1).map fun e => ⟨e.1, e.2⟩).foldl Ring.push r := by
  induction events generalizing l with
  | nil => exact ⟨rfl, Option.map_id'.symm⟩
  | cons e events ih =>
    obtain ⟨hlevel, hring⟩ := ih (l.emit e.1 e.2)
    have hsame : (l.emit e.1 e.2).level = l.level := by
      unfold emit
      split <;> rfl
    have haccepts (f : Event × Option Nat) : (l.emit e.1 e.2).accepts f.1 = l.accepts f.1 := by
      unfold accepts
      rw [hsame]
    refine ⟨hlevel.trans hsame, hring.trans ?_⟩
    simp only [haccepts]
    by_cases haccepted : l.accepts e.1 = true
    · rw [List.filter_cons_of_pos (by exact haccepted), emit, if_pos haccepted, Option.map_map]
      rfl
    · rw [List.filter_cons_of_neg (by exact haccepted), emit, if_neg haccepted]

/-- **The ring keeps exactly the latest events.** Whatever events are emitted, those in memory are
the last ones of those that are recorded, in their order: as many as there are, up to the capacity.
Recorded are the events whose scope the level records, and signs of life. -/
theorem snapshot_latest (start : Counters) (level : Level) (capacity : Int)
    (events : List (Event × Option Nat)) :
    let accepted := (events.map (·.1)).filter fun e =>
      level.records e.scope || e.kind == .heartbeat
    ∃ kept, ((inMemory start level capacity).emitAll events).snapshot? = some kept ∧
      kept <:+ accepted ∧
      kept.length = min (if capacity ≤ 0 then 4096 else capacity.toNat) accepted.length := by
  intro accepted
  obtain ⟨-, hring⟩ := ring_emitAll (inMemory start level capacity) events
  generalize hpushed : ((events.filter fun e => (inMemory start level capacity).accepts e.1).map
    fun e => (⟨e.1, e.2⟩ : Kept)) = pushed at hring
  have haccepted : pushed.map (·.event) = accepted := by
    rw [← hpushed, List.map_map, show accepted = _ from List.filter_map]
    rfl
  obtain ⟨-, -, htoList⟩ := (Ring.isSound_ofCapacity capacity).toList_foldl_push pushed
  rw [Ring.toList_ofCapacity, List.nil_append] at htoList
  refine ⟨accepted.rtake (Ring.ofCapacity capacity : Ring Kept).capacity, ?_, rtake_suffix _ _,
    length_rtake _ _⟩
  rw [snapshot?, hring, Option.map_map, ← haccepted, ← map_rtake, ← htoList]
  rfl

end Log

end CatalystAsm.Trace
