import CatalystAsm.Container.Plan
import CatalystAsm.Proofs.Except
import Mathlib.Algebra.GroupWithZero.Nat

/-!
# Planned and written images

The offsets of a plan are the sums of the sizes before them. What `Plan.write` writes has every
piece at its planned offset and with its planned length (`Plan.written_of_write`). A piece is exact
when it always emits as many bytes as it plans and fails only because a number does not fit its
field; a plan of exact pieces is written in full or fails for that reason alone
(`Plan.ends_write`), so none of the checks of `Plan.write` ever fails.

Extents that follow one another without a gap are `Tiles`; they never overlap and leave nothing
out.
-/

namespace CatalystAsm

/-! ## Sums -/

/-- One more item adds its size. -/
theorem sum_take_add_one {sizes : List Nat} {i n : Nat} (h : sizes[i]? = some n) :
    (sizes.take (i + 1)).sum = (sizes.take i).sum + n := by
  rw [List.take_add_one, h, Option.toList_some, List.sum_append, List.sum_cons, List.sum_nil,
    Nat.add_zero]

/-- Some of the sizes are no more than all of them. -/
theorem sum_take_le (sizes : List Nat) (i : Nat) : (sizes.take i).sum ≤ sizes.sum := by
  have h := congrArg List.sum (List.take_append_drop i sizes)
  rw [List.sum_append] at h
  omega

/-! ## Slices -/

/-- A slice of a slice. -/
theorem take_drop_take_drop (b : Bytes) {off size i n : Nat} (h : i + n ≤ size) :
    (((b.drop off).take size).drop i).take n = (b.drop (off + i)).take n := by
  rw [List.drop_take, List.take_take, List.drop_drop, Nat.min_eq_left (by omega)]

/-- One of several byte strings stands behind those before it. -/
theorem take_drop_flatten {chunks : List Bytes} {i : Nat} {c : Bytes} (h : chunks[i]? = some c) :
    (chunks.flatten.drop ((chunks.take i).map List.length).sum).take c.length = c := by
  obtain ⟨hi, rfl⟩ := List.getElem?_eq_some_iff.mp h
  have hsplit : chunks.flatten
      = (chunks.take i).flatten ++ (chunks[i] ++ (chunks.drop (i + 1)).flatten) := by
    rw [← List.flatten_cons, ← List.drop_eq_getElem_cons hi, ← List.flatten_append,
      List.take_append_drop]
  rw [← List.length_flatten, hsplit, List.drop_left, List.take_left]

/-! ## Offsets -/

namespace Plan

/-- An item is placed behind all the items before it. -/
theorem getElem?_offsetsFrom {sizes : List Nat} {i : Nat} (off : Nat) (hi : i < sizes.length) :
    (offsetsFrom off sizes)[i]? = some (off + (sizes.take i).sum) := by
  induction sizes generalizing off i with
  | nil => exact absurd hi (Nat.not_lt_zero i)
  | cons n rest ih =>
    cases i with
    | zero => rfl
    | succ i =>
      rw [offsetsFrom, List.getElem?_cons_succ, ih (off + n) (Nat.lt_of_succ_lt_succ hi),
        List.take_succ_cons, List.sum_cons, Nat.add_assoc]

@[simp] theorem length_sizes (p : Plan) : p.sizes.length = p.pieces.length := List.length_map _

theorem getElem?_sizes {p : Plan} {i : Nat} {piece : Piece} (h : p.pieces[i]? = some piece) :
    p.sizes[i]? = some piece.size := by
  rw [sizes, List.getElem?_map, h, Option.map_some]

/-- A plan takes what is planned for each of its pieces. -/
theorem size_eq_sum (p : Plan) : p.size = p.sizes.sum := rfl

@[simp] theorem offset_zero (p : Plan) : p.placement.offset 0 = 0 := by
  rw [Placement.offset, placement]
  cases p.sizes <;> rfl

/-- A piece starts where the pieces before it end. -/
theorem offset_eq_sum {p : Plan} {i : Nat} (hi : i < p.pieces.length) :
    p.placement.offset i = (p.sizes.take i).sum := by
  rw [Placement.offset, placement, List.getD_eq_getElem?_getD,
    getElem?_offsetsFrom 0 (by rwa [length_sizes]), Option.getD_some, Nat.zero_add]

/-- The next piece starts where a piece ends. -/
theorem offset_add_one {p : Plan} {i : Nat} {piece : Piece} (h : p.pieces[i]? = some piece)
    (hi : i + 1 < p.pieces.length) :
    p.placement.offset (i + 1) = p.placement.offset i + piece.size := by
  rw [offset_eq_sum hi, offset_eq_sum (Nat.lt_of_succ_lt hi),
    sum_take_add_one (getElem?_sizes h)]

/-- Pieces are placed in order. -/
theorem offset_le_offset {p : Plan} {i j : Nat} (hij : i ≤ j) (hj : j < p.pieces.length) :
    p.placement.offset i ≤ p.placement.offset j := by
  have htake : p.sizes.take i = (p.sizes.take j).take i := by
    rw [List.take_take, Nat.min_eq_left hij]
  rw [offset_eq_sum (Nat.lt_of_le_of_lt hij hj), offset_eq_sum hj, htake]
  exact sum_take_le _ _

/-- A piece ends before every later one starts. -/
theorem offset_add_size_le_offset {p : Plan} {i j : Nat} {piece : Piece}
    (h : p.pieces[i]? = some piece) (hij : i < j) (hj : j < p.pieces.length) :
    p.placement.offset i + piece.size ≤ p.placement.offset j := by
  rw [← offset_add_one h (by omega)]
  exact offset_le_offset hij hj

/-- The last piece ends where the image ends. -/
theorem offset_add_size_last {p : Plan} {i : Nat} {piece : Piece}
    (h : p.pieces[i]? = some piece) (hi : i + 1 = p.pieces.length) :
    p.placement.offset i + piece.size = p.size := by
  rw [offset_eq_sum (by omega), ← sum_take_add_one (getElem?_sizes h), hi, ← length_sizes,
    List.take_length]
  rfl

/-! ## Written images -/

/-- The bytes `b` are an image as planned by `p`: each piece has emitted the bytes of `b` that
start at its planned offset and have its planned length. -/
structure Written (p : Plan) (b : Bytes) : Prop where
  length_eq : b.length = p.size
  piece_at : ∀ {i : Nat} {piece : Piece}, p.pieces[i]? = some piece →
    p.placement.offset i + piece.size ≤ b.length ∧
      piece.emit p.placement = .ok ((b.drop (p.placement.offset i)).take piece.size)

/-- What writing from number `i` on has written: each piece's bytes, where it was planned. -/
theorem writeFrom_eq_ok {places : Placement} {pieces : List Piece} {i pos : Nat} {b : Bytes}
    (h : writeFrom places i pos pieces = .ok b) :
    b.length = (pieces.map (·.size)).sum ∧
      ∀ {j : Nat} {piece : Piece}, pieces[j]? = some piece →
        ∃ before c after, b = before ++ c ++ after ∧ pos + before.length = places.offset (i + j) ∧
          c.length = piece.size ∧ piece.emit places = .ok c := by
  induction pieces generalizing i pos b with
  | nil =>
    cases h
    exact ⟨rfl, fun hj => by simp at hj⟩
  | cons first rest ih =>
    rw [writeFrom] at h
    split at h
    · cases h
    rename_i hpos
    split at h
    · cases h
    rename_i c hc
    split at h
    · cases h
    rename_i hlen
    rw [ne_eq, not_not] at hpos hlen
    split at h
    · cases h
    rename_i d hd
    cases h
    obtain ⟨hsum, hrest⟩ := ih hd
    refine ⟨by rw [List.length_append, hsum, hlen, List.map_cons, List.sum_cons], ?_⟩
    -- for a later piece, what the first one has written comes before it as well
    intro j piece hj
    cases j with
    | zero =>
      cases hj
      exact ⟨[], c, d, rfl, hpos, hlen, hc⟩
    | succ j =>
      obtain ⟨before, c', after, rfl, hoff, hlen', hc'⟩ := hrest (by simpa using hj)
      refine ⟨c ++ before, c', after, by simp, ?_, hlen', hc'⟩
      rw [List.length_append, ← Nat.add_assoc, hoff, Nat.add_right_comm, Nat.add_assoc i]

/-- **Writing follows the plan**: every piece of a written image starts at its planned offset and
has its planned length. -/
theorem written_of_write {p : Plan} {b : Bytes} (h : p.write = .ok b) : p.Written b := by
  obtain ⟨hlen, hpieces⟩ := writeFrom_eq_ok h
  refine ⟨hlen, fun {i piece} hi => ?_⟩
  obtain ⟨before, c, after, rfl, hoff, hsize, hc⟩ := hpieces hi
  rw [Nat.zero_add, Nat.zero_add] at hoff
  rw [← hoff, ← hsize, hc, List.append_assoc, List.drop_left, List.take_left]
  refine ⟨?_, rfl⟩
  rw [List.length_append, List.length_append]
  omega

end Plan

/-! ## Exact pieces -/

/-- The outcome of writing: `n` bytes, or a number that does not fit its field. -/
abbrev Writes (n : Nat) (x : Except ImageError Bytes) : Prop :=
  Ends (fun e => e.isOverflow = true) (fun b => b.length = n) x

/-- A piece is exact when it emits as many bytes as it plans, wherever the pieces are placed, and
fails only because a number does not fit its field. -/
def Piece.Exact (p : Piece) : Prop := ∀ places, Writes p.size (p.emit places)

theorem Piece.exact_ofBytes (b : Bytes) : (Piece.ofBytes b).Exact := fun _ => rfl

namespace Plan

/-- A plan is exact when all its pieces are. -/
def Exact (p : Plan) : Prop := ∀ piece ∈ p.pieces, piece.Exact

/-- Writing exact pieces that were placed one after another gets past every check. -/
theorem ends_writeFrom {places : Placement} {pieces : List Piece} {i pos : Nat}
    (hexact : ∀ piece ∈ pieces, piece.Exact)
    (hplaces : ∀ j < pieces.length,
      places.offset (i + j) = pos + ((pieces.map (·.size)).take j).sum) :
    Writes (pieces.map (·.size)).sum (writeFrom places i pos pieces) := by
  induction pieces generalizing i pos with
  | nil => rfl
  | cons first rest ih =>
    have hfirst := hexact first List.mem_cons_self places
    have hpos : pos = places.offset i := by
      have h0 := hplaces 0 (by simp)
      simp only [Nat.add_zero, List.take_zero, List.sum_nil] at h0
      exact h0.symm
    rw [writeFrom, if_neg (not_not.mpr hpos)]
    cases hc : first.emit places with
    | error e => exact hfirst.of_eq_error hc
    | ok c =>
      have hlen : c.length = first.size := hfirst.of_eq_ok hc
      dsimp only
      rw [if_neg (not_not.mpr hlen)]
      -- the rest is placed behind what the first piece has written
      have hrest : ∀ j < rest.length, places.offset (i + 1 + j)
          = pos + c.length + ((rest.map (·.size)).take j).sum := by
        intro j hj
        have hstep := hplaces (j + 1) (by simpa using hj)
        rw [List.map_cons, List.take_succ_cons, List.sum_cons] at hstep
        rw [Nat.add_assoc i, Nat.add_comm 1, hstep, hlen, Nat.add_assoc]
      have hwrite := ih (fun piece hp => hexact piece (List.mem_cons_of_mem _ hp)) hrest
      cases hd : writeFrom places (i + 1) (pos + c.length) rest with
      | error e => exact hwrite.of_eq_error hd
      | ok d =>
        have hd' := hwrite.of_eq_ok hd
        show (c ++ d).length = _
        rw [List.length_append, hlen, hd', List.map_cons, List.sum_cons]

/-- **No check fails**: an exact plan is written in its planned size, or a number does not fit its
field. -/
theorem ends_write {p : Plan} (hp : p.Exact) : Writes p.size p.write := by
  apply ends_writeFrom hp
  intro j hj
  rw [Nat.zero_add, Nat.zero_add]
  exact offset_eq_sum hj

end Plan

/-! ## Extents without gaps -/

/-- Extents, each an offset and a length, that follow one another without a gap from `start` to
`stop`. -/
def Tiles (start stop : Nat) : List (Nat × Nat) → Prop
  | [] => start = stop
  | (off, size) :: rest => off = start ∧ Tiles (start + size) stop rest

/-- Extents that follow one another in two rows follow one another in one. -/
theorem Tiles.append {a b c : Nat} {l r : List (Nat × Nat)} (hl : Tiles a b l) (hr : Tiles b c r) :
    Tiles a c (l ++ r) := by
  induction l generalizing a with
  | nil => exact hl ▸ hr
  | cons e rest ih => exact ⟨hl.1, ih hl.2⟩

/-- Extents that start at given places follow one another when each ends at the next place. -/
theorem tiles_of_forall {l : List (Nat × Nat)} (place : Nat → Nat)
    (h : ∀ {i : Nat} {e : Nat × Nat}, l[i]? = some e →
      e.1 = place i ∧ place (i + 1) = place i + e.2) : Tiles (place 0) (place l.length) l := by
  induction l generalizing place with
  | nil => exact rfl
  | cons e rest ih =>
    obtain ⟨hstart, hend⟩ := h (i := 0) rfl
    refine ⟨hstart, ?_⟩
    rw [← hend]
    exact ih (fun i => place (i + 1)) fun {i _} hi => h (i := i + 1) (by simpa using hi)

/-- Extents that follow one another do not go back. -/
theorem Tiles.le {a b : Nat} {l : List (Nat × Nat)} (h : Tiles a b l) : a ≤ b := by
  induction l generalizing a with
  | nil => exact Nat.le_of_eq h
  | cons e rest ih => exact Nat.le_trans (Nat.le_add_right a e.2) (ih h.2)

/-- Every one of several extents lies between the first start and the last end. -/
theorem Tiles.of_mem {a b : Nat} {l : List (Nat × Nat)} (h : Tiles a b l) {e : Nat × Nat}
    (he : e ∈ l) : a ≤ e.1 ∧ e.1 + e.2 ≤ b := by
  induction l generalizing a with
  | nil => exact absurd he List.not_mem_nil
  | cons first rest ih =>
    obtain ⟨hstart, hrest⟩ := h
    rcases List.mem_cons.mp he with rfl | he
    · have := hrest.le
      omega
    · have := ih hrest he
      omega

/-- Extents that follow one another do not overlap. -/
theorem Tiles.pairwise {a b : Nat} {l : List (Nat × Nat)} (h : Tiles a b l) :
    l.Pairwise fun v w => v.1 + v.2 ≤ w.1 := by
  induction l generalizing a with
  | nil => exact .nil
  | cons first rest ih =>
    obtain ⟨hstart, hrest⟩ := h
    refine .cons (fun e he => ?_) (ih hrest)
    rw [hstart]
    exact (hrest.of_mem he).1

end CatalystAsm
