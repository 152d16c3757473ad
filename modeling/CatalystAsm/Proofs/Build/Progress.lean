import CatalystAsm.Build.View
import CatalystAsm.Proofs.Build.Course
import CatalystAsm.Proofs.Except
import Mathlib.Algebra.GroupWithZero.Nat
import Mathlib.Data.List.Nodup

/-!
# Progress

The events of several files reach a view in any order that keeps the events of each file in theirs.
Of a file only the last event counts, so the view is compared, row by row, with the events that are
still to come: each of them finds its row unfinished and takes nothing back (`Row.Expects`). One
event keeps that for all rows (`View.Tracks.apply`), hence any number of them does
(`View.Tracks.feed`).
-/

namespace CatalystAsm

/-- A larger number in one place makes no smaller sum. -/
theorem sum_le_sum_modify {α : Type} {f : α → Nat} {g : α → α} {l : List α} {i : Nat} {a : α}
    (hi : l[i]? = some a) (hle : f a ≤ f (g a)) :
    (l.map f).sum ≤ ((l.modify i g).map f).sum := by
  induction l generalizing i with
  | nil => cases hi
  | cons b l ih =>
    cases i with
    | zero =>
      cases hi
      exact Nat.add_le_add_right hle _
    | succ i => exact Nat.add_le_add_left (ih hi) _

theorem sum_le_mul {l : List Nat} {k : Nat} (h : ∀ n ∈ l, n ≤ k) : l.sum ≤ k * l.length := by
  induction l with
  | nil => exact Nat.zero_le _
  | cons n l ih =>
    have hn := h n List.mem_cons_self
    have hl := ih fun m hm => h m (List.mem_cons_of_mem n hm)
    rw [List.sum_cons, List.length_cons, Nat.mul_succ]
    omega

theorem sum_eq_mul_iff {l : List Nat} {k : Nat} (h : ∀ n ∈ l, n ≤ k) :
    l.sum = k * l.length ↔ ∀ n ∈ l, n = k := by
  induction l with
  | nil => simp
  | cons n l ih =>
    have hn := h n List.mem_cons_self
    have hl : ∀ m ∈ l, m ≤ k := fun m hm => h m (List.mem_cons_of_mem n hm)
    have hsum := sum_le_mul hl
    rw [List.forall_mem_cons, ← ih hl, List.sum_cons, List.length_cons, Nat.mul_succ]
    omega

/-! ## Streams and their interleavings -/

/-- The streams, merged in an order that keeps each of them in its own: again and again, some stream
gives its next entry, until all have given everything. -/
inductive Interleaved {α : Type} : List (List α) → List α → Prop
  | done {streams : List (List α)} (h : ∀ s ∈ streams, s = []) : Interleaved streams []
  | next {streams : List (List α)} {i : Nat} {x : α} {rest merged : List α}
      (hi : streams[i]? = some (x :: rest)) (h : Interleaved (streams.set i rest) merged) :
      Interleaved streams (x :: merged)

namespace Interleaved

variable {α : Type} {streams : List (List α)} {merged : List α}

theorem nil_cons (h : Interleaved streams merged) : Interleaved ([] :: streams) merged := by
  induction h with
  | done h => exact .done (List.forall_mem_cons.mpr ⟨rfl, h⟩)
  | @next _ i _ _ _ hi _ ih => exact .next (i := i + 1) hi ih

/-- A stream may give all it has before the others begin. -/
theorem cons (s : List α) (h : Interleaved streams merged) :
    Interleaved (s :: streams) (s ++ merged) := by
  induction s with
  | nil => exact h.nil_cons
  | cons x s ih => exact .next (i := 0) rfl ih

theorem flatten (streams : List (List α)) : Interleaved streams streams.flatten := by
  induction streams with
  | nil => exact .done fun s hs => (nomatch hs)
  | cons s streams ih => exact ih.cons s

/-- All streams may give their first entries before any gives a second one. -/
theorem firsts (before : List (List α)) {heads : List α} {tails : List (List α)}
    (hlength : heads.length = tails.length) (h : Interleaved (before ++ tails) merged) :
    Interleaved (before ++ List.zipWith List.cons heads tails) (heads ++ merged) := by
  induction heads generalizing before tails with
  | nil =>
    rw [List.length_eq_zero_iff.mp hlength.symm] at h
    exact h
  | cons x heads ih =>
    cases tails with
    | nil => cases hlength
    | cons t tails =>
      have hi : (before ++ List.zipWith List.cons (x :: heads) (t :: tails))[before.length]?
          = some (x :: t) := by simp
      refine .next hi ?_
      have hset := ih (before ++ [t]) (Nat.succ.inj hlength) (by simpa using h)
      simpa using hset

end Interleaved

namespace Build

/-- The event that a file is queued. -/
def queued (request : BuildRequest) : Progress :=
  { file := request.path, stage := .assemble, status := .queued }

/-- The events of a file: it is queued, and goes through its stages when it is reached. -/
def stream (request : BuildRequest) (result : Option BuildResult) : List Progress :=
  queued request :: (result.map (·.events)).getD []

/-- When files follow one another, their events are an interleaving. -/
theorem interleaved_events {requests : List BuildRequest} {results : List (Option BuildResult)}
    (h : requests.length = results.length) :
    Interleaved (List.zipWith stream requests results) (events requests results) := by
  have hstreams : List.zipWith stream requests results = List.zipWith List.cons
      (requests.map queued) (results.map fun r => (r.map (·.events)).getD []) := by
    rw [List.zipWith_map]
    rfl
  rw [hstreams]
  refine Interleaved.firsts [] (by simpa using h) ?_
  rw [List.flatMap_def]
  exact .flatten _

end Build

/-- Whether it is the last event of its file. -/
def Progress.isLast (p : Progress) : Bool :=
  p.status == .error || (p.status == .done && p.stage == .write)

/-! ## Rows -/

/-- The first of the stages behind the first `n` has `n` stages before it. -/
theorem Stage.index_of_prefix_drop {s : Stage} {l : List Stage} {n : Nat}
    (h : s :: l <+: all.drop n) : s.index = n ∧ l <+: all.drop (n + 1) := by
  rcases Nat.lt_or_ge n all.length with hn | hn
  · rw [List.drop_eq_getElem_cons hn, List.cons_prefix_cons] at h
    refine ⟨?_, h.2⟩
    have hall : all[s.index]? = all[n]? := by
      rw [all_getElem?_index, List.getElem?_eq_getElem hn, h.1]
    exact (List.getElem?_inj s.index_lt (by decide)).mp hall
  · rw [List.drop_eq_nil_of_le hn, List.prefix_nil] at h
    cases h

namespace Row

theorem completed_le (r : Row) : r.completed ≤ 4 := by
  rcases r with ⟨path, _ | stage, status, elapsed, error⟩
  · cases status <;> simp [completed, Stage.all]
  · have hlt : stage.index < 4 := stage.index_lt
    cases status <;> simp [completed, Stage.all] <;> omega

/-- A row counts for all stages when it is finished, and for fewer before. -/
theorem completed_eq_iff (r : Row) : r.completed = 4 ↔ r.isFinished = true := by
  rcases r with ⟨path, _ | stage, status, elapsed, error⟩
  · cases status <;> simp [completed, isFinished, Stage.all]
  · cases status <;> cases stage <;> simp [completed, isFinished, Stage.all, Stage.index]

theorem isFinished_of_completed_lt {r : Row} (h : r.completed < 4) : r.isFinished = false := by
  rw [← Bool.not_eq_true, ← r.completed_eq_iff]
  omega

theorem isFinished_apply (r : Row) (p : Progress) :
    (r.apply p.viewEvent).isFinished = p.isLast := rfl

/-- Every event finds the row unfinished, and takes no stage back. -/
def Expects : Row → List Progress → Prop
  | _, [] => True
  | r, p :: ahead => r.isFinished = false ∧ r.completed ≤ (r.apply p.viewEvent).completed ∧
      Expects (r.apply p.viewEvent) ahead

/-- A row that is through no more than `n` stages expects the events of the stages from there on. -/
theorem expects_records (file : Bytes) {records : List StageRecord} {n : Nat} {r : Row}
    (hr : r.completed ≤ n) (horder : records.map (·.stage) <+: Stage.all.drop n)
    (herrors : records.IsChain fun entry _ => entry.error = none) :
    r.Expects (records.flatMap (·.events file)) := by
  induction records generalizing n r with
  | nil => trivial
  | cons entry records ih =>
    obtain ⟨hstage, hrest⟩ := Stage.index_of_prefix_drop horder
    have hn : n < 4 := hstage ▸ entry.stage.index_lt
    -- the stage begins
    set working := r.apply (Progress.viewEvent ⟨file, entry.stage, .working, none, 0⟩)
    have hworking : working.completed = n := hstage
    have hbegin : r.isFinished = false ∧ r.completed ≤ working.completed ∧
        working.isFinished = false :=
      ⟨isFinished_of_completed_lt (by omega), by omega, isFinished_of_completed_lt (by omega)⟩
    refine ⟨hbegin.1, hbegin.2.1, hbegin.2.2, ?_⟩
    -- and ends
    cases herror : entry.error with
    | none =>
      let ended := working.apply (Progress.viewEvent
        ⟨file, entry.stage, .done, none, entry.duration⟩)
      have hended : ended.completed = n + 1 := congrArg (· + 1) hstage
      have hle : working.completed ≤ ended.completed := by omega
      exact ⟨hle, ih (Nat.le_of_eq hended) hrest herrors.tail⟩
    | some e =>
      -- nothing comes behind an error
      have hlast : records = [] := by
        cases records with
        | nil => rfl
        | cons next records =>
          rw [List.isChain_cons_cons, herror] at herrors
          cases herrors.1
      rw [hlast]
      exact ⟨working.completed_le, trivial⟩

/-- A row of its file expects all the events of the file. -/
theorem expects_stream {request : BuildRequest} {result : Option BuildResult}
    (h : Build.IsOutcome request result) :
    Expects { path := request.path } (Build.stream request result) := by
  refine ⟨rfl, Nat.le_refl 0, ?_⟩
  cases result with
  | none => trivial
  | some r =>
    obtain ⟨_, hcourse⟩ := h r rfl
    exact expects_records r.path (Nat.le_refl 0) hcourse.inOrder hcourse.untilError

end Row

namespace Build

theorem file_of_mem_stream {request : BuildRequest} {result : Option BuildResult}
    (h : IsOutcome request result) {p : Progress} (hp : p ∈ stream request result) :
    p.file = request.path := by
  rcases List.mem_cons.mp hp with rfl | hp
  · rfl
  · cases result with
    | none => cases hp
    | some r =>
      obtain ⟨entry, _, hentry⟩ := List.mem_flatMap.mp hp
      rw [← (h r rfl).1]
      rcases List.mem_cons.mp hentry with rfl | hend
      · rfl
      · rw [List.mem_singleton.mp hend]
        cases entry.error <;> rfl

end Build

/-! ## Views -/

namespace View

variable {v : View}

/-- Takes in events, one after the other. -/
def feed (v : View) (events : List Progress) : View :=
  events.foldl (fun v p => v.apply p.viewEvent) v

/-- Events change nothing about which rows there are. -/
theorem map_path_apply (v : View) (e : ViewEvent) :
    (v.apply e).rows.map (·.path) = v.rows.map (·.path) := by
  unfold apply
  split
  · rfl
  · rename_i i _
    apply List.ext_getElem?
    intro j
    rw [List.getElem?_map, List.getElem?_map, List.getElem?_modify]
    cases v.rows[j]? with
    | none => rfl
    | some row => by_cases hij : v.rows.length - 1 - i = j <;> simp [hij, Row.apply]

theorem map_path_feed (v : View) (events : List Progress) :
    (v.feed events).rows.map (·.path) = v.rows.map (·.path) := by
  induction events generalizing v with
  | nil => rfl
  | cons p events ih => exact (ih (v.apply p.viewEvent)).trans (v.map_path_apply p.viewEvent)

/-- Two rows with the same path are one. -/
theorem index_eq_of_path_eq {rows : List Row} (hpaths : (rows.map (·.path)).Nodup) {i j : Nat}
    {row row' : Row} (hi : rows[i]? = some row) (hj : rows[j]? = some row')
    (hpath : row.path = row'.path) : i = j := by
  refine (List.getElem?_inj ?_ hpaths).mp ?_
  · rw [List.length_map]
    exact (List.getElem?_eq_some_iff.mp hi).1
  · rw [List.getElem?_map, List.getElem?_map, hi, hj, Option.map_some, Option.map_some, hpath]

/-- When paths are distinct, a report goes to the one row with its path. -/
theorem rows_apply (hpaths : (v.rows.map (·.path)).Nodup) {i : Nat} {row : Row} {e : ViewEvent}
    (hrow : v.rows[i]? = some row) (hpath : row.path = e.file) :
    (v.apply e).rows = v.rows.modify i (·.apply e) := by
  unfold apply
  cases hfind : v.rows.reverse.findIdx? (·.path == e.file) with
  | none =>
    have hmem : row ∈ v.rows.reverse := List.mem_reverse.mpr (List.mem_of_getElem? hrow)
    have hother := List.findIdx?_eq_none_iff.mp hfind row hmem
    rw [hpath, beq_self_eq_true] at hother
    cases hother
  | some j =>
    obtain ⟨hj, hfound, _⟩ := List.findIdx?_eq_some_iff_getElem.mp hfind
    rw [List.length_reverse] at hj
    rw [List.getElem_reverse, beq_iff_eq] at hfound
    have hlast : v.rows.length - 1 - j < v.rows.length := by omega
    have hindex : v.rows.length - 1 - j = i :=
      index_eq_of_path_eq hpaths (List.getElem?_eq_getElem hlast) hrow (hfound.trans hpath.symm)
    dsimp only
    rw [hindex]

/-- What is known of a row when `seen` was taken in and `ahead` is still to come of its file. -/
structure RowTracks (seen : List Progress) (row : Row) (ahead : List Progress) : Prop where
  own : ∀ p ∈ ahead, p.file = row.path
  expects : row.Expects ahead
  isFinished_iff : row.isFinished = true ↔ ∃ p ∈ seen, p.file = row.path ∧ p.isLast = true

/-- What is known of a view when `seen` was taken in and `streams` are still to come. -/
structure Tracks (v : View) (seen : List Progress) (streams : List (List Progress)) : Prop where
  paths : (v.rows.map (·.path)).Nodup
  length_eq : v.rows.length = streams.length
  row : ∀ (i : Nat) (row : Row) (ahead : List Progress), v.rows[i]? = some row →
    streams[i]? = some ahead → RowTracks seen row ahead

/-- The row of an event takes it in. -/
theorem RowTracks.apply {seen ahead : List Progress} {row : Row} {p : Progress}
    (h : RowTracks seen row (p :: ahead)) :
    RowTracks (seen ++ [p]) (row.apply p.viewEvent) ahead where
  own q hq := h.own q (List.mem_cons_of_mem p hq)
  expects := h.expects.2.2
  isFinished_iff := by
    have hp : p.file = row.path := h.own p List.mem_cons_self
    have hunfinished := h.isFinished_iff
    rw [h.expects.1] at hunfinished
    rw [Row.isFinished_apply]
    constructor
    · intro hlast
      exact ⟨p, List.mem_append_right _ List.mem_cons_self, hp, hlast⟩
    · rintro ⟨q, hq, hfile, hlast⟩
      rcases List.mem_append.mp hq with hq | hq
      · cases hunfinished.mpr ⟨q, hq, hfile, hlast⟩
      · rw [← List.mem_singleton.mp hq]
        exact hlast

/-- The rows of other files stay as they are. -/
theorem RowTracks.other {seen ahead : List Progress} {row : Row} {p : Progress}
    (h : RowTracks seen row ahead) (hp : p.file ≠ row.path) :
    RowTracks (seen ++ [p]) row ahead where
  own := h.own
  expects := h.expects
  isFinished_iff := by
    rw [h.isFinished_iff]
    constructor
    · rintro ⟨q, hq, hlast⟩
      exact ⟨q, List.mem_append_left _ hq, hlast⟩
    · rintro ⟨q, hq, hfile, hlast⟩
      rcases List.mem_append.mp hq with hq | hq
      · exact ⟨q, hq, hfile, hlast⟩
      · rw [List.mem_singleton.mp hq] at hfile
        exact absurd hfile hp

variable {seen : List Progress} {streams : List (List Progress)}

/-- The next event of a stream goes to the row at the place of the stream. -/
theorem Tracks.rows_apply_next (h : v.Tracks seen streams) {i : Nat} {p : Progress}
    {rest : List Progress} (hi : streams[i]? = some (p :: rest)) :
    ∃ row, v.rows[i]? = some row ∧ RowTracks seen row (p :: rest) ∧
      (v.apply p.viewEvent).rows = v.rows.modify i (·.apply p.viewEvent) := by
  have hlt : i < v.rows.length := by
    rw [h.length_eq]
    exact (List.getElem?_eq_some_iff.mp hi).1
  have hrow := List.getElem?_eq_getElem hlt
  have htracks := h.row i _ _ hrow hi
  exact ⟨_, hrow, htracks, rows_apply h.paths hrow (htracks.own p List.mem_cons_self).symm⟩

/-- One event keeps what is known of the view. -/
theorem Tracks.apply (h : v.Tracks seen streams) {i : Nat} {p : Progress} {rest : List Progress}
    (hi : streams[i]? = some (p :: rest)) :
    (v.apply p.viewEvent).Tracks (seen ++ [p]) (streams.set i rest) := by
  obtain ⟨row, hrow, htracks, hrows⟩ := h.rows_apply_next hi
  refine ⟨?_, ?_, ?_⟩
  · rw [map_path_apply]
    exact h.paths
  · rw [hrows, List.length_modify, List.length_set]
    exact h.length_eq
  · intro j row' ahead hrow' hahead
    rw [hrows] at hrow'
    by_cases hij : i = j
    · subst hij
      rw [List.getElem?_modify_eq, hrow] at hrow'
      rw [List.getElem?_set_self (List.getElem?_eq_some_iff.mp hi).1] at hahead
      cases hrow'
      cases hahead
      exact htracks.apply
    · rw [List.getElem?_modify_ne _ _ hij] at hrow'
      rw [List.getElem?_set_ne hij] at hahead
      refine (h.row j row' ahead hrow' hahead).other fun hfile => hij ?_
      -- the row of the event is at `i`
      have hpath : row.path = row'.path := (htracks.own p List.mem_cons_self).symm.trans hfile
      exact index_eq_of_path_eq h.paths hrow hrow' hpath

/-- Any number of events keep what is known of the view; the events that are still to come are
those of the streams that are left. -/
theorem Tracks.feed (h : v.Tracks seen streams) {now ahead : List Progress}
    (hmerged : Interleaved streams (now ++ ahead)) :
    ∃ rest, (v.feed now).Tracks (seen ++ now) rest ∧ Interleaved rest ahead := by
  induction now generalizing v seen streams with
  | nil => exact ⟨streams, by rwa [List.append_nil], hmerged⟩
  | cons p now ih =>
    -- the first event is the next one of some stream
    cases hmerged with
    | next hi hmerged =>
      obtain ⟨rest, htracks, hahead⟩ := ih (h.apply hi) hmerged
      rw [List.append_assoc] at htracks
      exact ⟨rest, htracks, hahead⟩

/-- Before any event, the rows of the files expect all the events of them. -/
theorem tracks_ofFiles (title : Bytes) {requests : List BuildRequest}
    {results : List (Option BuildResult)} (hpaths : (requests.map (·.path)).Nodup)
    (hresults : List.Forall₂ Build.IsOutcome requests results) :
    (ofFiles title (requests.map (·.path))).Tracks []
      (List.zipWith Build.stream requests results) := by
  have hlength := hresults.length_eq
  refine ⟨?_, ?_, ?_⟩
  · simpa [ofFiles, Function.comp_def] using hpaths
  · simp [ofFiles, hlength]
  · intro i row ahead hrow hahead
    rw [List.getElem?_zipWith_eq_some] at hahead
    obtain ⟨request, result, hrequest, hresult, rfl⟩ := hahead
    obtain ⟨result', hresult', houtcome⟩ := exists_getElem?_of_forall₂ hresults hrequest
    obtain rfl : result = result' := Option.some.inj (hresult.symm.trans hresult')
    obtain rfl : row = { path := request.path } := by
      rw [ofFiles, List.map_map, List.getElem?_map, hrequest] at hrow
      exact (Option.some.inj hrow).symm
    refine ⟨fun p hp => Build.file_of_mem_stream houtcome hp, Row.expects_stream houtcome, ?_⟩
    simp [Row.isFinished]

/-! ## The number of passed stages -/

theorem passed_le (v : View) : v.passed ≤ 4 * v.rows.length := by
  have hle := sum_le_mul (l := v.rows.map (·.completed)) (k := 4) (by
    intro n hn
    obtain ⟨row, _, rfl⟩ := List.mem_map.mp hn
    exact row.completed_le)
  rwa [List.length_map] at hle

/-- All stages are passed when all rows are finished. -/
theorem passed_eq_iff (v : View) :
    v.passed = 4 * v.rows.length ↔ ∀ row ∈ v.rows, row.isFinished = true := by
  have hiff := sum_eq_mul_iff (l := v.rows.map (·.completed)) (k := 4) (by
    intro n hn
    obtain ⟨row, _, rfl⟩ := List.mem_map.mp hn
    exact row.completed_le)
  rw [List.length_map, List.forall_mem_map] at hiff
  simp only [Row.completed_eq_iff] at hiff
  exact hiff

/-- An event takes no stage back. -/
theorem Tracks.passed_le_passed (h : v.Tracks seen streams) {i : Nat} {p : Progress}
    {rest : List Progress} (hi : streams[i]? = some (p :: rest)) :
    v.passed ≤ (v.apply p.viewEvent).passed := by
  obtain ⟨row, hrow, htracks, hrows⟩ := h.rows_apply_next hi
  unfold passed
  rw [hrows]
  exact sum_le_sum_modify hrow htracks.expects.2.1

/-- All stages are passed when the last events of all files were taken in. -/
theorem Tracks.passed_eq_iff_isLast (h : v.Tracks seen streams) :
    v.passed = 4 * v.rows.length ↔
      ∀ path ∈ v.rows.map (·.path), ∃ p ∈ seen, p.file = path ∧ p.isLast = true := by
  rw [passed_eq_iff, List.forall_mem_map]
  refine forall₂_congr fun row hrow => ?_
  obtain ⟨i, hi⟩ := List.mem_iff_getElem?.mp hrow
  have hlt : i < streams.length := h.length_eq ▸ (List.getElem?_eq_some_iff.mp hi).1
  exact (h.row i row _ hi (List.getElem?_eq_getElem hlt)).isFinished_iff

/-- A finished row gets no further event. -/
theorem Tracks.isFinished_eq_false_of_next (h : v.Tracks seen streams) {i : Nat} {p : Progress}
    {rest : List Progress} (hi : streams[i]? = some (p :: rest)) {row : Row} (hrow : row ∈ v.rows)
    (hpath : row.path = p.file) : row.isFinished = false := by
  obtain ⟨row', hrow', htracks, _⟩ := h.rows_apply_next hi
  obtain rfl : row = row' := by
    refine List.inj_on_of_nodup_map h.paths hrow (List.mem_of_getElem? hrow') ?_
    exact hpath.trans (htracks.own p List.mem_cons_self)
  exact htracks.expects.1

/-- **Progress never runs backwards.** Take requests with distinct paths. Whatever the host answers,
a build gives each of them an outcome, and the events of files that are built one after another are
an interleaving of the events of each. Now take any interleaving of the events of any outcomes, and
any moment of it. There is one row for each request, and no more than four stages are passed for
each. They are all passed when every file has failed or has been written, and only then. The next
event takes no stage back, and does not go to a finished row. -/
theorem progress_never_falls (title : Bytes) {requests : List BuildRequest}
    (hpaths : (requests.map (·.path)).Nodup) :
    (Build.all requests).Always (List.Forall₂ Build.IsOutcome requests) ∧
    ∀ results, List.Forall₂ Build.IsOutcome requests results →
      Interleaved (List.zipWith Build.stream requests results) (Build.events requests results) ∧
      ∀ seen ahead, Interleaved (List.zipWith Build.stream requests results) (seen ++ ahead) →
        let shown := (ofFiles title (requests.map (·.path))).feed seen
        shown.rows.map (·.path) = requests.map (·.path) ∧
        shown.passed ≤ 4 * requests.length ∧
        (shown.passed = 4 * requests.length ↔
          ∀ r ∈ requests, ∃ p ∈ seen, p.file = r.path ∧ p.isLast = true) ∧
        ∀ p later, ahead = p :: later →
          shown.passed ≤ (shown.apply p.viewEvent).passed ∧
          ∀ row ∈ shown.rows, row.path = p.file → row.isFinished = false := by
  refine ⟨Build.always_all requests, fun results hresults => ⟨?_, ?_⟩⟩
  · exact Build.interleaved_events hresults.length_eq
  intro seen ahead hmerged shown
  obtain ⟨rest, htracks, hahead⟩ := (tracks_ofFiles title hpaths hresults).feed hmerged
  rw [List.nil_append] at htracks
  have hrows : shown.rows.map (·.path) = requests.map (·.path) := by
    rw [map_path_feed]
    simp [ofFiles]
  have hlength : shown.rows.length = requests.length := by
    rw [← List.length_map (·.path), hrows, List.length_map]
  refine ⟨hrows, hlength ▸ shown.passed_le, ?_, ?_⟩
  · have hiff := htracks.passed_eq_iff_isLast
    rwa [hrows, hlength, List.forall_mem_map] at hiff
  · rintro p later rfl
    cases hahead with
    | next hi _ =>
      exact ⟨htracks.passed_le_passed hi, fun row hrow hpath =>
        htracks.isFinished_eq_false_of_next hi hrow hpath⟩

/-- Two files fail, one in its first stage and one in its second. When the first one has failed, the
second one has passed one stage and still gets its events; when both have, all stages are passed. -/
theorem progress_never_falls_for_two :
    let first : BuildRequest := { path := [0x61] }
    let second : BuildRequest := { path := [0x62] }
    let next : Progress := ⟨[0x62], .prepare, .working, none, 0⟩
    let last : Progress := ⟨[0x62], .prepare, .error, some .diagnostics, 0⟩
    let seen := [Build.queued first, Build.queued second, ⟨[0x62], .assemble, .working, none, 0⟩,
      ⟨[0x61], .assemble, .working, none, 0⟩, ⟨[0x62], .assemble, .done, none, 0⟩,
      ⟨[0x61], .assemble, .error, some .diagnostics, 0⟩]
    let shown := (ofFiles [] [[0x61], [0x62]]).feed seen
    shown.passed = 5 ∧ shown.passed ≤ (shown.apply next.viewEvent).passed ∧
      ((ofFiles [] [[0x61], [0x62]]).feed (seen ++ [next, last])).passed = 8 := by
  intro first second next last seen shown
  let results : List (Option BuildResult) :=
    [some { path := [0x61], stages := [⟨.assemble, [], some .diagnostics, 0⟩] },
      some { path := [0x62], stages :=
        [⟨.assemble, [], none, 0⟩, ⟨.prepare, [], some .diagnostics, 0⟩] }]
  have hresults : List.Forall₂ Build.IsOutcome [first, second] results := by
    refine .cons ?_ (.cons ?_ .nil)
    · rintro _ ⟨⟩
      exact ⟨rfl, ⟨_, rfl⟩, .singleton _⟩
    · rintro _ ⟨⟩
      exact ⟨rfl, ⟨_, rfl⟩, .cons_cons rfl (.singleton _)⟩
  have hmerged : Interleaved (List.zipWith Build.stream [first, second] results)
      (seen ++ [next, last]) :=
    .next (i := 0) rfl <| .next (i := 1) rfl <| .next (i := 1) rfl <| .next (i := 0) rfl <|
    .next (i := 1) rfl <| .next (i := 0) rfl <| .next (i := 1) rfl <| .next (i := 1) rfl <|
    .done <| List.forall_mem_cons.mpr ⟨rfl, List.forall_mem_singleton.mpr rfl⟩
  obtain ⟨_, hall⟩ := progress_never_falls [] (show ([first, second].map (·.path)).Nodup by decide)
  obtain ⟨_, hmoment⟩ := hall results hresults
  refine ⟨by decide, ?_, ?_⟩
  · obtain ⟨_, _, _, hnext⟩ := hmoment seen [next, last] hmerged
    exact (hnext next [last] rfl).1
  · obtain ⟨_, _, hiff, _⟩ := hmoment (seen ++ [next, last]) [] hmerged
    refine hiff.mpr (List.forall_mem_cons.mpr ⟨?_, List.forall_mem_singleton.mpr ?_⟩)
    · exact ⟨⟨[0x61], .assemble, .error, some .diagnostics, 0⟩, by simp [seen], rfl, rfl⟩
    · exact ⟨last, by simp [last], rfl, rfl⟩

end View

end CatalystAsm
