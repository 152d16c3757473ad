import CatalystAsm.Build.File
import Mathlib.Data.List.Chain

/-!
# The course of a build

Whatever the host answers, a file goes through its stages in their order, from the first one on, and
a stage that fails is the last one (`Build.always_file`). The work may be cancelled at any moment;
only a source that was read to its end gets past the first stage (`Build.always_assemble`).
-/

namespace CatalystAsm

/-! ## Programs whose host may answer anything -/

namespace Program

variable {α β : Type} {P Q : α → Prop}

/-- Whatever the host answers, the result satisfies `P`. -/
def Always (P : α → Prop) : Program α → Prop
  | .done a => P a
  | .ask _ next => ∀ answer, (next answer).Always P

/-- What holds of every value holds of every result. -/
theorem Always.of_forall (h : ∀ a, P a) (p : Program α) : p.Always P := by
  induction p with
  | done a => exact h a
  | ask request next ih => exact ih

/-- What always holds may be weakened. -/
theorem Always.imp {p : Program α} (hp : p.Always P) (h : ∀ a, P a → Q a) : p.Always Q := by
  induction p with
  | done a => exact h a hp
  | ask request next ih => exact fun answer => ih answer (hp answer)

/-- What follows a program is asked for each of its results. -/
theorem Always.bind {p : Program α} {f : α → Program β} {P : β → Prop}
    (h : p.Always fun a => (f a).Always P) : (p >>= f).Always P := by
  induction p with
  | done a => exact h
  | ask request next ih => exact fun answer => ih answer (h answer)

end Program

namespace Traced

variable {α β : Type}

/-- Whatever the host answers and whatever the log holds, the result satisfies `P`. -/
def Always (P : α → Prop) (m : Traced α) : Prop :=
  ∀ log, (m.run log).Always fun out => P out.1

theorem always_pure {P : α → Prop} {a : α} (h : P a) : Always P (pure a) := fun _ => h

/-- A step that leaves the log alone. -/
theorem Always.program {P : α → Prop} {p : Program α} (h : p.Always P) :
    Always P (p : Traced α) := fun _ => .bind (h.imp fun _ ha => ha)

/-- One step after the other, from whatever log the first one leaves. -/
theorem Always.bind {m : Traced α} {f : α → Traced β} {P : α → Prop} {Q : β → Prop}
    (hm : m.Always P) (hf : ∀ a, P a → (f a).Always Q) : (m >>= f).Always Q := by
  intro log
  exact .bind ((hm log).imp fun out hout => hf out.1 hout out.2)

/-- A step whose result does not matter. -/
theorem Always.after {m : Traced α} {f : α → Traced β} {Q : β → Prop}
    (hf : ∀ a, (f a).Always Q) : (m >>= f).Always Q :=
  .bind (P := fun _ => True) (fun log => .of_forall (fun _ => trivial) (m.run log))
    fun a _ => hf a

theorem Always.map {m : Traced α} {f : α → β} {Q : β → Prop} (hm : m.Always fun a => Q (f a)) :
    (f <$> m).Always Q := by
  intro log
  exact .bind ((hm log).imp fun _ hout => hout)

/-- What each step of a loop gives, the whole loop gives in the same order. -/
theorem Always.mapM {f : α → Traced β} {R : α → β → Prop} (hf : ∀ a, (f a).Always (R a))
    (l : List α) : (l.mapM f).Always (List.Forall₂ R l) := by
  -- the loop carries what it has so far, from the last to the first
  have loop (l : List α) : ∀ acc, (List.mapM.loop f l acc).Always fun out =>
      ∃ new, out = acc.reverse ++ new ∧ List.Forall₂ R l new := by
    induction l with
    | nil => exact fun acc => always_pure ⟨[], (List.append_nil _).symm, .nil⟩
    | cons a l ih =>
      intro acc
      refine .bind (hf a) fun b hb log => ?_
      refine (ih (b :: acc) log).imp ?_
      rintro out ⟨new, hout, hnew⟩
      exact ⟨b :: new, by simpa using hout, .cons hb hnew⟩
  intro log
  refine (loop l [] log).imp ?_
  rintro out ⟨new, hout, hnew⟩
  rw [hout]
  exact hnew

end Traced

/-! ## Cancellation -/

/-- A check is made just when all the lines before it are there. -/
theorem Assembly.lt_checks_iff {f : SourceFile} {check : Nat} :
    check < checks f ↔ linesBefore check ≤ (cursors f).length := by
  rw [checks, linesBefore, cancelInterval, cursors, List.length_map]
  omega

/-- A run that was cancelled at one of its checks did not get to the end of the source. -/
theorem Assembly.eq_none_of_finished {options : Options} {f : SourceFile} {cancelled : Option Nat}
    (hmade : ∀ check ∈ cancelled, check < checks f)
    (h : (ofFile options f cancelled).finished = true) : cancelled = none := by
  cases cancelled with
  | none => rfl
  | some check =>
    have hthere := lt_checks_iff.mp (hmade check rfl)
    have hmissing : (cursors f).length < linesBefore check := of_decide_eq_true h
    omega

/-- The check where the work was cancelled is one of those that were made. -/
theorem Build.always_cancelledAt (left check : Nat) :
    (cancelledAt left check).Always fun cancelled => ∀ k ∈ cancelled, k < check + left := by
  induction left generalizing check with
  | zero => rintro _ ⟨⟩
  | succ left ih =>
    intro answer
    cases answer with
    | true =>
      rintro _ ⟨⟩
      omega
    | false =>
      refine (ih (check + 1)).imp fun cancelled hmade k hk => ?_
      have := hmade k hk
      omega

/-! ## Stages -/

/-- The stages follow one another from the first one on, and a stage behind which another one comes
did not fail. -/
structure IsCourse (records : List StageRecord) : Prop where
  inOrder : records.map (·.stage) <+: Stage.all
  untilError : records.IsChain fun r _ => r.error = none

namespace Build

open Traced

/-- The body of a stage leaves the path and the records of the earlier stages as they are. -/
def KeepsRecords {α : Type} (body : Nat → BuildResult → Traced (BuildResult × Ended α)) : Prop :=
  ∀ span r, (body span r).Always fun out => out.1.path = r.path ∧ out.1.stages = r.stages

/-- Assembling leaves the records of the earlier stages. -/
theorem keepsRecords_assemble (request : BuildRequest) : KeepsRecords (assemble request) := by
  intro span r
  unfold assemble
  refine .after fun stored => ?_
  cases stored with
  | error fault => exact always_pure ⟨rfl, rfl⟩
  | ok stored =>
    refine .after fun cancelled => .after fun _ => .after fun cancelled => ?_
    cases cancelled with
    | true => exact always_pure ⟨rfl, rfl⟩
    | false => exact always_pure ⟨rfl, rfl⟩

/-- **Only a source that was read to its end goes on**, whenever the work is cancelled. -/
theorem always_assemble (request : BuildRequest) (span : Nat) (r : BuildResult) :
    (assemble request span r).Always fun out => ∀ a, out.2.outcome = .ok a →
      a = (Assembly.ofFile request.options (out.1.files.files.getLastD default) none).state := by
  unfold assemble
  refine .after fun stored => ?_
  cases stored with
  | error fault =>
    refine always_pure ?_
    rintro a ⟨⟩
  | ok stored =>
    dsimp only
    generalize r.files.add request.path _ _ = files
    refine .bind (.program (always_cancelledAt _ 0)) fun cancelled hmade => ?_
    refine .after fun _ => .after fun late => ?_
    cases late with
    | true =>
      -- cancelled behind the assembly, which is then not used
      refine always_pure ?_
      rintro a ⟨⟩
    | false =>
      refine always_pure fun a ha => ?_
      dsimp only at ha
      split at ha
      · -- a run that is cut short has not finished, so this one was not
        rename_i hgood
        cases ha
        have hfinished := (Bool.and_eq_true_iff.mp (Bool.and_eq_true_iff.mp hgood).1).1
        rw [Nat.zero_add] at hmade
        rw [Assembly.eq_none_of_finished hmade hfinished]
        rfl
      · cases ha

/-- Completing the model leaves the records of the earlier stages. -/
theorem keepsRecords_prepare (a : Assembler) : KeepsRecords (prepare a) := by
  intro span r
  unfold prepare
  dsimp only
  cases a.completed with
  | error e => exact always_pure ⟨rfl, rfl⟩
  | ok model => exact always_pure ⟨rfl, rfl⟩

/-- Laying out the binary leaves the records of the earlier stages. -/
theorem keepsRecords_layout (m : Model) : KeepsRecords (layout m) := by
  intro span r
  unfold layout
  refine .after fun _ => ?_
  cases m.generate with
  | error e => exact always_pure ⟨rfl, rfl⟩
  | ok binary => exact always_pure ⟨rfl, rfl⟩

/-- Writing leaves the records of the earlier stages. -/
theorem keepsRecords_write (request : BuildRequest) (m : Model) (binary : Bytes) :
    KeepsRecords (write request m binary) := by
  intro span r
  unfold write
  refine .after fun dumped => ?_
  cases dumped with
  | error e => exact always_pure ⟨rfl, rfl⟩
  | ok _ =>
    refine .after fun written => ?_
    cases written with
    | error e => exact always_pure ⟨rfl, rfl⟩
    | ok _ => exact always_pure ⟨rfl, rfl⟩

/-- A stage puts one record behind the earlier ones, with an error unless there is a value. -/
theorem always_stage {α : Type} {body : Nat → BuildResult → Traced (BuildResult × Ended α)}
    (hbody : KeepsRecords body) (place : Nat) (s : Stage) (r : BuildResult) :
    (stage place s r body).Always fun out => out.1.path = r.path ∧
      ∃ entry, out.1.stages = r.stages ++ [entry] ∧ entry.stage = s ∧
        (out.2.isSome → entry.error = none) := by
  unfold stage
  refine .after fun started => .after fun span => .bind (hbody span r) fun out hout => ?_
  obtain ⟨r', note, outcome⟩ := out
  obtain ⟨hpath, hstages⟩ := hout
  -- the record is all that is added to the records that the body kept
  refine .after fun finished => ?_
  let entry (error : Option BuildError) : StageRecord :=
    { stage := s, note, error, duration := finished.ns - started.ns }
  cases outcome with
  | error e =>
    refine .after fun _ => .after fun _ => always_pure ⟨hpath, entry (some e), ?_, rfl, ?_⟩
    · exact congrArg (· ++ [entry (some e)]) hstages
    · intro hvalue
      cases hvalue
  | ok a =>
    refine .after fun _ => always_pure ⟨hpath, entry none, ?_, rfl, fun _ => rfl⟩
    exact congrArg (· ++ [entry none]) hstages

/-- The file is through the first `n` stages. -/
structure IsThrough (n : Nat) (records : List StageRecord) : Prop where
  stages : records.map (·.stage) = Stage.all.take n
  passed : ∀ r ∈ records, r.error = none

/-- A file that is through some stages has taken its course. -/
theorem IsThrough.isCourse {n : Nat} {records : List StageRecord} (h : IsThrough n records) :
    IsCourse records where
  inOrder := h.stages ▸ List.take_prefix n _
  untilError := by
    refine List.Pairwise.isChain (List.pairwise_of_forall_mem_list ?_)
    intro r hr _ _
    exact h.passed r hr

/-- The next stage leads on, and to all the stages up to it when it did not fail. -/
theorem IsThrough.append {records : List StageRecord} {entry : StageRecord}
    (h : IsThrough entry.stage.index records) :
    IsCourse (records ++ [entry]) ∧
      (entry.error = none → IsThrough (entry.stage.index + 1) (records ++ [entry])) := by
  have hstages : (records ++ [entry]).map (·.stage) = Stage.all.take (entry.stage.index + 1) := by
    rw [List.map_append, h.stages, List.take_add_one, Stage.all_getElem?_index]
    rfl
  refine ⟨⟨hstages ▸ List.take_prefix _ _, ?_⟩, fun hnone => ⟨hstages, ?_⟩⟩
  · refine h.isCourse.untilError.append (.singleton entry) ?_
    intro r hr _ _
    exact h.passed r (List.mem_of_getLast? hr)
  · intro r hr
    rcases List.mem_append.mp hr with hr | hr
    · exact h.passed r hr
    · rw [List.mem_singleton.mp hr]
      exact hnone

/-- What is known of a file after a stage; `b` tells whether the stage had a value. -/
structure Reached (path : Bytes) (n : Nat) (r : BuildResult) (b : Bool) : Prop where
  path_eq : r.path = path
  isCourse : IsCourse r.stages
  through : b = true → IsThrough n r.stages

/-- **One stage**: a file that is through the earlier ones is through this one too, or it stops
here. -/
theorem always_stage_reached {α : Type}
    {body : Nat → BuildResult → Traced (BuildResult × Ended α)} (hbody : KeepsRecords body)
    (place : Nat) (s : Stage) {r : BuildResult} {path : Bytes}
    (h : Reached path s.index r true) :
    (stage place s r body).Always fun out => Reached path (s.index + 1) out.1 out.2.isSome := by
  intro log
  refine (always_stage hbody place s r log).imp ?_
  rintro ⟨out, log'⟩ ⟨hpath, entry, hstages, rfl, hpassed⟩
  obtain ⟨hcourse, hthrough⟩ := (h.through rfl).append
  refine ⟨hpath.trans h.path_eq, hstages ▸ hcourse, fun hvalue => ?_⟩
  exact hstages ▸ hthrough (hpassed hvalue)

/-- The stages of a file follow one another until one of them fails. -/
theorem always_stages (request : BuildRequest) (place : Nat) {r : BuildResult} {path : Bytes}
    (h : Reached path 0 r true) :
    (stages request place r).Always fun out => out.path = path ∧ IsCourse out.stages := by
  have stop {n : Nat} {out : BuildResult} {b : Bool} (hout : Reached path n out b) :
      Always (fun out => out.path = path ∧ IsCourse out.stages) (pure out) :=
    always_pure ⟨hout.path_eq, hout.isCourse⟩
  unfold stages
  refine .bind (always_stage_reached (keepsRecords_assemble request) place .assemble h) ?_
  rintro ⟨r₁, assembled⟩ h₁
  cases assembled with
  | none => exact stop h₁
  | some a =>
  refine .bind (always_stage_reached (keepsRecords_prepare a) place .prepare h₁) ?_
  rintro ⟨r₂, prepared⟩ h₂
  cases prepared with
  | none => exact stop h₂
  | some m =>
  refine .bind (always_stage_reached (keepsRecords_layout m) place .layout h₂) ?_
  rintro ⟨r₃, binary⟩ h₃
  cases binary with
  | none => exact stop h₃
  | some b =>
  -- without anything to write there is no last stage
  dsimp only
  split
  · exact stop h₃
  · refine .bind (always_stage_reached (keepsRecords_write request m b) place .write h₃) ?_
    rintro ⟨r₄, written⟩ h₄
    exact stop h₄

/-- What can become of a file: it is never reached, or it takes its course. -/
def IsOutcome (request : BuildRequest) (result : Option BuildResult) : Prop :=
  ∀ r ∈ result, r.path = request.path ∧ IsCourse r.stages

/-- A file takes its course, under the path it was asked for. -/
theorem always_file (request : BuildRequest) (current : Option Nat) :
    (file request current).Always fun r => IsOutcome request (some r) := by
  have start (bag : Bag) : Reached request.path 0 { path := request.path, bag } true :=
    ⟨rfl, ⟨List.nil_prefix, .nil⟩, fun _ => ⟨rfl, by simp⟩⟩
  unfold file
  refine .after fun place => .bind (always_stages request place (start _)) fun r hr => ?_
  refine .after fun _ => always_pure ?_
  rintro _ ⟨⟩
  exact hr

/-- A file that is not reached has no outcome that could be wrong. -/
theorem always_fileUnlessCancelled (request : BuildRequest) (current : Option Nat) :
    (fileUnlessCancelled request current).Always (IsOutcome request) := by
  unfold fileUnlessCancelled
  refine .after fun cancelled => ?_
  cases cancelled with
  | true =>
    refine always_pure ?_
    rintro _ ⟨⟩
  | false => exact .bind (always_file request current) fun _ hr => always_pure hr

/-- **Files keep to the order of the stages.** -/
theorem always_all (requests : List BuildRequest) :
    (all requests).Always (List.Forall₂ IsOutcome requests) := by
  unfold all
  cases requests with
  | nil => exact always_pure .nil
  | cons request requests =>
    refine .after fun place => ?_
    refine .bind (.mapM (always_fileUnlessCancelled · (some place)) _) fun results hresults => ?_
    exact .after fun _ => always_pure hresults

end Build

end CatalystAsm
