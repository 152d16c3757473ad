import CatalystAsm.Diagnostic.Document
import Mathlib.Data.Finset.Card

/-!
# What a bag accounts for

Diagnostics are added to a bag and the bag is sorted in between, in any order. `Bag.Accounts` ties
the bag to the list of everything that was added: each key counts once, either as a kept entry or as
a dropped one, and the first error is always kept. One more diagnostic keeps it
(`Accounts.add`), and so does sorting (`Accounts.sort`).
-/

namespace CatalystAsm

/-- The diagnostics whose key does not occur at an earlier place. -/
def firstOccurrences (ds : List Diagnostic) : List Diagnostic :=
  (ds.zipIdx.filter fun e => e.1.key ∉ (ds.take e.2).map Diagnostic.key).map (·.1)

/-- One more diagnostic is a first occurrence if its key is new. -/
theorem firstOccurrences_append (ds : List Diagnostic) (d : Diagnostic) :
    firstOccurrences (ds ++ [d])
      = firstOccurrences ds ++ if d.key ∈ ds.map Diagnostic.key then [] else [d] := by
  have hold : ds.zipIdx.filter (fun e => e.1.key ∉ ((ds ++ [d]).take e.2).map Diagnostic.key)
      = ds.zipIdx.filter fun e => e.1.key ∉ (ds.take e.2).map Diagnostic.key := by
    apply List.filter_congr
    intro e he
    have hlt : e.2 < ds.length := by
      have := (List.mem_zipIdx he).2.1
      omega
    rw [List.take_append_of_le_length (by omega)]
  have hnew : (ds ++ [d]).take ds.length = ds := List.take_left
  unfold firstOccurrences
  rw [List.zipIdx_append, List.filter_append, List.map_append, hold, Nat.zero_add,
    List.zipIdx_singleton]
  by_cases hmem : d.key ∈ ds.map Diagnostic.key
  · rw [if_pos hmem, List.filter_cons_of_neg (by simpa [hnew] using hmem)]
    rfl
  · rw [if_neg hmem, List.filter_cons_of_pos (by simpa [hnew] using hmem)]
    rfl

/-- The first error of a list. -/
def firstError? (ds : List Diagnostic) : Option Diagnostic := ds.find? (·.severity = .error)

/-- The first error of a list with one more diagnostic is the old one, or else the new
diagnostic. -/
theorem firstError?_append_eq_some {ds : List Diagnostic} {d e : Diagnostic}
    (h : firstError? (ds ++ [d]) = some e) :
    firstError? ds = some e ∨ firstError? ds = none ∧ e = d ∧ d.severity = .error := by
  unfold firstError? at h ⊢
  rw [List.find?_append] at h
  cases hold : ds.find? (·.severity = .error) with
  | some f =>
    rw [hold, Option.some_or] at h
    exact .inl h
  | none =>
    rw [hold, Option.none_or] at h
    have hed : e = d := by simpa using List.mem_of_find?_eq_some h
    have herror : e.severity = .error := by simpa using List.find?_some h
    exact .inr ⟨rfl, hed, hed ▸ herror⟩

namespace Bag

/-- What is done to a bag. -/
inductive Action where
  | add (d : Diagnostic)
  | sort
  deriving DecidableEq

/-- The bag after an action. -/
def act (b : Bag) : Action → Bag
  | .add d => (b.add d).1
  | .sort => b.sort

/-- The bag after actions one after another. -/
def actAll (b : Bag) (l : List Action) : Bag := l.foldl act b

/-- The diagnostic that an action adds. -/
def Action.added? : Action → Option Diagnostic
  | .add d => some d
  | .sort => none

/-- The diagnostics that actions add, in order. -/
def added (l : List Action) : List Diagnostic := l.filterMap Action.added?

theorem actAll_append (b : Bag) (l : List Action) (x : Action) :
    b.actAll (l ++ [x]) = (b.actAll l).act x := List.foldl_concat ..

/-- One more action adds its diagnostic, if it has one. -/
theorem added_append (l : List Action) (x : Action) :
    added (l ++ [x]) = added l ++ x.added?.toList := by
  unfold added
  rw [List.filterMap_append]
  cases x <;> rfl

/-- The severities that are counted. -/
def countedSeverities : List Severity := [.info, .warning, .error]

/-- Counting a diagnostic counts its own severity and no other. -/
theorem countOf_count (b : Bag) (s : Severity) {t : Severity} (ht : t ∈ countedSeverities) :
    (b.count s).countOf t = b.countOf t + if s = t then 1 else 0 := by
  have hcases : t = .info ∨ t = .warning ∨ t = .error := by simpa [countedSeverities] using ht
  unfold count
  by_cases hinfo : s = .info
  · subst hinfo
    rcases hcases with rfl | rfl | rfl <;> rfl
  by_cases hwarning : s = .warning
  · subst hwarning
    rcases hcases with rfl | rfl | rfl <;> rfl
  by_cases herror : s = .error
  · subst herror
    rcases hcases with rfl | rfl | rfl <;> rfl
  -- a severity without a counter of its own
  rw [if_neg hinfo, if_neg hwarning, if_neg herror]
  rcases hcases with rfl | rfl | rfl
  · rw [if_neg hinfo, Nat.add_zero]
  · rw [if_neg hwarning, Nat.add_zero]
  · rw [if_neg herror, Nat.add_zero]

/-! ## One diagnostic more -/

/-- The bag with a diagnostic counted, before it is decided whether it is kept. -/
def counted (b : Bag) (d : Diagnostic) : Bag :=
  { b.count d.severity with seen := d.key :: b.seen }

/-- Counting changes neither the limit nor what was dropped. -/
theorem counted_frame (b : Bag) (d : Diagnostic) :
    (b.counted d).limit = b.limit ∧ (b.counted d).dropped = b.dropped := by
  unfold counted count
  split_ifs <;> exact ⟨rfl, rfl⟩

/-- Whether a diagnostic takes the place of the last entry of a full bag. -/
def isFirstError (b : Bag) (d : Diagnostic) : Bool :=
  Severity.error.rank ≤ d.severity.rank && b.errors == 0

section

variable {b : Bag} {d : Diagnostic}

theorem errors_of_isFirstError (h : b.isFirstError d = true) : b.errors = 0 :=
  beq_iff_eq.mp (Bool.and_eq_true_iff.mp h).2

/-- An error that comes when there was none is the first one. -/
theorem isFirstError_of_error (hd : d.severity = .error) (h : b.errors = 0) :
    b.isFirstError d = true := by
  unfold isFirstError
  rw [hd, h]
  rfl

/-- A diagnostic that was seen changes nothing. -/
theorem add_of_seen (h : d.key ∈ b.seen) : b.add d = (b, false) := by
  unfold add
  rw [if_pos (List.contains_iff_mem.mpr h)]

/-- A new diagnostic is kept while there is room. -/
theorem add_of_hasRoom (h : d.key ∉ b.seen) (hroom : b.hasRoom = true) :
    b.add d = ({ b.counted d with items := b.items ++ [d] }, true) := by
  unfold add
  rw [if_neg (fun hmem => h (List.contains_iff_mem.mp hmem))]
  exact if_pos hroom

/-- A full bag counts a new diagnostic as dropped; the first error takes the last place. -/
theorem add_of_full (h : d.key ∉ b.seen) (hroom : b.hasRoom = false) :
    b.add d = ({ b.counted d with
      items := if b.isFirstError d then b.items.dropLast ++ [d] else b.items,
      dropped := b.dropped + 1 }, false) := by
  unfold add
  rw [if_neg (fun hmem => h (List.contains_iff_mem.mp hmem))]
  exact if_neg (by rw [hroom]; exact Bool.false_ne_true)

/-- There is room without a limit or below it. -/
theorem limit_of_hasRoom (h : b.hasRoom = true) : b.limit ≤ 0 ∨ b.items.length < b.limit := by
  unfold hasRoom at h
  simpa only [Bool.or_eq_true, decide_eq_true_eq] using h

/-- A full bag has a limit, and so it has an entry to give up. -/
theorem limit_of_full (h : b.hasRoom = false) : 0 < b.limit ∧ b.limit ≤ b.items.length := by
  unfold hasRoom at h
  simp only [Bool.or_eq_false_iff, decide_eq_false_iff_not, Int.not_le, Int.not_lt] at h
  exact h

/-- A full bag keeps its length when the last entry is replaced. -/
theorem length_replaceLast (h : b.hasRoom = false) :
    (b.items.dropLast ++ [d]).length = b.items.length := by
  have := limit_of_full h
  rw [List.length_append, List.length_dropLast, List.length_singleton]
  omega

/-- Adding tells whether the number of entries grew. -/
theorem add_kept_iff (b : Bag) (d : Diagnostic) :
    (b.add d).2 = true ↔ b.items.length < (b.add d).1.items.length := by
  by_cases hseen : d.key ∈ b.seen
  · rw [add_of_seen hseen]
    simp
  cases hroom : b.hasRoom with
  | true =>
    rw [add_of_hasRoom hseen hroom]
    simp
  | false =>
    rw [add_of_full hseen hroom]
    dsimp only
    split
    · rw [length_replaceLast hroom]
      simp
    · simp

end

/-! ## The account -/

/-- The bag holds what a list of diagnostics, added in this order, comes to. -/
structure Accounts (limit : Int) (ds : List Diagnostic) (b : Bag) : Prop where
  limit_eq : b.limit = limit
  mem_seen : ∀ k, k ∈ b.seen ↔ k ∈ ds.map Diagnostic.key
  nodup_seen : b.seen.Nodup
  /-- every key is kept or dropped -/
  total : b.items.length + b.dropped = b.seen.length
  bounded : 0 < limit → (b.items.length : Int) ≤ limit
  nodup : (b.items.map Diagnostic.key).Nodup
  mem_of_kept : ∀ d ∈ b.items, d ∈ ds
  counts : ∀ s ∈ countedSeverities, b.countOf s = b.seen.countP (·.severity = s)
  /-- the first error is kept -/
  first : ∀ d, firstError? ds = some d → d ∈ b.items

/-- An empty bag holds what no diagnostics come to. -/
theorem accounts_withLimit (limit : Int) : Accounts limit [] (withLimit limit) where
  limit_eq := rfl
  mem_seen _ := Iff.rfl
  nodup_seen := List.nodup_nil
  total := rfl
  bounded h := Int.le_of_lt h
  nodup := List.nodup_nil
  mem_of_kept _ hd := absurd hd List.not_mem_nil
  counts s hs := by
    have hcases : s = .info ∨ s = .warning ∨ s = .error := by simpa [countedSeverities] using hs
    rcases hcases with rfl | rfl | rfl <;> rfl
  first _ hd := by cases hd

namespace Accounts

variable {limit : Int} {ds : List Diagnostic} {b : Bag} {d : Diagnostic}

theorem key_mem_seen (h : Accounts limit ds b) {e : Diagnostic} (he : e ∈ b.items) :
    e.key ∈ b.seen := (h.mem_seen _).mpr (List.mem_map_of_mem (h.mem_of_kept e he))

/-- Errors are counted from the first one on. -/
theorem errors_eq_zero_iff (h : Accounts limit ds b) : b.errors = 0 ↔ firstError? ds = none := by
  have hcount : b.errors = b.seen.countP (·.severity = .error) :=
    h.counts .error (by simp [countedSeverities])
  unfold firstError?
  rw [hcount, List.countP_eq_zero, List.find?_eq_none]
  constructor
  · intro hnone e he
    exact hnone e.key ((h.mem_seen _).mpr (List.mem_map_of_mem he))
  · intro hnone k hk
    obtain ⟨e, he, rfl⟩ := List.mem_map.mp ((h.mem_seen k).mp hk)
    exact hnone e he

/-- A key that occurred before changes nothing. -/
theorem add_old (h : Accounts limit ds b) (hseen : d.key ∈ b.seen) :
    Accounts limit (ds ++ [d]) b := by
  have hkey : d.key ∈ ds.map Diagnostic.key := (h.mem_seen _).mp hseen
  refine { h with mem_seen := ?_, mem_of_kept := ?_, first := ?_ }
  · intro k
    rw [h.mem_seen, List.map_append, List.mem_append, List.map_singleton, List.mem_singleton]
    constructor
    · exact .inl
    · rintro (hk | rfl)
      · exact hk
      · exact hkey
  · intro e he
    exact List.mem_append_left _ (h.mem_of_kept e he)
  · intro e he
    rcases firstError?_append_eq_some he with hold | ⟨hnone, rfl, herror⟩
    · exact h.first e hold
    · -- the earlier diagnostic of this key is an error as well
      obtain ⟨f, hf, hsame⟩ := List.mem_map.mp hkey
      have hseverity : f.severity = .error :=
        (congrArg Diagnostic.Key.severity hsame).trans herror
      exact absurd (decide_eq_true hseverity) (List.find?_eq_none.mp hnone f hf)

/-- A new key is counted; what is left to be accounted for are the entries. -/
theorem add_new (h : Accounts limit ds b) (hnew : d.key ∉ b.seen) {items : List Diagnostic}
    {dropped : Nat} (htotal : items.length + dropped = b.items.length + b.dropped + 1)
    (hbounded : 0 < limit → (items.length : Int) ≤ limit)
    (hnodup : (items.map Diagnostic.key).Nodup)
    (hmem : ∀ e ∈ items, e ∈ b.items ∨ e = d)
    (hfirst : ∀ e, firstError? (ds ++ [d]) = some e → e ∈ items) :
    Accounts limit (ds ++ [d]) { b.counted d with items := items, dropped := dropped } where
  limit_eq := (counted_frame b d).1.trans h.limit_eq
  mem_seen k := by
    show k ∈ d.key :: b.seen ↔ _
    rw [List.mem_cons, h.mem_seen, List.map_append, List.mem_append, List.map_singleton,
      List.mem_singleton, Or.comm]
  nodup_seen := List.nodup_cons.mpr ⟨hnew, h.nodup_seen⟩
  total := by
    show items.length + dropped = (d.key :: b.seen).length
    rw [htotal, h.total, List.length_cons]
  bounded := hbounded
  nodup := hnodup
  mem_of_kept e he := by
    rcases hmem e he with hold | rfl
    · exact List.mem_append_left _ (h.mem_of_kept e hold)
    · exact List.mem_append_right _ (List.mem_singleton_self e)
  counts s hs := by
    show (b.count d.severity).countOf s = (d.key :: b.seen).countP _
    have hkey : d.key.severity = d.severity := rfl
    rw [countOf_count b d.severity hs, h.counts s hs, List.countP_cons, hkey]
    simp only [decide_eq_true_eq]
  first := hfirst

/-- Entries together with a diagnostic of a new key have different keys. -/
theorem nodup_append (h : Accounts limit ds b) (hnew : d.key ∉ b.seen) {items : List Diagnostic}
    (hitems : items.Sublist b.items) : ((items ++ [d]).map Diagnostic.key).Nodup := by
  rw [List.map_append, List.map_singleton, List.nodup_append]
  refine ⟨h.nodup.sublist (hitems.map _), List.nodup_singleton _, ?_⟩
  intro k hk l hl heq
  obtain ⟨e, he, rfl⟩ := List.mem_map.mp hk
  rw [List.mem_singleton.mp hl] at heq
  exact hnew (heq ▸ h.key_mem_seen (hitems.subset he))

/-- **One more diagnostic is accounted for.** -/
theorem add (h : Accounts limit ds b) (d : Diagnostic) :
    Accounts limit (ds ++ [d]) (b.add d).1 := by
  by_cases hseen : d.key ∈ b.seen
  · rw [add_of_seen hseen]
    exact h.add_old hseen
  cases hroom : b.hasRoom with
  | true =>
    rw [add_of_hasRoom hseen hroom]
    refine h.add_new hseen ?_ ?_ (h.nodup_append hseen (List.Sublist.refl _)) ?_ ?_
    · rw [(counted_frame b d).2, List.length_append, List.length_singleton]
      omega
    · intro hpos
      have hlt := (limit_of_hasRoom hroom).resolve_left (by rw [h.limit_eq]; omega)
      rw [h.limit_eq] at hlt
      rw [List.length_append, List.length_singleton]
      omega
    · intro e he
      simpa using he
    · intro e he
      rcases firstError?_append_eq_some he with hold | ⟨-, rfl, -⟩
      · exact List.mem_append_left _ (h.first e hold)
      · exact List.mem_append_right _ (List.mem_singleton_self e)
  | false =>
    rw [add_of_full hseen hroom]
    have hlimit := limit_of_full hroom
    cases hreplace : b.isFirstError d with
    | true =>
      rw [if_pos rfl]
      refine h.add_new hseen ?_ ?_ (h.nodup_append hseen (List.dropLast_sublist _)) ?_ ?_
      · rw [length_replaceLast hroom]
        omega
      · rw [length_replaceLast hroom]
        exact h.bounded
      · intro e he
        rcases List.mem_append.mp he with he | he
        · exact .inl (List.dropLast_subset _ he)
        · exact .inr (List.mem_singleton.mp he)
      · intro e he
        rcases firstError?_append_eq_some he with hold | ⟨-, rfl, -⟩
        · -- there is no error yet
          rw [h.errors_eq_zero_iff.mp (errors_of_isFirstError hreplace)] at hold
          cases hold
        · exact List.mem_append_right _ (List.mem_singleton_self e)
    | false =>
      rw [if_neg Bool.false_ne_true]
      refine h.add_new hseen (by omega) h.bounded h.nodup (fun e he => .inl he) ?_
      intro e he
      rcases firstError?_append_eq_some he with hold | ⟨hnone, rfl, herror⟩
      · exact h.first e hold
      · -- the first error would have taken the place of the last entry
        have hzero := h.errors_eq_zero_iff.mpr hnone
        rw [isFirstError_of_error herror hzero] at hreplace
        cases hreplace

/-- Sorting changes the order of the entries and nothing else. -/
theorem sort (h : Accounts limit ds b) : Accounts limit ds b.sort := by
  have hperm : b.sort.items.Perm b.items := List.mergeSort_perm ..
  have hlength : b.sort.items.length = b.items.length := hperm.length_eq
  refine { h with total := ?_, bounded := ?_, nodup := ?_, mem_of_kept := ?_, first := ?_ }
  · rw [hlength]
    exact h.total
  · rw [hlength]
    exact h.bounded
  · exact (hperm.map _).nodup_iff.mpr h.nodup
  · intro e he
    exact h.mem_of_kept e (hperm.mem_iff.mp he)
  · intro e he
    exact hperm.mem_iff.mpr (h.first e he)

/-- The number of different keys, kept or dropped. -/
theorem card_keys (h : Accounts limit ds b) :
    b.items.length + b.dropped = (ds.map Diagnostic.key).toFinset.card := by
  have hseen : b.seen.toFinset = (ds.map Diagnostic.key).toFinset := by
    ext k
    rw [List.mem_toFinset, List.mem_toFinset, h.mem_seen]
  rw [h.total, ← hseen, List.toFinset_card_of_nodup h.nodup_seen]

/-- The number of different keys of a severity that is counted. -/
theorem card_severity (h : Accounts limit ds b) {s : Severity} (hs : s ∈ countedSeverities) :
    b.countOf s = ((ds.map Diagnostic.key).toFinset.filter (·.severity = s)).card := by
  have hseen : (b.seen.filter (·.severity = s)).toFinset
      = (ds.map Diagnostic.key).toFinset.filter (·.severity = s) := by
    ext k
    simp [h.mem_seen]
  rw [h.counts s hs, List.countP_eq_length_filter, ← hseen,
    List.toFinset_card_of_nodup (h.nodup_seen.filter _)]

end Accounts

/-- **Whatever is done to an empty bag is accounted for.** -/
theorem accounts_actAll (limit : Int) (l : List Action) :
    Accounts limit (added l) ((withLimit limit).actAll l) := by
  induction l using List.reverseRecOn with
  | nil => exact accounts_withLimit limit
  | append_singleton l x ih =>
    rw [actAll_append, added_append]
    cases x with
    | add d => exact ih.add d
    | sort =>
      rw [show Action.sort.added?.toList = [] from rfl, List.append_nil]
      exact ih.sort

/-- Without a limit and without sorting, the entries are the first occurrences in order. -/
theorem items_actAll_of_unlimited {limit : Int} (hlimit : limit ≤ 0) {l : List Action}
    (hsort : .sort ∉ l) : ((withLimit limit).actAll l).items = firstOccurrences (added l) := by
  induction l using List.reverseRecOn with
  | nil => rfl
  | append_singleton l x ih =>
    have haccounts := accounts_actAll limit l
    have hold := ih fun hmem => hsort (List.mem_append_left _ hmem)
    rw [actAll_append, added_append]
    cases x with
    | sort => exact absurd (List.mem_append_right _ (List.mem_singleton_self _)) hsort
    | add d =>
      show (((withLimit limit).actAll l).add d).1.items = firstOccurrences (added l ++ [d])
      rw [firstOccurrences_append, ← hold]
      by_cases hseen : d.key ∈ ((withLimit limit).actAll l).seen
      · rw [add_of_seen hseen, if_pos ((haccounts.mem_seen _).mp hseen), List.append_nil]
      · have hroom : ((withLimit limit).actAll l).hasRoom = true := by
          unfold hasRoom
          rw [haccounts.limit_eq, decide_eq_true hlimit]
          rfl
        rw [add_of_hasRoom hseen hroom, if_neg fun hmem => hseen ((haccounts.mem_seen _).mpr hmem)]

end Bag

/-! ## Documents -/

/-- The number in a field of a document, zero when the field is left out. -/
def Json.numberAt (name : String) : Json → Int
  | .object fields =>
    match fields.lookup (.ofString name) with
    | some (.number n) => n
    | _ => 0
  | _ => 0

/-- The files that a diagnostic is about are in a set. -/
def Diagnostic.KnownTo (files : FileSet) (d : Diagnostic) : Prop :=
  ∀ span ∈ d.span :: d.notes.map (·.span), (files.get? span.file).isSome = true

theorem isSome_mapM {α β : Type} {f : α → Option β} {l : List α}
    (h : ∀ x ∈ l, (f x).isSome = true) : (l.mapM f).isSome = true := by
  induction l with
  | nil => rfl
  | cons x l ih =>
    obtain ⟨y, hy⟩ := Option.isSome_iff_exists.mp (h x List.mem_cons_self)
    obtain ⟨ys, hys⟩ := Option.isSome_iff_exists.mp (ih fun z hz => h z (List.mem_cons_of_mem x hz))
    rw [List.mapM_cons, hy, hys]
    rfl

namespace DiagnosticDocument

variable {o : DocumentOptions} {files : FileSet}

/-- A span of a known file has a location. -/
theorem isSome_location? {span : Span} (h : (files.get? span.file).isSome = true) :
    (location? o files span).isSome = true := by
  obtain ⟨f, hf⟩ := Option.isSome_iff_exists.mp h
  unfold location?
  rw [hf]
  rfl

/-- A note about a known file has its document. -/
theorem isSome_note? {n : Note} (h : (files.get? n.span.file).isSome = true) :
    (note? o files n).isSome = true := by
  obtain ⟨place, hplace⟩ := Option.isSome_iff_exists.mp (isSome_location? (o := o) h)
  unfold note?
  rw [hplace]
  rfl

/-- A diagnostic about known files has its document. -/
theorem isSome_diagnostic? {d : Diagnostic} (h : d.KnownTo files) :
    (diagnostic? o files d).isSome = true := by
  have hnotes : ((if o.notes then d.notes else []).mapM (note? o files)).isSome = true := by
    apply isSome_mapM
    intro n hn
    have hmem : n ∈ d.notes := by
      split at hn
      · exact hn
      · cases hn
    exact isSome_note? (h n.span (List.mem_cons_of_mem _ (List.mem_map_of_mem hmem)))
  obtain ⟨place, hplace⟩ :=
    Option.isSome_iff_exists.mp (isSome_location? (o := o) (h d.span List.mem_cons_self))
  obtain ⟨notes, hnotes⟩ := Option.isSome_iff_exists.mp hnotes
  unfold diagnostic?
  rw [hplace]
  show (Option.bind _ _).isSome = true
  rw [hnotes]
  rfl

end DiagnosticDocument

namespace Bag

/-- A document lists no more entries than the bag keeps. -/
theorem length_listed_le (o : DocumentOptions) (b : Bag) :
    (o.listed b).length ≤ b.items.length := by
  unfold DocumentOptions.listed
  split
  · exact List.length_take_le' ..
  · exact Nat.le_refl _

/-- What a document lists and what it leaves out are together what the bag kept and dropped. -/
theorem numbers_document {o : DocumentOptions} {files : FileSet} {b : Bag} {doc : Json}
    (h : b.document? o files = some doc) :
    doc.numberAt "count" + doc.numberAt "omitted" = b.items.length + b.dropped := by
  have hle := length_listed_le o b
  unfold document? at h
  obtain ⟨items, -, h⟩ := Option.bind_eq_some_iff.mp h
  cases h
  have hcount : ∀ rest, (Json.object ([(.ofString "diagnostics", .list items),
      Json.natField "count" (o.listed b).length, Json.natField "errors" b.errors,
      Json.natField "warnings" b.warnings] ++ rest)).numberAt "count" = (o.listed b).length :=
    fun rest => rfl
  have homitted : ∀ n : Int, (Json.object ([(.ofString "diagnostics", .list items),
      Json.natField "count" (o.listed b).length, Json.natField "errors" b.errors,
      Json.natField "warnings" b.warnings] ++ Json.intField? "omitted" n)).numberAt "omitted"
        = n := by
    intro n
    unfold Json.intField?
    split
    · rename_i hzero
      rw [hzero]
      rfl
    · rfl
  rw [hcount, homitted]
  omega

/-- **A bag has a document** if its entries are about known files. -/
theorem isSome_document? {o : DocumentOptions} {files : FileSet} {b : Bag}
    (h : ∀ d ∈ b.items, d.KnownTo files) : (b.document? o files).isSome = true := by
  have hlisted : ∀ d ∈ o.listed b, d ∈ b.items := by
    intro d hd
    unfold DocumentOptions.listed at hd
    split at hd
    · exact List.mem_of_mem_take hd
    · exact hd
  have hitems : ((o.listed b).mapM (DiagnosticDocument.diagnostic? o files)).isSome = true :=
    isSome_mapM fun d hd => DiagnosticDocument.isSome_diagnostic? (h d (hlisted d hd))
  obtain ⟨items, hitems⟩ := Option.isSome_iff_exists.mp hitems
  unfold document?
  dsimp only
  rw [hitems]
  rfl

/-- **A bag accounts for everything that was added to it.** Whatever the limit and the order of
additions and sortings: each different key is kept or dropped; a limit is kept; the entries have
different keys and were all added; the severities are counted by different keys; adding tells
whether the number of entries grew; the first error is an entry; without limit and sorting the
entries are the first occurrences in order; and a document lists or omits each different key, and
there is one whenever the files of the entries are known. -/
theorem accounts_for_every_key (limit : Int) (l : List Action) :
    let b := (withLimit limit).actAll l
    let keys := ((added l).map Diagnostic.key).toFinset
    b.items.length + b.dropped = keys.card ∧
    (0 < limit → (b.items.length : Int) ≤ limit) ∧
    (b.items.map Diagnostic.key).Nodup ∧
    (∀ d ∈ b.items, d ∈ added l) ∧
    (∀ s ∈ countedSeverities, b.countOf s = (keys.filter (·.severity = s)).card) ∧
    (∀ d, (b.add d).2 = true ↔ b.items.length < (b.add d).1.items.length) ∧
    (∀ d, firstError? (added l) = some d → d ∈ b.items) ∧
    (limit ≤ 0 → .sort ∉ l → b.items = firstOccurrences (added l)) ∧
    ∀ o files,
      (∀ doc, b.document? o files = some doc →
        doc.numberAt "count" + doc.numberAt "omitted" = keys.card) ∧
      ((∀ d ∈ b.items, d.KnownTo files) → (b.document? o files).isSome = true) := by
  intro b keys
  have haccounts : Accounts limit (added l) b := accounts_actAll limit l
  have hcard : b.items.length + b.dropped = keys.card := haccounts.card_keys
  refine ⟨hcard, haccounts.bounded, haccounts.nodup, haccounts.mem_of_kept,
    fun s hs => haccounts.card_severity hs, b.add_kept_iff, haccounts.first,
    fun hlimit hsort => items_actAll_of_unlimited hlimit hsort,
    fun o files => ⟨?_, isSome_document?⟩⟩
  intro doc hdoc
  have := numbers_document hdoc
  omega

/-- In a bag for two entries the first error takes the place of the second warning. -/
example :
    let entry (s : Severity) (code : Code) : Diagnostic := ⟨s, code, [], ⟨0, 0, 0⟩, []⟩
    let b := (withLimit 2).actAll [.add (entry .warning .outOfRange),
      .add (entry .warning .garbageAtEnd), .add (entry .error .undefinedSymbol),
      .add (entry .error .notAbsolute)]
    b.items = [entry .warning .outOfRange, entry .error .undefinedSymbol] ∧ b.dropped = 2 := by
  decide

end Bag

end CatalystAsm
