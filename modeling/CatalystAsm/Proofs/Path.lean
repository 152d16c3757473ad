import CatalystAsm.Path
import Mathlib.Data.List.Induction

/-!
# The normal form of paths

Cleaning a path keeps a list of elements in which nothing can be shortened: names, and before them
only steps upwards, which a path from the root does not have (`Kept`). A cleaned path is written out
from its elements and has them again (`cleanElements_ofElements`). So two cleaned paths are equal
when their elements are, and cleaning one path below another goes on from the elements of the first
(`cleanElements_append`).
-/

namespace CatalystAsm.Path

variable {rooted : Bool} {p q e : Bytes} {es fs kept : List Bytes}

/-! ## Splitting and joining -/

theorem intercalate_eq (separator : Bytes) (pieces : List Bytes) :
    Bytes.intercalate separator pieces = List.intercalate separator pieces := by
  induction pieces with
  | nil => rfl
  | cons piece rest ih =>
    cases rest with
    | nil => simp [Bytes.intercalate, List.intercalate]
    | cons next rest =>
      rw [Bytes.intercalate, ih, List.intercalate_cons_cons]
      simp

theorem elements_ne_nil (p : Bytes) : elements p ≠ [] := List.splitOn_ne_nil slash p

/-- The elements of a path, put together again. -/
theorem intercalate_elements (p : Bytes) : Bytes.intercalate [slash] (elements p) = p := by
  rw [intercalate_eq]
  exact List.intercalate_splitOn slash

/-- Elements without a slash are found again. -/
theorem elements_intercalate (hes : ∀ e ∈ es, slash ∉ e) (hsome : es ≠ []) :
    elements (Bytes.intercalate [slash] es) = es := by
  rw [intercalate_eq]
  exact List.splitOn_intercalate slash hes hsome

/-- The elements of a path below another. -/
theorem elements_append (p q : Bytes) : elements (p ++ slash :: q) = elements p ++ elements q :=
  List.splitOnP_append_cons p q (by simp)

/-- There is no slash in an element. -/
theorem slash_not_mem_of_mem_elements (h : e ∈ elements p) : slash ∉ e := by
  induction p generalizing e with
  | nil =>
    rw [elements, List.splitOn_nil, List.mem_singleton] at h
    simp [h]
  | cons b p ih =>
    have hcons : elements (b :: p)
        = if b == slash then [] :: elements p else List.modifyHead (b :: ·) (elements p) :=
      List.splitOnP_cons_eq_if_modifyHead (p := (· == slash)) b p
    by_cases hb : b = slash
    · rw [hcons, if_pos (by simp [hb])] at h
      rcases List.mem_cons.mp h with rfl | h
      · simp
      · exact ih h
    · -- the byte goes in front of the first element of the rest
      obtain ⟨first, rest, hrest⟩ := List.exists_cons_of_ne_nil (elements_ne_nil p)
      rw [hcons, if_neg (by simp [hb]), hrest, List.modifyHead_cons] at h
      rw [hrest] at ih
      rcases List.mem_cons.mp h with rfl | h
      · rw [List.mem_cons, not_or]
        exact ⟨Ne.symm hb, ih List.mem_cons_self⟩
      · exact ih (List.mem_cons_of_mem first h)

/-! ## Elements that are kept -/

/-- A name of a file or a directory. -/
structure IsFileName (e : Bytes) : Prop where
  ne_nil : e ≠ []
  ne_here : e ≠ here
  ne_up : e ≠ up
  slash_not_mem : slash ∉ e

/-- A list of kept elements, the last one first: names, and below them steps upwards unless the path
starts at the root. -/
inductive Kept (rooted : Bool) : List Bytes → Prop
  | nil : Kept rooted []
  | upwards {below : List Bytes} :
    rooted = false → (∀ e ∈ below, e = up) → Kept rooted (up :: below)
  | name {e : Bytes} {below : List Bytes} :
    IsFileName e → Kept rooted below → Kept rooted (e :: below)

/-- Steps upwards alone are kept, unless the path starts at the root. -/
theorem Kept.of_forall_eq_up (hrooted : rooted = false) (h : ∀ e ∈ kept, e = up) :
    Kept rooted kept := by
  cases kept with
  | nil => exact .nil
  | cons e below =>
    obtain rfl := h e List.mem_cons_self
    exact .upwards hrooted fun x hx => h x (List.mem_cons_of_mem up hx)

/-- Names alone are kept. -/
theorem Kept.of_isFileName (h : ∀ e ∈ kept, IsFileName e) : Kept rooted kept := by
  induction kept with
  | nil => exact .nil
  | cons e below ih =>
    exact .name (h e List.mem_cons_self) (ih fun x hx => h x (List.mem_cons_of_mem e hx))

/-- Without the last element the others are still kept. -/
theorem Kept.tail (h : Kept rooted (e :: kept)) : Kept rooted kept := by
  cases h with
  | upwards hrooted hbelow => exact .of_forall_eq_up hrooted hbelow
  | name _ hbelow => exact hbelow

/-- Every kept element is a name or leads upwards. -/
theorem Kept.isFileName_or_eq_up (h : Kept rooted kept) (he : e ∈ kept) :
    IsFileName e ∨ e = up := by
  induction h with
  | nil => cases he
  | upwards _ hbelow =>
    rcases List.mem_cons.mp he with rfl | he
    · exact .inr rfl
    · exact .inr (hbelow e he)
  | name hname _ ih =>
    rcases List.mem_cons.mp he with rfl | he
    · exact .inl hname
    · exact ih he

/-- From the root only names are kept. -/
theorem Kept.isFileName (h : Kept true kept) (he : e ∈ kept) : IsFileName e := by
  induction h with
  | nil => cases he
  | upwards hrooted _ => cases hrooted
  | name hname _ ih =>
    rcases List.mem_cons.mp he with rfl | he
    · exact hname
    · exact ih he

/-- No kept element is empty. -/
theorem Kept.ne_nil (h : Kept rooted kept) (he : e ∈ kept) : e ≠ [] := by
  rcases h.isFileName_or_eq_up he with hname | rfl
  · exact hname.ne_nil
  · simp [up]

/-- There is no slash in a kept element. -/
theorem Kept.slash_not_mem (h : Kept rooted kept) (he : e ∈ kept) : slash ∉ e := by
  rcases h.isFileName_or_eq_up he with hname | rfl
  · exact hname.slash_not_mem
  · decide

/-! ## Keeping one element more -/

theorem keepElement_nil (rooted : Bool) (kept : List Bytes) : keepElement rooted kept [] = kept :=
  rfl

theorem keepElement_here (rooted : Bool) (kept : List Bytes) :
    keepElement rooted kept here = kept := rfl

/-- A name is kept. -/
theorem keepElement_name (he : IsFileName e) : keepElement rooted kept e = e :: kept := by
  have hblank : (e.isEmpty || e == here) = false := by simp [he.ne_nil, he.ne_here]
  have hup : (e == up) = false := by simp [he.ne_up]
  simp only [keepElement, hblank, hup, Bool.false_eq_true, if_false]

theorem keepElement_up_up : keepElement rooted (up :: kept) up = up :: up :: kept := rfl

/-- A step upwards takes back a name. -/
theorem keepElement_name_up (he : IsFileName e) : keepElement rooted (e :: kept) up = kept := by
  have hup : (e == up) = false := by simp [he.ne_up]
  change (if e == up then up :: e :: kept else kept) = kept
  rw [hup]
  rfl

/-- An element without a slash is blank, leads upwards or is a name. -/
theorem element_cases (he : slash ∉ e) : (e = [] ∨ e = here) ∨ e = up ∨ IsFileName e := by
  by_cases hnil : e = []
  · exact .inl (.inl hnil)
  · by_cases hhere : e = here
    · exact .inl (.inr hhere)
    · by_cases hup : e = up
      · exact .inr (.inl hup)
      · exact .inr (.inr ⟨hnil, hhere, hup, he⟩)

/-- **One more element** leads from kept elements to kept elements. -/
theorem Kept.keepElement (h : Kept rooted kept) (he : slash ∉ e) :
    Kept rooted (keepElement rooted kept e) := by
  rcases element_cases he with (rfl | rfl) | rfl | hname
  · exact h
  · exact h
  · cases h with
    | nil =>
      cases rooted with
      | true => exact .nil
      | false => exact .upwards rfl (by simp)
    | upwards hrooted hbelow => exact .upwards hrooted (by simpa using hbelow)
    | name hname hbelow => rwa [keepElement_name_up hname]
  · rw [keepElement_name hname]
    exact .name hname h

/-! ## Going on from kept elements -/

/-- The kept elements after those of a path and then some elements more. -/
def descend (rooted : Bool) (start es : List Bytes) : List Bytes :=
  (es.foldl (keepElement rooted) start.reverse).reverse

/-- Cleaning a path is going on from nothing. -/
theorem cleanElements_eq (p : Bytes) : cleanElements p = descend (isRooted p) [] (elements p) := rfl

@[simp] theorem descend_nil (rooted : Bool) (start : List Bytes) :
    descend rooted start [] = start :=
  List.reverse_reverse start

theorem descend_append (rooted : Bool) (start es fs : List Bytes) :
    descend rooted start (es ++ fs) = descend rooted (descend rooted start es) fs := by
  simp [descend]

theorem descend_cons (rooted : Bool) (start : List Bytes) (e : Bytes) (es : List Bytes) :
    descend rooted start (e :: es)
      = descend rooted (keepElement rooted start.reverse e).reverse es := by
  simp [descend]

/-- Blank elements change nothing. -/
theorem descend_blank (rooted : Bool) (start es : List Bytes) (he : e = [] ∨ e = here) :
    descend rooted start (e :: es) = descend rooted start es := by
  rcases he with rfl | rfl
  · rw [descend_cons, keepElement_nil, List.reverse_reverse]
  · rw [descend_cons, keepElement_here, List.reverse_reverse]

/-- Names are added one after another. -/
theorem descend_names (rooted : Bool) (start : List Bytes) (hes : ∀ e ∈ es, IsFileName e) :
    descend rooted start es = start ++ es := by
  induction es generalizing start with
  | nil => simp
  | cons e es ih =>
    rw [descend_cons, keepElement_name (hes e List.mem_cons_self),
      ih _ fun x hx => hes x (List.mem_cons_of_mem e hx)]
    simp

/-- What is kept has the normal form. -/
theorem kept_descend {start : List Bytes} (hstart : Kept rooted start.reverse)
    (hes : ∀ e ∈ es, slash ∉ e) : Kept rooted (descend rooted start es).reverse := by
  induction es generalizing start with
  | nil => simpa using hstart
  | cons e es ih =>
    rw [descend_cons]
    refine ih ?_ fun x hx => hes x (List.mem_cons_of_mem e hx)
    rw [List.reverse_reverse]
    exact hstart.keepElement (hes e List.mem_cons_self)

/-- What remains of a path is kept. -/
theorem kept_cleanElements (p : Bytes) : Kept (isRooted p) (cleanElements p).reverse := by
  rw [cleanElements_eq]
  exact kept_descend .nil fun _ he => slash_not_mem_of_mem_elements he

/-- Kept elements are kept once more. -/
theorem descend_of_kept (h : Kept rooted es.reverse) : descend rooted [] es = es := by
  -- from the last element backwards, as the normal form is built
  induction es using List.reverseRecOn with
  | nil => simp
  | append_singleton es e ih =>
    rw [List.reverse_append, List.reverse_singleton, List.singleton_append] at h
    rw [descend_append, ih h.tail, descend_cons, descend_nil]
    cases h with
    | upwards hrooted hbelow =>
      subst hrooted
      cases hes : es.reverse with
      | nil => simp [keepElement, up, here, List.reverse_eq_nil_iff.mp hes]
      | cons last above =>
        obtain rfl := hbelow last (hes ▸ List.mem_cons_self)
        rw [keepElement_up_up, ← hes]
        simp
    | name hname _ => simp [keepElement_name hname]

/-- Elements can be cleaned before they are added: a step upwards takes back a name here as
there. -/
theorem descend_descend (rooted : Bool) (start : List Bytes) (hes : ∀ e ∈ es, slash ∉ e) :
    descend rooted start (descend false [] es) = descend rooted start es := by
  induction es using List.reverseRecOn with
  | nil => simp
  | append_singleton es e ih =>
    have ih := ih fun x hx => hes x (List.mem_append_left [e] hx)
    have he : slash ∉ e := hes e (by simp)
    have hkept : Kept false (descend false [] es).reverse :=
      kept_descend .nil fun x hx => hes x (List.mem_append_left [e] hx)
    rw [descend_append, descend_append, ← ih, descend_cons, descend_nil]
    generalize descend false [] es = fs at hkept ⊢
    rcases element_cases he with hblank | rfl | hname
    · rw [descend_blank _ _ _ hblank, descend_nil]
      rcases hblank with rfl | rfl
      · rw [keepElement_nil, List.reverse_reverse]
      · rw [keepElement_here, List.reverse_reverse]
    · cases hfs : fs.reverse with
      | nil =>
        obtain rfl := List.reverse_eq_nil_iff.mp hfs
        simp [keepElement, up, here]
      | cons last above =>
        have hlast : fs = above.reverse ++ [last] := by
          rw [← List.reverse_reverse fs, hfs, List.reverse_cons]
        rw [hfs] at hkept
        cases hkept with
        | upwards _ hbelow =>
          rw [keepElement_up_up, ← hfs, List.reverse_cons, List.reverse_reverse, descend_append]
        | name hname _ =>
          rw [keepElement_name_up hname, hlast, descend_append, descend_cons rooted _ last,
            keepElement_name hname, descend_nil, descend_cons rooted _ up, List.reverse_reverse,
            keepElement_name_up hname, descend_nil, List.reverse_reverse]
    · rw [keepElement_name hname, List.reverse_cons, List.reverse_reverse, descend_append]

/-! ## Cleaned paths -/

/-- The path of kept elements. -/
def ofElements (rooted : Bool) (es : List Bytes) : Bytes :=
  if rooted then slash :: Bytes.intercalate [slash] es
  else if es = [] then here
  else Bytes.intercalate [slash] es

theorem ofElements_of_ne_nil (hes : es ≠ []) :
    ofElements false es = Bytes.intercalate [slash] es := by
  rw [ofElements, if_neg Bool.false_ne_true, if_neg hes]

/-- A path of elements that are not empty is empty only without elements. -/
theorem intercalate_eq_nil_iff (hes : ∀ e ∈ es, e ≠ []) :
    Bytes.intercalate [slash] es = [] ↔ es = [] := by
  constructor
  · intro h
    cases es with
    | nil => rfl
    | cons e es =>
      cases es with
      | nil => exact absurd h (hes e List.mem_cons_self)
      | cons next es => simp [Bytes.intercalate] at h
  · rintro rfl
    rfl

/-- A cleaned path is the path of what remains. -/
theorem clean_eq (p : Bytes) : clean p = ofElements (isRooted p) (cleanElements p) := by
  have hes : ∀ e ∈ cleanElements p, e ≠ [] := fun e he =>
    (kept_cleanElements p).ne_nil (List.mem_reverse.mpr he)
  simp only [clean, ofElements, List.isEmpty_iff, intercalate_eq_nil_iff hes]

theorem elements_slash (p : Bytes) : elements (slash :: p) = [] :: elements p :=
  elements_append [] p

/-- A path is rooted if its beginning is. -/
theorem isRooted_append (hp : p ≠ []) (q : Bytes) : isRooted (p ++ q) = isRooted p := by
  obtain ⟨b, p, rfl⟩ := List.exists_cons_of_ne_nil hp
  rfl

/-- The path of kept elements is rooted if it is made so. -/
theorem isRooted_ofElements (h : Kept rooted es.reverse) :
    isRooted (ofElements rooted es) = rooted := by
  cases rooted with
  | true => rfl
  | false =>
    cases es with
    | nil => rfl
    | cons e es =>
      have he : e ∈ (e :: es).reverse := by simp
      obtain ⟨b, tail, rfl⟩ := List.exists_cons_of_ne_nil (h.ne_nil he)
      have hb : b ≠ slash := fun hb => h.slash_not_mem he (hb ▸ List.mem_cons_self)
      -- the path begins with the first byte of the first element
      have hhead : (ofElements false ((b :: tail) :: es)).head? = some b := by
        cases es with
        | nil => rfl
        | cons next es => rfl
      simp [isRooted, hhead, hb]

/-- The elements of a path that is written out from some: these, behind a blank one if it starts at
the root. -/
theorem elements_ofElements (hes : es ≠ []) (hslash : ∀ e ∈ es, slash ∉ e) :
    elements (ofElements rooted es) = if rooted then [] :: es else es := by
  cases rooted with
  | true =>
    show elements (slash :: Bytes.intercalate [slash] es) = [] :: es
    rw [elements_slash, elements_intercalate hslash hes]
  | false =>
    rw [ofElements_of_ne_nil hes, elements_intercalate hslash hes, if_neg Bool.false_ne_true]

/-- Going on by a path that is written out from kept elements is going on by these. -/
theorem descend_elements_ofElements (h : Kept rooted es.reverse) (r : Bool) (start : List Bytes) :
    descend r start (elements (ofElements rooted es)) = descend r start es := by
  by_cases hes : es = []
  · subst hes
    cases rooted with
    | true =>
      show descend r start (elements [slash]) = _
      rw [elements_slash, elements, List.splitOn_nil, descend_blank _ _ _ (.inl rfl),
        descend_blank _ _ _ (.inl rfl)]
    | false =>
      show descend r start [here] = _
      rw [descend_blank _ _ _ (.inr rfl)]
  · rw [elements_ofElements hes fun e he => h.slash_not_mem (List.mem_reverse.mpr he)]
    split
    · exact descend_blank r start es (.inl rfl)
    · rfl

/-- **A path has the elements that it is written out from.** -/
theorem cleanElements_ofElements (h : Kept rooted es.reverse) :
    cleanElements (ofElements rooted es) = es := by
  rw [cleanElements_eq, isRooted_ofElements h, descend_elements_ofElements h, descend_of_kept h]

/-- Different kept elements make different paths. -/
theorem ofElements_inj {r : Bool} (hes : Kept rooted es.reverse) (hfs : Kept r fs.reverse) :
    ofElements rooted es = ofElements r fs ↔ rooted = r ∧ es = fs := by
  constructor
  · intro h
    constructor
    · rw [← isRooted_ofElements hes, h, isRooted_ofElements hfs]
    · rw [← cleanElements_ofElements hes, h, cleanElements_ofElements hfs]
  · rintro ⟨rfl, rfl⟩
    rfl

@[simp] theorem isRooted_clean (p : Bytes) : isRooted (clean p) = isRooted p := by
  rw [clean_eq, isRooted_ofElements (kept_cleanElements p)]

@[simp] theorem cleanElements_clean (p : Bytes) : cleanElements (clean p) = cleanElements p := by
  rw [clean_eq, cleanElements_ofElements (kept_cleanElements p)]

/-- Cleaning twice is cleaning once. -/
@[simp] theorem clean_clean (p : Bytes) : clean (clean p) = clean p := by
  rw [clean_eq (clean p), isRooted_clean, cleanElements_clean, ← clean_eq]

/-- Two paths are the same when cleaned if they have the same kept elements from the same start. -/
theorem clean_inj : clean p = clean q ↔
    isRooted p = isRooted q ∧ cleanElements p = cleanElements q := by
  rw [clean_eq, clean_eq, ofElements_inj (kept_cleanElements p) (kept_cleanElements q)]

theorem clean_ofElements (h : Kept rooted es.reverse) :
    clean (ofElements rooted es) = ofElements rooted es := by
  rw [clean_eq, isRooted_ofElements h, cleanElements_ofElements h]

/-- A cleaned path is not empty. -/
theorem clean_ne_nil (p : Bytes) : clean p ≠ [] := by
  have hes : ∀ e ∈ cleanElements p, e ≠ [] := fun e he =>
    (kept_cleanElements p).ne_nil (List.mem_reverse.mpr he)
  rw [clean_eq, ofElements]
  split
  · simp
  · split
    · simp [here]
    · rename_i hsome
      exact mt (intercalate_eq_nil_iff hes).mp hsome

/-! ## One path below another -/

/-- Cleaning a path below another goes on from the kept elements of the first. -/
theorem cleanElements_append (hp : p ≠ []) (q : Bytes) :
    cleanElements (p ++ slash :: q) = descend (isRooted p) (cleanElements p) (elements q) := by
  rw [cleanElements_eq, isRooted_append hp, elements_append, descend_append, ← cleanElements_eq]

/-- Joining two paths is cleaning them with a slash between. -/
theorem join_eq (hp : p ≠ []) (hq : q ≠ []) : join [p, q] = clean (p ++ slash :: q) := by
  have hkept : [p, q].filter (!·.isEmpty) = [p, q] := by simp [hp, hq]
  rw [join, hkept]
  simp [Bytes.intercalate]

/-- Joining a path with an empty one is cleaning it. -/
theorem join_nil (hp : p ≠ []) : join [p, []] = clean p := by
  have hkept : [p, []].filter (!·.isEmpty) = [p] := by simp [hp]
  rw [join, hkept]
  rfl

/-! ## Paths from the root -/

variable {cwd : Bytes}

/-- The kept elements of a path as it is seen from the root. -/
def absoluteElements (cwd p : Bytes) : List Bytes :=
  if isRooted p then cleanElements p else descend true (cleanElements cwd) (elements p)

/-- Seen from the root, a path has the elements that it leads to from the working directory. -/
theorem absolute_eq (hcwd : isRooted cwd = true) (p : Bytes) :
    absolute cwd p = ofElements true (absoluteElements cwd p) := by
  have hsome : cwd ≠ [] := by
    rintro rfl
    cases hcwd
  unfold absolute absoluteElements
  cases hp : isRooted p with
  | true => rw [if_pos rfl, if_pos rfl, clean_eq, hp]
  | false =>
    rw [if_neg Bool.false_ne_true, if_neg Bool.false_ne_true]
    by_cases hnil : p = []
    · subst hnil
      rw [join_nil hsome, clean_eq, hcwd, elements, List.splitOn_nil,
        descend_blank _ _ _ (.inl rfl), descend_nil]
    · rw [join_eq hsome hnil, clean_eq, cleanElements_append hsome, isRooted_append hsome, hcwd]

/-- Seen from the root, no step upwards is left. -/
theorem kept_absoluteElements (hcwd : isRooted cwd = true) (p : Bytes) :
    Kept true (absoluteElements cwd p).reverse := by
  unfold absoluteElements
  split
  · rename_i hp
    exact hp ▸ kept_cleanElements p
  · exact kept_descend (hcwd ▸ kept_cleanElements cwd) fun _ he => slash_not_mem_of_mem_elements he

@[simp] theorem absoluteElements_clean (cwd p : Bytes) :
    absoluteElements cwd (clean p) = absoluteElements cwd p := by
  unfold absoluteElements
  rw [isRooted_clean, cleanElements_clean]
  cases hp : isRooted p with
  | true => rfl
  | false =>
    rw [if_neg Bool.false_ne_true, if_neg Bool.false_ne_true, clean_eq,
      descend_elements_ofElements (kept_cleanElements p), cleanElements_eq p, hp,
      descend_descend _ _ fun _ he => slash_not_mem_of_mem_elements he]

/-- A path leads to the same place when it is cleaned before. -/
theorem absolute_clean (hcwd : isRooted cwd = true) (p : Bytes) :
    absolute cwd (clean p) = absolute cwd p := by
  rw [absolute_eq hcwd, absolute_eq hcwd, absoluteElements_clean]

end CatalystAsm.Path
