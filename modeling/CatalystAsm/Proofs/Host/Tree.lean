import CatalystAsm.Host.Tree
import CatalystAsm.Proofs.Path

/-!
# Where paths lead

A path is walked name by name, and every name but the last has to lead to a directory. Cleaning a
path takes only detours out of it, so whatever a path leads to, the cleaned path leads to as well
(`find_clean`). From the root, the elements of the path are then the place that it leads to
(`walk_absoluteElements`).
-/

namespace CatalystAsm

/-! ## Bytes of paths -/

namespace Path

variable {b : UInt8} {p e : Bytes} {es : List Bytes} {rooted : Bool}

/-- Taking an element onto a list adds no other one. -/
theorem mem_keepElement {kept : List Bytes} {x : Bytes} (h : x ∈ keepElement rooted kept e) :
    x ∈ kept ∨ x = e := by
  unfold keepElement at h
  split at h
  · exact .inl h
  · split at h
    · rename_i hup
      obtain rfl : e = up := by simpa using hup
      split at h
      · cases rooted with
        | true => cases h
        | false => exact .inr (List.mem_singleton.mp h)
      · split at h
        · rcases List.mem_cons.mp h with rfl | h
          · exact .inr rfl
          · exact .inl h
        · exact .inl (List.mem_cons_of_mem _ h)
    · rcases List.mem_cons.mp h with rfl | h
      · exact .inr rfl
      · exact .inl h

/-- Only elements that were there are kept. -/
theorem mem_descend {start : List Bytes} (h : e ∈ descend rooted start es) :
    e ∈ start ∨ e ∈ es := by
  induction es generalizing start with
  | nil => simpa using h
  | cons x es ih =>
    rw [descend_cons] at h
    rcases ih h with h | h
    · rcases mem_keepElement (List.mem_reverse.mp h) with h | rfl
      · exact .inl (List.mem_reverse.mp h)
      · exact .inr List.mem_cons_self
    · exact .inr (List.mem_cons_of_mem x h)

/-- A byte other than the slash is in a path if it is in one of its elements. -/
theorem mem_intercalate_iff (hb : b ≠ slash) :
    b ∈ Bytes.intercalate [slash] es ↔ ∃ e ∈ es, b ∈ e := by
  induction es with
  | nil => simp [Bytes.intercalate]
  | cons e es ih =>
    cases es with
    | nil => simp [Bytes.intercalate]
    | cons next es => simp [Bytes.intercalate, ih, hb]

theorem mem_of_mem_elements (hb : b ≠ slash) : (∃ e ∈ elements p, b ∈ e) ↔ b ∈ p := by
  rw [← mem_intercalate_iff hb, intercalate_elements]

/-- The bytes of a path that is written out are those of its elements. -/
theorem not_mem_ofElements (hslash : b ≠ slash) (hdot : b ≠ dot) (h : ∀ e ∈ es, b ∉ e) :
    b ∉ ofElements rooted es := by
  have hbody : b ∉ Bytes.intercalate [slash] es := by
    rw [mem_intercalate_iff hslash]
    rintro ⟨e, he, hb⟩
    exact h e he hb
  unfold ofElements
  split
  · simp [hslash, hbody]
  · split
    · simp [here, hdot]
    · exact hbody

/-- Cleaning a path brings no new byte into its elements. -/
theorem not_mem_of_mem_cleanElements (hslash : b ≠ slash) (hp : b ∉ p) (he : e ∈ cleanElements p) :
    b ∉ e := by
  intro hb
  rw [cleanElements_eq] at he
  rcases mem_descend he with he | he
  · cases he
  · exact hp ((mem_of_mem_elements hslash).mp ⟨e, he, hb⟩)

/-- Seeing a path from the root brings no byte but those of the working directory. -/
theorem not_mem_of_mem_absoluteElements {cwd : Bytes} (hslash : b ≠ slash) (hcwd : b ∉ cwd)
    (hp : b ∉ p) (he : e ∈ absoluteElements cwd p) : b ∉ e := by
  unfold absoluteElements at he
  split at he
  · exact not_mem_of_mem_cleanElements hslash hp he
  · rcases mem_descend he with he | he
    · exact not_mem_of_mem_cleanElements hslash hcwd he
    · exact fun hb => hp ((mem_of_mem_elements hslash).mp ⟨e, he, hb⟩)

end Path

namespace Host.Tree

open CatalystAsm.Path

variable {t : Tree} {place q r : Place} {n p : Bytes} {names es fs : List Bytes} {rooted : Bool}

/-! ## Steps of a walk -/

theorem walk_nil (t : Tree) (place : Place) : t.walk place [] = .ok place := rfl

/-- A step is made from a directory, and leads to where the name says. -/
theorem walk_cons_eq_ok : t.walk place (n :: names) = .ok r ↔ t.get? place = some none ∧
    (if n.isEmpty || n == here then t.walk place names
      else if n == up then t.walk place.dropLast names
      else if maxName < n.length then .error .tooLong
      else t.walk (place ++ [n]) names) = .ok r := by
  rw [walk]
  cases hplace : t.get? place with
  | none => simp
  | some content =>
    cases content with
    | none => simp
    | some _ => simp

/-- An empty element or one dot stays in the directory. -/
theorem walk_blank (hn : n = [] ∨ n = here) : t.walk place (n :: names) = .ok r ↔
    t.get? place = some none ∧ t.walk place names = .ok r := by
  rw [walk_cons_eq_ok, if_pos]
  rcases hn with rfl | rfl <;> rfl

theorem walk_up : t.walk place (up :: names) = .ok r ↔
    t.get? place = some none ∧ t.walk place.dropLast names = .ok r := walk_cons_eq_ok

/-- A name leads into the directory, if it is not too long. -/
theorem walk_name (hn : IsFileName n) : t.walk place (n :: names) = .ok r ↔
    t.get? place = some none ∧ n.length ≤ maxName ∧ t.walk (place ++ [n]) names = .ok r := by
  have hblank : ¬(n.isEmpty || n == here) = true := by simp [hn.ne_nil, hn.ne_here]
  have hup : ¬(n == up) = true := by simp [hn.ne_up]
  rw [walk_cons_eq_ok, if_neg hblank, if_neg hup]
  by_cases hlong : maxName < n.length
  · have hnot : ¬n.length ≤ maxName := by omega
    simp [hlong, hnot]
  · have hle : n.length ≤ maxName := by omega
    simp [hlong, hle]

/-- A walk is a walk to a place on the way and a walk from there. -/
theorem walk_append : t.walk place (es ++ fs) = .ok r ↔
    ∃ q, t.walk place es = .ok q ∧ t.walk q fs = .ok r := by
  induction es generalizing place with
  | nil => simp [walk]
  | cons n es ih =>
    simp only [List.cons_append, walk_cons_eq_ok]
    by_cases hblank : (n.isEmpty || n == here) = true
    · simp [hblank, ih, and_assoc]
    · by_cases hup : (n == up) = true
      · simp [hblank, hup, ih, and_assoc]
      · by_cases hlong : maxName < n.length
        · simp [hblank, hup, hlong]
        · simp [hblank, hup, hlong, ih, and_assoc]

theorem walk_snoc_up (h : t.walk place es = .ok q) (hq : t.get? q = some none) :
    t.walk place (es ++ [up]) = .ok q.dropLast :=
  walk_append.mpr ⟨q, h, walk_up.mpr ⟨hq, rfl⟩⟩

/-- A walk goes on to a name from the directory that it came to. -/
theorem walk_snoc_name (hn : IsFileName n) : t.walk place (es ++ [n]) = .ok r ↔
    ∃ q, t.walk place es = .ok q ∧ t.get? q = some none ∧ n.length ≤ maxName ∧ q ++ [n] = r := by
  simp only [walk_append, walk_name hn, walk_nil, Except.ok.injEq]

/-- A walk along names goes to the place that they make. -/
theorem eq_append_of_walk (hnames : ∀ e ∈ es, IsFileName e) (h : t.walk place es = .ok r) :
    r = place ++ es := by
  induction es generalizing place with
  | nil =>
    cases h
    simp
  | cons n es ih =>
    obtain ⟨-, -, h⟩ := (walk_name (hnames n List.mem_cons_self)).mp h
    rw [ih (fun e he => hnames e (List.mem_cons_of_mem n he)) h]
    simp

/-! ## Walks without detours -/

/-- **A walk can leave out detours**: what elements lead to from where kept elements have led, is
where the kept elements of all of them lead. -/
theorem walk_descend (hrooted : rooted = true → place = []) {kept : List Bytes}
    (hkept : Kept rooted kept.reverse) (hes : ∀ e ∈ es, slash ∉ e)
    (hq : t.walk place kept = .ok q) (h : t.walk q es = .ok r) :
    t.walk place (descend rooted kept es) = .ok r := by
  induction es generalizing kept q with
  | nil =>
    cases h
    rwa [descend_nil]
  | cons e es ih =>
    have he : slash ∉ e := hes e List.mem_cons_self
    have hrest : ∀ x ∈ es, slash ∉ x := fun x hx => hes x (List.mem_cons_of_mem e hx)
    rcases element_cases he with hblank | rfl | hname
    · rw [descend_blank _ _ _ hblank]
      exact ih hkept hrest hq ((walk_blank hblank).mp h).2
    · obtain ⟨hplace, h⟩ := walk_up.mp h
      have hkept' := hkept.keepElement he
      rw [descend_cons]
      -- a step upwards is kept, is lost at the root, or takes back the last name
      cases hlast : kept.reverse with
      | nil =>
        obtain rfl := List.reverse_eq_nil_iff.mp hlast
        cases hq
        cases rooted with
        | true =>
          obtain rfl := hrooted rfl
          exact ih .nil hrest rfl h
        | false =>
          have hstep : t.walk place [up] = .ok place.dropLast := walk_up.mpr ⟨hplace, rfl⟩
          exact ih (.upwards rfl (by simp)) hrest hstep h
      | cons last above =>
        have hsplit : kept = above.reverse ++ [last] := by
          rw [← List.reverse_reverse kept, hlast, List.reverse_cons]
        rw [hlast] at hkept hkept'
        cases hkept with
        | upwards _ hbelow =>
          rw [keepElement_up_up] at hkept' ⊢
          refine ih (by rwa [List.reverse_reverse]) hrest ?_ h
          rw [List.reverse_cons, ← hlast, List.reverse_reverse]
          exact walk_snoc_up hq hplace
        | name hname habove =>
          rw [keepElement_name_up hname]
          rw [hsplit] at hq
          obtain ⟨before, hbefore, -, -, rfl⟩ := (walk_snoc_name hname).mp hq
          rw [List.dropLast_concat] at h
          exact ih (by rwa [List.reverse_reverse]) hrest hbefore h
    · obtain ⟨hplace, hlength, h⟩ := (walk_name hname).mp h
      rw [descend_cons, keepElement_name hname, List.reverse_cons, List.reverse_reverse]
      refine ih ?_ hrest ((walk_snoc_name hname).mpr ⟨q, hq, hplace, hlength, rfl⟩) h
      rw [List.reverse_append]
      exact .name hname hkept

/-- **Cleaning a path keeps where it leads**, as long as the path leads anywhere. -/
theorem walk_cleanElements (hrooted : isRooted p = true → place = [])
    (h : t.walk place (elements p) = .ok r) : t.walk place (cleanElements p) = .ok r := by
  rw [cleanElements_eq]
  exact walk_descend hrooted .nil (fun _ he => slash_not_mem_of_mem_elements he) rfl h

/-- A path that is written out leads where its elements do. -/
theorem walk_elements_ofElements (hkept : Kept rooted es.reverse)
    (hplace : t.get? place = some none) (h : t.walk place es = .ok r) :
    t.walk place (elements (ofElements rooted es)) = .ok r := by
  have hslash : ∀ e ∈ es, slash ∉ e := fun e he => hkept.slash_not_mem (List.mem_reverse.mpr he)
  by_cases hes : es = []
  · subst hes
    cases rooted with
    | true => exact (walk_blank (.inl rfl)).mpr ⟨hplace, (walk_blank (.inl rfl)).mpr ⟨hplace, h⟩⟩
    | false => exact (walk_blank (.inr rfl)).mpr ⟨hplace, h⟩
  · rw [elements_ofElements hes hslash]
    split
    · exact (walk_blank (.inl rfl)).mpr ⟨hplace, h⟩
    · exact h

/-! ## Finding files -/

/-- A path leads somewhere if it has a byte and no zero byte, and the walk along it does. -/
theorem find_eq_ok : t.find p = .ok r ↔ (0 : UInt8) ∉ p ∧ p ≠ [] ∧
    t.walk (if isRooted p then [] else t.cwd) (elements p) = .ok r := by
  unfold find
  by_cases hzero : (0 : UInt8) ∈ p
  · simp [hzero]
  · by_cases hnil : p = []
    · simp [hnil]
    · simp [hzero, hnil]

/-- A walk along some elements starts at a directory. -/
theorem get?_of_walk (hes : es ≠ []) (h : t.walk place es = .ok r) : t.get? place = some none := by
  obtain ⟨n, es, rfl⟩ := List.exists_cons_of_ne_nil hes
  exact (walk_cons_eq_ok.mp h).1

/-- **A cleaned path leads where the path leads.** -/
theorem find_clean (h : t.find p = .ok r) : t.find (clean p) = .ok r := by
  obtain ⟨hzero, -, hwalk⟩ := find_eq_ok.mp h
  refine find_eq_ok.mpr ⟨?_, clean_ne_nil p, ?_⟩
  · rw [clean_eq]
    exact not_mem_ofElements (by decide) (by decide) fun e he =>
      not_mem_of_mem_cleanElements (by decide) hzero he
  · rw [isRooted_clean, clean_eq]
    refine walk_elements_ofElements (kept_cleanElements p)
      (get?_of_walk (elements_ne_nil p) hwalk) (walk_cleanElements ?_ hwalk)
    intro hrooted
    rw [if_pos hrooted]

/-- The path of the working directory. -/
def workingDirectory (t : Tree) : Bytes := (t.answer .workingDirectory).1

/-- The working directory is there, at the place that its path leads to. -/
def AtHome (t : Tree) : Prop := t.find t.workingDirectory = .ok t.cwd

theorem isRooted_workingDirectory (t : Tree) : isRooted t.workingDirectory = true := rfl

/-- The elements of the working directory are the names of its place. -/
theorem AtHome.cleanElements_eq (h : t.AtHome) : cleanElements t.workingDirectory = t.cwd := by
  obtain ⟨-, -, hwalk⟩ := find_eq_ok.mp h
  rw [if_pos t.isRooted_workingDirectory] at hwalk
  have hnames : ∀ e ∈ cleanElements t.workingDirectory, IsFileName e := fun e he =>
    (kept_cleanElements t.workingDirectory).isFileName (List.mem_reverse.mpr he)
  simpa using (eq_append_of_walk hnames (walk_cleanElements (fun _ => rfl) hwalk)).symm

/-- The walk to the working directory leads to its place. -/
theorem AtHome.walk_cwd (h : t.AtHome) : t.walk [] t.cwd = .ok t.cwd := by
  obtain ⟨-, -, hwalk⟩ := find_eq_ok.mp h
  rw [if_pos t.isRooted_workingDirectory] at hwalk
  have hclean := walk_cleanElements (fun _ => rfl) hwalk
  rwa [h.cleanElements_eq] at hclean

/-- From the root, the elements of a path lead where the path leads. -/
theorem walk_absoluteElements (hhome : t.AtHome) (h : t.find p = .ok r) :
    t.walk [] (absoluteElements t.workingDirectory p) = .ok r := by
  obtain ⟨-, -, hwalk⟩ := find_eq_ok.mp h
  unfold absoluteElements
  split
  · rename_i hrooted
    rw [if_pos hrooted] at hwalk
    exact walk_cleanElements (fun _ => rfl) hwalk
  · rename_i hrooted
    rw [if_neg hrooted] at hwalk
    rw [hhome.cleanElements_eq]
    refine walk_descend (fun _ => rfl) ?_ (fun _ he => slash_not_mem_of_mem_elements he)
      hhome.walk_cwd hwalk
    rw [← hhome.cleanElements_eq]
    exact kept_cleanElements t.workingDirectory

/-- A path leads to the place of what is behind the working directory in it. -/
theorem find_of_absoluteElements (hhome : t.AtHome) {rest : List Bytes} (hrest : rest ≠ [])
    (helements : absoluteElements t.workingDirectory p = cleanElements t.workingDirectory ++ rest)
    (h : t.find p = .ok r) : t.find (Bytes.intercalate [slash] rest) = .ok r := by
  obtain ⟨hzero, -, -⟩ := find_eq_ok.mp h
  obtain ⟨hzeroHome, -, -⟩ := find_eq_ok.mp hhome
  have hmem : ∀ e ∈ rest, e ∈ absoluteElements t.workingDirectory p := fun e he => by
    rw [helements]
    exact List.mem_append_right _ he
  have habsolute := kept_absoluteElements t.isRooted_workingDirectory p
  have hnames : ∀ e ∈ rest, IsFileName e := fun e he =>
    habsolute.isFileName (List.mem_reverse.mpr (hmem e he))
  have hbytes : ∀ e ∈ rest, (0 : UInt8) ∉ e := fun e he =>
    not_mem_of_mem_absoluteElements (by decide) hzeroHome hzero (hmem e he)
  have hwalk := walk_absoluteElements hhome h
  rw [helements, hhome.cleanElements_eq, walk_append] at hwalk
  obtain ⟨q, hq, hwalk⟩ := hwalk
  rw [hhome.walk_cwd] at hq
  cases hq
  have hkept : Kept false rest.reverse :=
    .of_isFileName fun e he => hnames e (List.mem_reverse.mp he)
  rw [← ofElements_of_ne_nil hrest]
  refine find_eq_ok.mpr ⟨not_mem_ofElements (by decide) (by decide) hbytes, ?_, ?_⟩
  · rw [← clean_ofElements hkept]
    exact clean_ne_nil _
  · rw [isRooted_ofElements hkept, if_neg Bool.false_ne_true]
    exact walk_elements_ofElements hkept (get?_of_walk hrest hwalk) hwalk

end Host.Tree

end CatalystAsm
