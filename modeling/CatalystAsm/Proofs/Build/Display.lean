import CatalystAsm.Path
import CatalystAsm.Proofs.Host.Tree
import Mathlib.Data.List.Basic

/-!
# Paths below a directory

A file that lies below a directory is called by the rest of its path there, unless that rest begins
with two dots; every other file is called by its cleaned path (`display_of_append`,
`display_of_not_append`). Either way the name leads from the working directory to the same file.
-/

namespace CatalystAsm

namespace Path

variable {p q r : Bytes} {es fs bs rest : List Bytes} {cwd base : Bytes}

/-! ## One path seen from another -/

/-- A list is common with every list that begins with it. -/
theorem dropCommon_append (es rest : List Bytes) : dropCommon es (es ++ rest) = ([], rest) := by
  induction es with
  | nil => cases rest <;> rfl
  | cons e es ih => simp [dropCommon, ih]

/-- Nothing is left of a list that the other one begins with. -/
theorem prefix_of_dropCommon (h : (dropCommon es fs).1 = []) : es <+: fs := by
  induction es generalizing fs with
  | nil => exact List.nil_prefix
  | cons e es ih =>
    cases fs with
    | nil => cases h
    | cons f fs =>
      rw [dropCommon] at h
      split at h
      · rename_i hef
        obtain rfl : e = f := by simpa using hef
        exact List.cons_prefix_cons.mpr ⟨rfl, ih h⟩
      · cases h

/-- Seen from a directory that it lies below, a path is what follows the directory. -/
theorem relative?_of_append (hp : isRooted p = true) (hq : isRooted q = true)
    (h : cleanElements q = cleanElements p ++ rest) :
    relative? p q = some (if rest = [] then here else Bytes.intercalate [slash] rest) := by
  simp [relative?, hp, hq, h, dropCommon_append]

theorem mem_of_mem_dropCommon {e : Bytes} (h : e ∈ (dropCommon es fs).1) : e ∈ es := by
  induction es generalizing fs with
  | nil => simp [dropCommon] at h
  | cons x es ih =>
    cases fs with
    | nil => exact h
    | cons f fs =>
      rw [dropCommon] at h
      split at h
      · exact List.mem_cons_of_mem x (ih h)
      · exact h

/-- Seen from a directory that it does not lie below, a path leads upwards first. -/
theorem relative?_of_not_prefix (hp : isRooted p = true) (hq : isRooted q = true)
    (h : ¬cleanElements p <+: cleanElements q) :
    ∃ steps, relative? p q = some steps ∧ up <+: steps := by
  have hback : (dropCommon (cleanElements p) (cleanElements q)).1 ≠ [] := mt prefix_of_dropCommon h
  have hkept : Kept true (cleanElements p).reverse := hp ▸ kept_cleanElements p
  have hnames : ∀ e ∈ (dropCommon (cleanElements p) (cleanElements q)).1, IsFileName e :=
    fun e he => hkept.isFileName (List.mem_reverse.mpr (mem_of_mem_dropCommon he))
  simp only [relative?, hp, hq, bne_self_eq_false, Bool.false_eq_true, if_false]
  generalize dropCommon (cleanElements p) (cleanElements q) = left at hback hnames
  obtain ⟨back, ahead⟩ := left
  obtain ⟨e, back, rfl⟩ := List.exists_cons_of_ne_nil hback
  have he : (some e == some up) = false := by simp [(hnames e List.mem_cons_self).ne_up]
  refine ⟨Bytes.intercalate [slash] (up :: (back.map (fun _ => up) ++ ahead)), ?_, ?_⟩
  · simp [he]
  · cases back.map (fun _ => up) ++ ahead with
    | nil => exact List.prefix_rfl
    | cons next steps => simp [Bytes.intercalate]

/-! ## What lies below a directory -/

/-- The path of what lies below a directory. -/
def below (directory rest : Bytes) : Bytes :=
  if directory = [slash] then slash :: rest else directory ++ slash :: rest

/-- A cleaned path is that of what lies below a directory if its elements go on those of the
directory. -/
theorem ofElements_eq_below_iff (hes : Kept true es.reverse) (hbs : Kept true bs.reverse)
    (hr : r ≠ []) : ofElements true es = below (ofElements true bs) r ↔ es = bs ++ elements r := by
  have hslash : ∀ e ∈ es, slash ∉ e := fun e he => hes.slash_not_mem (List.mem_reverse.mpr he)
  have hbase : ∀ e ∈ bs, slash ∉ e := fun e he => hbs.slash_not_mem (List.mem_reverse.mpr he)
  have hsome : ∀ e ∈ bs, e ≠ [] := fun e he => hbs.ne_nil (List.mem_reverse.mpr he)
  -- the text behind the slash at the root, whose elements are those of the base and of the rest
  obtain ⟨text, htext, hne, helements⟩ : ∃ text, below (ofElements true bs) r = slash :: text ∧
      text ≠ [] ∧ elements text = bs ++ elements r := by
    by_cases hnil : bs = []
    · subst hnil
      exact ⟨r, rfl, hr, rfl⟩
    · have hroot : ofElements true bs ≠ [slash] := fun h =>
        hnil ((intercalate_eq_nil_iff hsome).mp (List.cons.inj h).2)
      refine ⟨Bytes.intercalate [slash] bs ++ slash :: r, ?_, by simp, ?_⟩
      · rw [below, if_neg hroot]
        rfl
      · rw [elements_append, elements_intercalate hbase hnil]
  rw [htext, ← helements]
  constructor
  · intro h
    obtain rfl : Bytes.intercalate [slash] es = text := (List.cons.inj h).2
    refine (elements_intercalate hslash ?_).symm
    rintro rfl
    exact hne rfl
  · rintro rfl
    show slash :: Bytes.intercalate [slash] (elements text) = slash :: text
    rw [intercalate_elements]

/-- Seen from the root, every path is rooted. -/
theorem isRooted_absolute (hcwd : isRooted cwd = true) (p : Bytes) :
    isRooted (absolute cwd p) = true := by
  rw [absolute_eq hcwd]
  rfl

theorem cleanElements_absolute (hcwd : isRooted cwd = true) (p : Bytes) :
    cleanElements (absolute cwd p) = absoluteElements cwd p := by
  rw [absolute_eq hcwd, cleanElements_ofElements (kept_absoluteElements hcwd p)]

/-- A path lies below a directory if its elements go on those of the directory. -/
theorem absolute_eq_below_iff (hcwd : isRooted cwd = true) (hr : r ≠ []) :
    absolute cwd p = below (absolute cwd base) r ↔
      absoluteElements cwd p = absoluteElements cwd base ++ elements r := by
  rw [absolute_eq hcwd, absolute_eq hcwd, ofElements_eq_below_iff (kept_absoluteElements hcwd p)
    (kept_absoluteElements hcwd base) hr]

end Path

namespace BuildPath

open CatalystAsm.Path

variable {cwd base file : Bytes} {rest : List Bytes}

/-! ## How one file is called -/

/-- A path is shown by the steps to it, unless they are none or lead up. -/
theorem display_of_relative? {b steps : Bytes}
    (h : relative? b (absolute cwd (clean file)) = some steps) :
    display cwd (some b) file = if steps = here ∨ up <+: steps then clean file else steps := by
  simp only [display, Option.bind_some, h, Bool.or_eq_true, beq_iff_eq, List.isPrefixOf_iff_prefix]

/-- The rest of a path below the base consists of names. -/
theorem isFileName_of_append (hcwd : isRooted cwd = true)
    (h : absoluteElements cwd file = absoluteElements cwd base ++ rest) :
    ∀ e ∈ rest, IsFileName e := by
  intro e he
  refine (kept_absoluteElements hcwd file).isFileName (List.mem_reverse.mpr ?_)
  rw [h]
  exact List.mem_append_right _ he

/-- A file below the base is called by what follows the base, unless that begins with two dots. -/
theorem display_of_append (hcwd : isRooted cwd = true)
    (h : absoluteElements cwd file = absoluteElements cwd base ++ rest) (hrest : rest ≠ []) :
    display cwd (some (absolute cwd base)) file =
      if up <+: Bytes.intercalate [slash] rest then clean file
      else Bytes.intercalate [slash] rest := by
  have hnames := isFileName_of_append hcwd h
  have hhere : Bytes.intercalate [slash] rest ≠ here := by
    intro hhere
    have helements := elements_intercalate (fun e he => (hnames e he).slash_not_mem) hrest
    rw [hhere] at helements
    exact (hnames here (helements ▸ List.mem_cons_self)).ne_here rfl
  have helements : cleanElements (absolute cwd (clean file))
      = cleanElements (absolute cwd base) ++ rest := by
    rw [absolute_clean hcwd, cleanElements_absolute hcwd, cleanElements_absolute hcwd, h]
  rw [display_of_relative? (relative?_of_append (isRooted_absolute hcwd base)
    (isRooted_absolute hcwd (clean file)) helements), if_neg hrest]
  simp [hhere]

/-- Any other file is called by its cleaned path. -/
theorem display_of_not_append (hcwd : isRooted cwd = true)
    (h : ∀ rest, rest ≠ [] → absoluteElements cwd file ≠ absoluteElements cwd base ++ rest) :
    display cwd (some (absolute cwd base)) file = clean file := by
  have hbase := isRooted_absolute hcwd base
  have hfile := isRooted_absolute hcwd (clean file)
  have helements : cleanElements (absolute cwd (clean file)) = absoluteElements cwd file := by
    rw [absolute_clean hcwd, cleanElements_absolute hcwd]
  by_cases hprefix : cleanElements (absolute cwd base) <+: absoluteElements cwd file
  · -- then the file is the base itself, and the path from there to itself says nothing
    obtain ⟨rest, hrest⟩ := hprefix
    obtain rfl : rest = [] := by
      by_contra hsome
      exact h rest hsome (by rw [← hrest, cleanElements_absolute hcwd])
    rw [display_of_relative? (relative?_of_append hbase hfile (helements.trans hrest.symm))]
    simp
  · obtain ⟨steps, hsteps, hup⟩ := relative?_of_not_prefix hbase hfile (by rwa [helements])
    rw [display_of_relative? hsteps, if_pos (.inr hup)]

/-! ## The working directory as base -/

theorem absoluteElements_self (hcwd : isRooted cwd = true) :
    absoluteElements cwd cwd = cleanElements cwd := by
  rw [absoluteElements, if_pos hcwd]

/-- A name that is given from the working directory means the same path as the file. -/
theorem absolute_display (hcwd : isRooted cwd = true) (file : Bytes) :
    absolute cwd (display cwd (some (absolute cwd cwd)) file) = absolute cwd file := by
  by_cases h : ∃ rest, rest ≠ [] ∧ absoluteElements cwd file = absoluteElements cwd cwd ++ rest
  · obtain ⟨rest, hrest, h⟩ := h
    rw [display_of_append hcwd h hrest]
    split
    · exact absolute_clean hcwd file
    · have hnames := isFileName_of_append hcwd h
      have hkept : Kept false rest.reverse :=
        .of_isFileName fun e he => hnames e (List.mem_reverse.mp he)
      rw [← ofElements_of_ne_nil hrest, absolute_eq hcwd, absolute_eq hcwd, h,
        absoluteElements_self hcwd, absoluteElements, isRooted_ofElements hkept,
        if_neg Bool.false_ne_true, descend_elements_ofElements hkept, descend_names _ _ hnames]
  · push Not at h
    rw [display_of_not_append hcwd h, absolute_clean hcwd]

/-- **The name of a file leads to it**: whatever a path leads to in a tree, so does the name by
which a build calls it. -/
theorem find_display {t : Host.Tree} (hhome : t.AtHome) {place : Host.Place}
    (h : t.find file = .ok place) :
    t.find (display t.workingDirectory (some (absolute t.workingDirectory t.workingDirectory)) file)
      = .ok place := by
  have hcwd := t.isRooted_workingDirectory
  by_cases hbelow : ∃ rest, rest ≠ [] ∧ absoluteElements t.workingDirectory file
      = absoluteElements t.workingDirectory t.workingDirectory ++ rest
  · obtain ⟨rest, hrest, hbelow⟩ := hbelow
    rw [display_of_append hcwd hbelow hrest]
    split
    · exact Host.Tree.find_clean h
    · rw [absoluteElements_self hcwd] at hbelow
      exact Host.Tree.find_of_absoluteElements hhome hrest hbelow h
  · push Not at hbelow
    rw [display_of_not_append hcwd hbelow]
    exact Host.Tree.find_clean h

/-! ## Lists of files -/

/-- An entry at the end is kept if it did not come before. -/
theorem withoutRepeats_concat (paths : List Bytes) (p : Bytes) :
    withoutRepeats (paths ++ [p]) =
      if p ∈ withoutRepeats paths then withoutRepeats paths else withoutRepeats paths ++ [p] := by
  simp [withoutRepeats]

/-- Leaving out repeats loses no entry. -/
theorem mem_withoutRepeats {paths : List Bytes} {p : Bytes} :
    p ∈ withoutRepeats paths ↔ p ∈ paths := by
  induction paths using List.reverseRecOn with
  | nil => simp [withoutRepeats]
  | append_singleton paths q ih =>
    rw [withoutRepeats_concat, List.mem_append, List.mem_singleton, ← ih]
    split
    · rename_i hq
      constructor
      · exact .inl
      · rintro (hp | rfl)
        · exact hp
        · exact hq
    · rw [List.mem_append, List.mem_singleton]

/-- What is kept of a list stands in the order in which it comes up first. -/
theorem pairwise_withoutRepeats (paths : List Bytes) :
    (withoutRepeats paths).Pairwise fun p q => paths.idxOf p < paths.idxOf q := by
  induction paths using List.reverseRecOn with
  | nil => simp [withoutRepeats]
  | append_singleton paths q ih =>
    have hold : (withoutRepeats paths).Pairwise fun p q' =>
        (paths ++ [q]).idxOf p < (paths ++ [q]).idxOf q' := by
      refine ih.imp_of_mem fun hp hq' hlt => ?_
      rwa [List.idxOf_append_of_mem (mem_withoutRepeats.mp hp),
        List.idxOf_append_of_mem (mem_withoutRepeats.mp hq')]
    rw [withoutRepeats_concat]
    split
    · exact hold
    · rename_i hq
      refine List.pairwise_append.mpr ⟨hold, List.pairwise_singleton _ _, fun p hp x hx => ?_⟩
      -- the new path comes up behind all of the others
      obtain rfl := List.mem_singleton.mp hx
      have hp := mem_withoutRepeats.mp hp
      rw [List.idxOf_append_of_mem hp,
        List.idxOf_append_of_notMem fun h => hq (mem_withoutRepeats.mpr h)]
      have hlt := List.idxOf_lt_length_of_mem hp
      omega

/-- With a base and no empty paths, each file is shown as it is alone. -/
theorem displayAll_eq {files : List Bytes} (hbase : (Text.trim base).isEmpty = false)
    (hfiles : ∀ f ∈ files, f ≠ []) : displayAll cwd base files =
      withoutRepeats (files.map (display cwd (some (absolute cwd base)))) := by
  have hkept : files.filter (!·.isEmpty) = files :=
    List.filter_eq_self.mpr fun f hf => by simp [hfiles f hf]
  rw [displayAll, hbase, hkept]
  rfl

/-- **How a list of files is called.** A file below the base is called by the rest of its path
there, unless the rest begins with two dots, and any other file by its cleaned path. The list of the
names has no repeats and stands in the order in which they come up first. Where the base is the
working directory, the names mean the same paths as the files, and lead to them. That they lead
there is said of trees without symbolic links, which are the only trees there are here: behind a
link, two dots would lead elsewhere than a cleaned path. -/
theorem displayed_paths {files : List Bytes} (hcwd : isRooted cwd = true)
    (hbase : (Text.trim base).isEmpty = false) (hfiles : ∀ f ∈ files, f ≠ []) :
    let shown := display cwd (some (absolute cwd base))
    (∀ f ∈ files,
      (∀ r, r ≠ [] → absolute cwd f = below (absolute cwd base) r →
        shown f = if up <+: r then clean f else r) ∧
      ((∀ r, r ≠ [] → absolute cwd f ≠ below (absolute cwd base) r) → shown f = clean f)) ∧
    (displayAll cwd base files).Nodup ∧
    (∀ p, p ∈ displayAll cwd base files ↔ ∃ f ∈ files, shown f = p) ∧
    ((displayAll cwd base files).Pairwise fun p q =>
      (files.map shown).idxOf p < (files.map shown).idxOf q) ∧
    (base = cwd → ∀ f ∈ files, absolute cwd (shown f) = absolute cwd f ∧
      ∀ t : Host.Tree, t.AtHome → t.workingDirectory = cwd →
        ∀ place, t.find f = .ok place → t.find (shown f) = .ok place) := by
  intro shown
  rw [displayAll_eq hbase hfiles]
  have hpairwise := pairwise_withoutRepeats (files.map shown)
  refine ⟨fun f _ => ⟨?_, ?_⟩, ?_, ?_, hpairwise, ?_⟩
  · intro r hr h
    have h := (absolute_eq_below_iff hcwd hr).mp h
    have hshown := display_of_append hcwd h (elements_ne_nil r)
    rwa [intercalate_elements] at hshown
  · intro h
    refine display_of_not_append hcwd fun rest hrest hbelow => ?_
    have hnames := isFileName_of_append hcwd hbelow
    have helements := elements_intercalate (fun e he => (hnames e he).slash_not_mem) hrest
    have hr := mt (intercalate_eq_nil_iff fun e he => (hnames e he).ne_nil).mp hrest
    exact h _ hr ((absolute_eq_below_iff hcwd hr).mpr (by rw [helements, hbelow]))
  · exact hpairwise.imp fun hlt heq => by simp [heq] at hlt
  · intro p
    rw [mem_withoutRepeats, List.mem_map]
  · rintro rfl f -
    refine ⟨absolute_display hcwd f, ?_⟩
    rintro t hhome rfl place hplace
    exact find_display hhome hplace

/-- A tree with a file two directories below the root, the upper one of which is the working
directory. -/
def sourceTree : Host.Tree where
  entries := [([.ofString "w"], none), ([.ofString "w", .ofString "src"], none),
    ([.ofString "w", .ofString "src", .ofString "a.s"], some [])]
  cwd := [.ofString "w"]

/-- The file is called by the rest of its path and found by it; one beside the working directory
keeps its path. -/
theorem displayed_paths_sourceTree :
    let file := Bytes.ofString "/w/src/a.s"
    let other := Bytes.ofString "/v/./b.s"
    let cwd := Bytes.ofString "/w"
    isRooted cwd = true ∧ (Text.trim cwd).isEmpty = false ∧ (∀ f ∈ [file, other], f ≠ []) ∧
      display cwd (some (absolute cwd cwd)) file = .ofString "src/a.s" ∧
      display cwd (some (absolute cwd cwd)) other = .ofString "/v/b.s" ∧
      sourceTree.AtHome ∧ sourceTree.find (.ofString "src/a.s")
        = .ok [.ofString "w", .ofString "src", .ofString "a.s"] := by
  intro file other cwd
  have hbase : (Text.trim cwd).isEmpty = false := by decide +kernel
  have hfiles : ∀ f ∈ [file, other], f ≠ [] := by decide
  have hhome : sourceTree.AtHome := rfl
  have hplace : sourceTree.find file = .ok [.ofString "w", .ofString "src", .ofString "a.s"] := rfl
  obtain ⟨hshown, -, -, -, hsame⟩ :=
    displayed_paths (show isRooted cwd = true from rfl) hbase hfiles
  have hfile : display cwd (some (absolute cwd cwd)) file = .ofString "src/a.s" := by
    have h := (hshown file (by simp)).1 (Bytes.ofString "src/a.s") (by decide) rfl
    rwa [if_neg (by decide)] at h
  refine ⟨rfl, hbase, hfiles, hfile, ?_, hhome, ?_⟩
  · have h := (hshown other (by simp)).2 ?_
    · rw [h]
      rfl
    · intro r hr
      have hcwd : absolute cwd cwd = [slash, 0x77] := rfl
      have hother : absolute cwd other = slash :: 0x76 :: Bytes.ofString "/b.s" := rfl
      rw [hcwd, hother]
      simp [below]
  · have h := (hsame rfl file (by simp)).2 sourceTree hhome rfl _ hplace
    rwa [hfile] at h

/-- A file below the base keeps its whole path when the first name behind the base begins with two
dots. -/
theorem dotted_directory_not_shortened :
    let base := Bytes.ofString "/w"
    let file := Bytes.ofString "/w/..x/y"
    absolute [slash] file = below (absolute [slash] base) (.ofString "..x/y") ∧
      displayAll [slash] base [file] = [file] := by
  decide +kernel

end BuildPath

end CatalystAsm
