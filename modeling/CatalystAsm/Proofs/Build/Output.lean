import CatalystAsm.Command.Settings
import CatalystAsm.Proofs.Build.Display
import CatalystAsm.Proofs.Except
import Mathlib.Data.List.TakeWhile

/-!
# Where binaries go

A path is its directory and its last element (`cleanElements_last`), and a name in a directory has
both again (`directory_entry`, `afterSlash_entry`). The binary of a source is such a name
(`output_eq`), made of the stem of the source, so binaries are told apart by directories and stems
and nothing else.
-/

namespace CatalystAsm

namespace Path

variable {rooted : Bool} {p q n cwd : Bytes} {es fs : List Bytes}

/-! ## The last element -/

/-- A path without a slash is its own only element. -/
theorem elements_of_not_mem (h : slash ∉ p) : elements p = [p] := by
  have hes : ∀ e ∈ [p], slash ∉ e := by simpa using h
  exact elements_intercalate hes (List.cons_ne_nil p [])

/-- What stands before the last element. -/
def start (p : Bytes) : Bytes := (p.reverse.dropWhile (· != slash)).reverse

theorem directory_eq (p : Bytes) : directory p = clean (start p) := rfl

/-- A path is what stands before its last element and that element. -/
theorem start_append_afterSlash (p : Bytes) : start p ++ afterSlash p = p := by
  rw [start, afterSlash, ← List.reverse_append, List.takeWhile_append_dropWhile,
    List.reverse_reverse]

/-- There is no slash in the last element. -/
theorem slash_not_mem_afterSlash (p : Bytes) : slash ∉ afterSlash p := by
  intro h
  have h := List.mem_takeWhile_imp (List.mem_reverse.mp h)
  simp at h

/-- A last element that does not stand alone stands behind a slash. -/
theorem start_eq (p : Bytes) : start p = [] ∨ ∃ d, start p = d ++ [slash] := by
  unfold start
  cases h : p.reverse.dropWhile (· != slash) with
  | nil => exact .inl rfl
  | cons b rest =>
    have hb := List.head_dropWhile_not (· != slash) (l := p.reverse) (by simp [h])
    obtain rfl : b = slash := by simpa [h] using hb
    exact .inr ⟨rest.reverse, List.reverse_cons⟩

/-- The last of the elements is the text behind the last slash. -/
theorem exists_elements (p : Bytes) :
    ∃ es, elements p = es ++ [afterSlash p] ∧ elements (start p) = es ++ [[]] := by
  have hlast := elements_of_not_mem (slash_not_mem_afterSlash p)
  have hp := start_append_afterSlash p
  rcases start_eq p with hstart | ⟨d, hstart⟩
  · rw [hstart, List.nil_append] at hp
    refine ⟨[], ?_, by rw [hstart]; rfl⟩
    rw [List.nil_append, ← hlast, hp]
  · refine ⟨elements d, ?_, by rw [hstart]; exact elements_append d []⟩
    rw [hstart, List.append_assoc, List.singleton_append] at hp
    rw [← hlast, ← elements_append, hp]

/-- A path is rooted if what stands before its last element is. -/
theorem isRooted_start (p : Bytes) : isRooted (start p) = isRooted p := by
  have hp := start_append_afterSlash p
  rcases start_eq p with hstart | ⟨d, hstart⟩
  · -- the only element has no slash
    rw [hstart, List.nil_append] at hp
    have hslash := slash_not_mem_afterSlash p
    rw [hp] at hslash
    rw [hstart]
    cases p with
    | nil => rfl
    | cons b p =>
      have hb : b ≠ slash := fun hb => hslash (hb ▸ List.mem_cons_self)
      simp [isRooted, hb]
  · conv_rhs => rw [← hp]
    rw [isRooted_append (by simp [hstart])]

@[simp] theorem isRooted_directory (p : Bytes) : isRooted (directory p) = isRooted p := by
  rw [directory_eq, isRooted_clean, isRooted_start]

/-- Going on by a path is going on by its directory and then by its last element. -/
theorem descend_elements (r : Bool) (s : List Bytes) (p : Bytes) :
    descend r s (elements p) = descend r (descend r s (elements (start p))) [afterSlash p] := by
  obtain ⟨es, hp, hstart⟩ := exists_elements p
  rw [hp, hstart, descend_append, descend_append, descend_blank _ _ _ (.inl rfl), descend_nil]

/-- A path leads to its last element from its directory. -/
theorem cleanElements_last (p : Bytes) :
    cleanElements p = descend (isRooted p) (cleanElements (directory p)) [afterSlash p] := by
  rw [cleanElements_eq, descend_elements, directory_eq, cleanElements_clean, cleanElements_eq,
    isRooted_start]

/-- Seen from the root, a path leads to its last element from its directory. -/
theorem absoluteElements_last (cwd p : Bytes) :
    absoluteElements cwd p
      = descend true (absoluteElements cwd (directory p)) [afterSlash p] := by
  rw [directory_eq, absoluteElements_clean, absoluteElements, absoluteElements, isRooted_start]
  split
  · rename_i hp
    conv_lhs => rw [cleanElements_last, hp, directory_eq, cleanElements_clean]
  · rw [descend_elements]

/-- The last of the elements that a path is written out from. -/
theorem afterSlash_ofElements (h : ∀ e ∈ es ++ [n], slash ∉ e) :
    afterSlash (ofElements rooted (es ++ [n])) = n := by
  obtain ⟨fs, hfs, -⟩ := exists_elements (ofElements rooted (es ++ [n]))
  rw [elements_ofElements (by simp) h] at hfs
  cases rooted with
  | true =>
    rw [if_pos rfl, ← List.cons_append] at hfs
    exact (List.append_singleton_inj.mp hfs).2.symm
  | false =>
    rw [if_neg Bool.false_ne_true] at hfs
    exact (List.append_singleton_inj.mp hfs).2.symm

/-- A cleaned path without a last element is the root. -/
theorem eq_slash_of_afterSlash (hp : clean p = p) (h : afterSlash p = []) : p = [slash] := by
  have hkept := kept_cleanElements p
  have heq : p = ofElements (isRooted p) (cleanElements p) := hp.symm.trans (clean_eq p)
  rcases List.eq_nil_or_concat (cleanElements p) with hes | ⟨es, e, hes⟩
  · rw [hes] at heq
    cases hrooted : isRooted p with
    | true =>
      rw [heq, hrooted]
      rfl
    | false =>
      rw [heq, hrooted] at h
      cases h
  · rw [List.concat_eq_append] at hes
    rw [hes] at heq hkept
    have hslash : ∀ x ∈ es ++ [e], slash ∉ x := fun x hx =>
      hkept.slash_not_mem (List.mem_reverse.mpr hx)
    rw [heq, afterSlash_ofElements hslash] at h
    exact absurd h (hkept.ne_nil (by simp))

/-- A path that does not end in a slash ends in its last element. -/
theorem base_eq (h : afterSlash p ≠ []) : base p = afterSlash p := by
  unfold afterSlash at h
  cases hp : p.reverse with
  | nil => simp [hp] at h
  | cons b rest =>
    have hb : (b == slash) = false := by
      by_contra hb
      obtain rfl : b = slash := by simpa using hb
      simp [hp] at h
    have hsome : p.isEmpty = false := by
      cases p with
      | nil => cases hp
      | cons c p => rfl
    have hstripped : (p.reverse.dropWhile (· == slash)).reverse = p := by
      rw [hp, List.dropWhile_cons, hb, if_neg Bool.false_ne_true, ← hp, List.reverse_reverse]
    simp only [base, hsome, hstripped, Bool.false_eq_true, if_false]

/-! ## Extensions -/

/-- The last element without its extension. -/
def stem (p : Bytes) : Bytes := (afterSlash p).take ((afterSlash p).length - (extension p).length)

/-- The extension of a name that ends in a dot and bytes without one. -/
theorem extension_eq {s e : Bytes} (h : afterSlash p = s ++ dot :: e) (he : dot ∉ e) :
    extension p = dot :: e := by
  have hall : ∀ b ∈ e.reverse, (b != dot) = true := by
    intro b hb
    rw [bne_iff_ne]
    rintro rfl
    exact he (List.mem_reverse.mp hb)
  rw [extension, h]
  simp only [List.contains_eq_mem, List.mem_append, List.mem_cons, true_or, or_true, decide_true,
    if_true, List.reverse_append, List.reverse_cons, List.append_assoc, List.singleton_append]
  rw [List.takeWhile_append_of_pos hall, List.takeWhile_cons]
  simp

/-- The last element has no dot, and then no extension, or it has a last dot. -/
theorem extension_cases (p : Bytes) :
    (dot ∉ afterSlash p ∧ extension p = []) ∨
      ∃ s e, afterSlash p = s ++ dot :: e ∧ dot ∉ e := by
  by_cases h : dot ∈ afterSlash p
  · -- the first dot from behind
    obtain ⟨e, s, hes, he⟩ := List.eq_append_cons_of_mem (List.mem_reverse.mpr h)
    refine .inr ⟨s.reverse, e.reverse, ?_, by simpa using he⟩
    rw [← List.reverse_reverse (afterSlash p), hes]
    simp
  · exact .inl ⟨h, by simp [extension, h]⟩

/-- The last element is its stem and its extension. -/
theorem stem_append_extension (p : Bytes) : stem p ++ extension p = afterSlash p := by
  rcases extension_cases p with ⟨-, h⟩ | ⟨s, e, h, he⟩
  · simp [stem, h]
  · rw [stem, extension_eq h he, h]
    simp

/-- The name of a binary is a name, whatever the stem. -/
theorem isFileName_stem (p : Bytes) : IsFileName (stem p ++ .ofString ".bin") := by
  have hlength : 4 ≤ (stem p ++ .ofString ".bin").length := by
    rw [List.length_append]
    exact Nat.le_add_left 4 _
  refine ⟨?_, ?_, ?_, ?_⟩
  · intro h
    simp [h] at hlength
  · intro h
    simp [h, here] at hlength
  · intro h
    simp [h, up] at hlength
  · intro h
    rcases List.mem_append.mp h with h | h
    · exact slash_not_mem_afterSlash p (List.mem_of_mem_take h)
    · revert h
      decide

theorem extension_bin (h : afterSlash p = stem q ++ .ofString ".bin") :
    extension p = .ofString ".bin" :=
  extension_eq h (show dot ∉ Bytes.ofString "bin" by decide)

/-! ## Names in directories -/

/-- The path of a name in a directory. -/
def entry (place n : Bytes) : Bytes := ofElements (isRooted place) (cleanElements place ++ [n])

/-- The elements of an entry are those of a cleaned path. -/
theorem kept_entry (place : Bytes) (hn : IsFileName n) :
    Kept (isRooted place) (cleanElements place ++ [n]).reverse := by
  rw [List.reverse_append, List.reverse_singleton]
  exact .name hn (kept_cleanElements place)

/-- Only the cleaned directory matters for an entry. -/
theorem entry_congr (h : clean p = clean q) (n : Bytes) : entry p n = entry q n := by
  obtain ⟨hrooted, helements⟩ := clean_inj.mp h
  rw [entry, entry, hrooted, helements]

theorem clean_entry (place : Bytes) (hn : IsFileName n) : clean (entry place n) = entry place n :=
  clean_ofElements (kept_entry place hn)

theorem afterSlash_entry (place : Bytes) (hn : IsFileName n) : afterSlash (entry place n) = n :=
  afterSlash_ofElements fun _ he => (kept_entry place hn).slash_not_mem (List.mem_reverse.mpr he)

/-- The directory of an entry is the one it was made in. -/
theorem directory_entry (place : Bytes) (hn : IsFileName n) :
    directory (entry place n) = clean place := by
  have hkept := kept_entry place hn
  have hlast := cleanElements_last (entry place n)
  rw [afterSlash_entry place hn, descend_names _ _ (by simpa using hn), entry,
    cleanElements_ofElements hkept, List.append_singleton_inj] at hlast
  rw [directory_eq, clean_inj, isRooted_start]
  refine ⟨isRooted_ofElements hkept, ?_⟩
  rw [← cleanElements_clean, ← directory_eq]
  exact hlast.1.symm

/-- A name in a directory is a given path when that lies in the directory and has the name. -/
theorem entry_eq_iff (hq : clean q = q) (hn : IsFileName n) :
    entry p n = q ↔ directory q = clean p ∧ afterSlash q = n := by
  constructor
  · rintro rfl
    exact ⟨directory_entry p hn, afterSlash_entry p hn⟩
  · rintro ⟨hdirectory, hlast⟩
    calc entry p n
      _ = entry (directory q) n := entry_congr (by rw [hdirectory, clean_clean]) n
      _ = ofElements (isRooted q) (cleanElements (directory q) ++ [n]) := by
        rw [entry, isRooted_directory]
      _ = ofElements (isRooted q) (cleanElements q) := by
        rw [cleanElements_last q, hlast, descend_names _ _ (by simpa using hn)]
      _ = q := by rw [← clean_eq, hq]

/-- Names in directories are the same path when the directories and the names are the same. -/
theorem entry_inj (hn : IsFileName n) {m : Bytes} (hm : IsFileName m) :
    entry p n = entry q m ↔ clean p = clean q ∧ n = m := by
  rw [entry_eq_iff (clean_entry q hm) hn, directory_entry q hm, afterSlash_entry q hm, eq_comm,
    @eq_comm _ m]

/-! ## Ways to look at paths -/

/-- A way to look at paths: it gives cleaned paths, and what it makes of a path follows from what it
makes of the directory. -/
structure IsView (view : Bytes → Bytes) : Prop where
  clean_view (p : Bytes) : clean (view p) = view p
  view_entry (place : Bytes) {n : Bytes} :
    IsFileName n → view (entry place n) = entry (view place) n
  eq_of_last {p q : Bytes} : view (directory p) = view (directory q) →
    afterSlash p = afterSlash q → view p = view q

/-- Cleaning is a way to look at paths. -/
theorem isView_clean : IsView clean where
  clean_view := clean_clean
  view_entry place _ hn := by
    rw [clean_entry place hn, entry_congr (clean_clean place)]
  eq_of_last {p q} hdirectory hlast := by
    obtain ⟨hrooted, helements⟩ := clean_inj.mp hdirectory
    rw [isRooted_directory, isRooted_directory] at hrooted
    rw [clean_inj, cleanElements_last p, cleanElements_last q, hrooted, helements, hlast]
    exact ⟨rfl, rfl⟩

/-- Seeing paths from the root is a way to look at them. -/
theorem isView_absolute (hcwd : isRooted cwd = true) : IsView (absolute cwd) where
  clean_view p := by rw [absolute_eq hcwd, clean_ofElements (kept_absoluteElements hcwd p)]
  view_entry place n hn := by
    rw [absolute_eq hcwd, absoluteElements_last, directory_entry place hn,
      afterSlash_entry place hn, absoluteElements_clean, descend_names _ _ (by simpa using hn),
      entry, isRooted_absolute hcwd, cleanElements_absolute hcwd]
  eq_of_last {p q} hdirectory hlast := by
    rw [absolute_eq hcwd, absolute_eq hcwd, absoluteElements_last cwd p,
      absoluteElements_last cwd q, ← cleanElements_absolute hcwd, hdirectory, hlast,
      cleanElements_absolute hcwd]

end Path

namespace BuildPath

open CatalystAsm.Path

variable {cwd base file p : Bytes}

/-- The directory of the binary of a source: the one for all binaries, if there is one. -/
def place (source directory : Bytes) : Bytes :=
  if directory = [] then Path.directory source else directory

/-- **The path of a binary**: in its directory, the stem of the source with the ending `.bin`. -/
theorem output_eq (hp : clean p = p) (directory : Bytes) :
    output p directory = entry (place p directory) (stem p ++ .ofString ".bin") := by
  have hplace : place p directory ≠ [] := by
    unfold place
    split
    · exact clean_ne_nil _
    · assumption
  have hname := isFileName_stem p
  have helements := elements_of_not_mem hname.slash_not_mem
  simp only [output, List.isEmpty_iff]
  change join [place p directory, _] = _
  generalize place p directory = place at hplace ⊢
  by_cases hlast : afterSlash p = []
  · -- the root stands for its own name, and the slash of it is one more between the elements
    obtain rfl := eq_slash_of_afterSlash hp hlast
    show join [place, slash :: (stem [slash] ++ Bytes.ofString ".bin")] = _
    rw [join_eq hplace (List.cons_ne_nil _ _), clean_eq, isRooted_append hplace,
      cleanElements_append hplace, elements_slash, helements, descend_blank _ _ _ (.inl rfl),
      descend_names _ _ (by simpa using hname)]
    rfl
  · have hstem : Bytes.dropEnd? (extension p) (afterSlash p) = some (stem p) := by
      have hsuffix : (extension p).isSuffixOf (afterSlash p) = true :=
        List.isSuffixOf_iff_suffix.mpr ⟨stem p, stem_append_extension p⟩
      rw [Bytes.dropEnd?, if_pos hsuffix]
      rfl
    rw [base_eq hlast, hstem, Option.getD_some, join_eq hplace hname.ne_nil, clean_eq,
      isRooted_append hplace, cleanElements_append hplace, helements,
      descend_names _ _ (by simpa using hname)]
    rfl

/-- What a file is called by is a cleaned path. -/
theorem clean_display (hcwd : isRooted cwd = true) (base file : Bytes) :
    clean (display cwd (some (absolute cwd base)) file)
      = display cwd (some (absolute cwd base)) file := by
  by_cases h : ∃ rest, rest ≠ [] ∧ absoluteElements cwd file = absoluteElements cwd base ++ rest
  · obtain ⟨rest, hrest, h⟩ := h
    rw [display_of_append hcwd h hrest]
    split
    · exact clean_clean file
    · have hkept : Kept false rest.reverse :=
        .of_isFileName fun e he => isFileName_of_append hcwd h e (List.mem_reverse.mp he)
      rw [← ofElements_of_ne_nil hrest, clean_ofElements hkept]
  · push Not at h
    rw [display_of_not_append hcwd h, clean_clean]

/-- Every path that a report shows is cleaned. -/
theorem clean_of_mem_displayAll (hcwd : isRooted cwd = true) {files : List Bytes} {p : Bytes}
    (h : p ∈ displayAll cwd base files) : clean p = p := by
  obtain ⟨f, -, rfl⟩ := List.mem_map.mp (mem_withoutRepeats.mp h)
  split
  · exact clean_clean f
  · exact clean_display hcwd base f

/-- Leaving out repeats makes a list no longer. -/
theorem length_withoutRepeats_le (paths : List Bytes) :
    (withoutRepeats paths).length ≤ paths.length := by
  induction paths using List.reverseRecOn with
  | nil => simp [withoutRepeats]
  | append_singleton paths p ih =>
    rw [withoutRepeats_concat]
    split
    · rw [List.length_append]
      omega
    · simpa using ih

end BuildPath

namespace Command.Settings

open CatalystAsm.Path BuildPath

variable {manifest : Option Manifest.Loaded} {given : Given} {s : Settings} {cwd : Bytes}

/-- The settings of a command that is taken: the named files, or what the manifest says; and one
file at most if the output is named. -/
theorem of_ofGiven (h : ofGiven manifest given = .ok s) :
    s.output = given.text "output" ∧ (s.output = [] ∨ s.files.length ≤ 1) ∧
      (s.files, s.outputDir) = if given.arguments = [] then
        manifest.elim ([], []) fun m => (m.sources, m.outputDir) else (given.arguments, []) := by
  obtain ⟨t, ht, h⟩ := bind_eq_ok_iff.mp h
  obtain ⟨options, -, h⟩ := bind_eq_ok_iff.mp h
  have hsources : (t.files, t.outputDir) = if given.arguments = [] then
      manifest.elim ([], []) fun m => (m.sources, m.outputDir) else (given.arguments, []) := by
    unfold ofSources at ht
    split at ht
    · rename_i hnamed
      cases ht
      rw [if_neg (by simpa using hnamed)]
    · rename_i hnamed
      rw [if_pos (by simpa using hnamed)]
      cases manifest with
      | none => cases ht
      | some m =>
        dsimp only at ht
        split at ht
        · cases ht
        · cases ht
          rfl
  dsimp only at h
  split at h
  · cases h
  · rename_i hone
    cases h
    refine ⟨rfl, ?_, hsources⟩
    by_cases houtput : given.text "output" = []
    · exact .inl houtput
    · refine .inr ?_
      simpa [houtput] using hone

/-- **When two binaries are the same file.** A named output is that of the only source. Otherwise
the binary of a source has its stem with the ending `.bin`, in the directory for binaries or that of
the source. So two of them are the same file exactly when their directories and stems are the same,
which beside sources of one extension only happens to the same source; and a binary is another file
exactly when that is in its directory by its name, which only happens to files with the ending
`.bin`. All this holds of the cleaned paths and of the paths from the root. -/
theorem outputs_coincide (h : ofGiven manifest given = .ok s) (hcwd : isRooted cwd = true)
    (limit : Int) :
    let requests := s.requests cwd limit
    let place (r : BuildRequest) := BuildPath.place r.path s.outputDir
    (s.files, s.outputDir) = (if given.arguments = [] then
      manifest.elim ([], []) fun m => (m.sources, m.outputDir) else (given.arguments, [])) ∧
    (given.text "output" ≠ [] →
      requests.length ≤ 1 ∧ ∀ r ∈ requests, r.output = given.text "output") ∧
    (given.text "output" = [] → ∀ view ∈ [clean, absolute cwd], ∀ r ∈ requests,
      (∀ q ∈ requests,
        (view r.output = view q.output ↔
          view (place r) = view (place q) ∧ stem r.path = stem q.path) ∧
        (s.outputDir = [] → extension r.path = extension q.path → view r.output = view q.output →
          view r.path = view q.path)) ∧
      ∀ file,
        (view r.output = view file ↔ directory (view file) = view (place r) ∧
          afterSlash (view file) = stem r.path ++ .ofString ".bin") ∧
        (extension (view file) ≠ .ofString ".bin" → view r.output ≠ view file)) := by
  intro requests place
  obtain ⟨houtput, hone, hsources⟩ := of_ofGiven h
  have hrequests : ∀ r ∈ requests, clean r.path = r.path ∧
      r.output = if s.output = [] then BuildPath.output r.path s.outputDir else s.output := by
    intro r hr
    obtain ⟨path, hpath, rfl⟩ := List.mem_map.mp hr
    exact ⟨clean_of_mem_displayAll hcwd hpath, by simp only [List.isEmpty_iff]⟩
  refine ⟨hsources, ?_, ?_⟩
  · intro hnamed
    rw [← houtput] at hnamed ⊢
    refine ⟨?_, fun r hr => by rw [(hrequests r hr).2, if_neg hnamed]⟩
    have hlength : requests.length ≤ s.files.length := by
      simp only [requests, Settings.requests, displayAll, List.length_map]
      refine (length_withoutRepeats_le _).trans ?_
      rw [List.length_map]
      exact List.length_filter_le _ _
    exact hlength.trans (hone.resolve_left hnamed)
  · intro hunnamed view hview r hr
    have hv : IsView view := by
      rcases List.mem_pair.mp hview with rfl | rfl
      · exact isView_clean
      · exact isView_absolute hcwd
    have hentry : ∀ r ∈ requests,
        view r.output = entry (view (place r)) (stem r.path ++ .ofString ".bin") := by
      intro r hr
      obtain ⟨hpath, hr⟩ := hrequests r hr
      rw [hr, if_pos (houtput.trans hunnamed), output_eq hpath,
        hv.view_entry _ (isFileName_stem r.path)]
    refine ⟨fun q hq => ?_, fun file => ?_⟩
    · have hsame : view r.output = view q.output ↔
          view (place r) = view (place q) ∧ stem r.path = stem q.path := by
        rw [hentry r hr, hentry q hq, entry_inj (isFileName_stem _) (isFileName_stem _),
          hv.clean_view, hv.clean_view, List.append_left_inj]
      refine ⟨hsame, fun hbeside hextension heq => ?_⟩
      obtain ⟨hplace, hstem⟩ := hsame.mp heq
      simp only [place, BuildPath.place, if_pos hbeside] at hplace
      refine hv.eq_of_last hplace ?_
      rw [← stem_append_extension, hstem, hextension, stem_append_extension]
    · have hfile : view r.output = view file ↔ directory (view file) = view (place r) ∧
          afterSlash (view file) = stem r.path ++ .ofString ".bin" := by
        rw [hentry r hr, entry_eq_iff (hv.clean_view file) (isFileName_stem _), hv.clean_view]
      exact ⟨hfile, fun hextension heq => hextension (extension_bin (hfile.mp heq).2)⟩

/-- Sources with one extension in two directories: no binary is one of them. -/
theorem outputs_coincide_two_directories :
    let given : Given := { arguments := [.ofString "src/a.s", .ofString "../a.s"] }
    let cwd := Bytes.ofString "/w"
    ∃ s, ofGiven none given = .ok s ∧ isRooted cwd = true ∧ given.text "output" = [] ∧
      ∀ r ∈ s.requests cwd 0, (∀ file ∈ s.files, absolute cwd r.output ≠ absolute cwd file) ∧
        (r.path = .ofString "src/a.s" → clean r.output = clean (.ofString "src/./a.bin")) := by
  intro given cwd
  have hs : ofGiven none given = .ok { files := given.arguments } := rfl
  obtain ⟨-, -, h⟩ := outputs_coincide hs (show isRooted cwd = true from rfl) 0
  refine ⟨_, hs, rfl, rfl, fun r hr => ⟨fun file hfile => ?_, fun hpath => ?_⟩⟩
  · refine ((h rfl (absolute cwd) (by simp) r hr).2 file).2 ?_
    rcases List.mem_pair.mp hfile with rfl | rfl <;> decide
  · refine ((h rfl clean (by simp) r hr).2 _).1.mpr ?_
    simp only [hpath]
    decide

/-- Two sources that differ in their extension have one binary, and a source that has the ending
`.bin` is its own. -/
theorem outputs_overwritten :
    let outputs (arguments : List Bytes) := (ofGiven none { arguments }).toOption.map fun s =>
      (s.requests (.ofString "/w") 0).map fun r => (r.path, r.output)
    outputs [.ofString "a.s", .ofString "a.asm"] = some [(.ofString "a.s", .ofString "a.bin"),
        (.ofString "a.asm", .ofString "a.bin")] ∧
      outputs [.ofString "x.bin"] = some [(.ofString "x.bin", .ofString "x.bin")] := by
  decide +kernel

end Command.Settings

end CatalystAsm
