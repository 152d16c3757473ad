import CatalystAsm.Proofs.Statement.Literal
import CatalystAsm.Source.File
import Mathlib.Logic.Relation

/-!
# Comments and literals

A comment is looked for byte by byte, by a search that knows about quotes and backslashes and
nothing else; literals are read by scanners of their own. The two agree: the search comes out of
every literal where its scanner does (`ReadsLiteral`), so that no literal is cut and each of them
has the same value in the statement that is left.
-/

namespace CatalystAsm

namespace Statement

/-! ## The search -/

/-- Where the search for a comment stands: between literals, in a literal with a quote around it, or
behind a backslash there. -/
inductive Quoting where
  | outside
  | inside (quote : UInt8)
  | escaped (quote : UInt8)
  deriving DecidableEq, Repr

namespace Quoting

/-- The search after one byte more, unless that begins a comment. -/
def next? : Quoting → UInt8 → Option Quoting
  | outside, b =>
    if b = doubleQuote ∨ b = singleQuote then some (inside b)
    else if b = 0x23 ∨ b = 0x3b then none
    else some outside
  | inside quote, b =>
    if b = backslash then some (escaped quote)
    else if b = quote then some outside
    else some (inside quote)
  | escaped quote, _ => some (inside quote)

/-- The search after a text, unless a comment began in it. -/
def after? (s : Quoting) : Bytes → Option Quoting
  | [] => some s
  | b :: rest => (s.next? b).bind fun t => t.after? rest

/-- The number of bytes before a comment, from any place of the search on. -/
def uncommented : Quoting → Bytes → Nat
  | outside, text => Statement.uncommented none text
  | inside quote, text => Statement.uncommented (some quote) text
  | escaped _, [] => 0
  | escaped quote, _ :: rest => 1 + Statement.uncommented (some quote) rest

variable {s t u : Quoting} {text more rest : Bytes}

/-- The search goes through two texts one after the other. -/
theorem after?_append (h : s.after? text = some t) : s.after? (text ++ more) = t.after? more := by
  induction text generalizing s with
  | nil =>
    cases h
    rfl
  | cons b text ih =>
    obtain ⟨r, hr, h⟩ := Option.bind_eq_some_iff.mp h
    rw [List.cons_append, after?, hr]
    exact ih h

/-- A search that no byte moves stays where it is. -/
theorem after?_of_forall (h : ∀ b ∈ text, s.next? b = some s) : s.after? text = some s := by
  induction text with
  | nil => rfl
  | cons b text ih =>
    rw [after?, h b List.mem_cons_self]
    exact ih fun x hx => h x (List.mem_cons_of_mem b hx)

/-- **One byte of the search.** -/
theorem uncommented_cons (s : Quoting) (b : UInt8) (rest : Bytes) :
    s.uncommented (b :: rest) = ((s.next? b).map fun t => 1 + t.uncommented rest).getD 0 := by
  cases s with
  | outside =>
    show Statement.uncommented none (b :: rest) = _
    rw [Statement.uncommented.eq_def, next?]
    simp only [Bool.or_eq_true, beq_iff_eq]
    split_ifs <;> rfl
  | inside quote =>
    show Statement.uncommented (some quote) (b :: rest) = _
    rw [Statement.uncommented.eq_def, next?]
    simp only [beq_iff_eq]
    split_ifs
    · -- the byte behind the backslash is passed in the same step
      cases rest with
      | nil => rfl
      | cons x rest =>
        show 2 + Statement.uncommented (some quote) rest = 1 + (1 + _)
        omega
    · rfl
    · rfl
  | escaped quote => rfl

/-- **The search goes on from where it stands.** -/
theorem uncommented_append (h : s.after? text = some t) (rest : Bytes) :
    s.uncommented (text ++ rest) = text.length + t.uncommented rest := by
  induction text generalizing s with
  | nil =>
    cases h
    exact (Nat.zero_add _).symm
  | cons b text ih =>
    obtain ⟨r, hr, h⟩ := Option.bind_eq_some_iff.mp h
    rw [List.cons_append, uncommented_cons, hr, Option.map_some, Option.getD_some, ih h,
      List.length_cons]
    omega

/-- A text is passed when no comment begins in it. -/
theorem length_le_uncommented_iff (s : Quoting) (text rest : Bytes) :
    text.length ≤ s.uncommented (text ++ rest) ↔ ∃ t, s.after? text = some t := by
  constructor
  · intro h
    induction text generalizing s with
    | nil => exact ⟨s, rfl⟩
    | cons b text ih =>
      rw [List.cons_append, uncommented_cons] at h
      cases hr : s.next? b with
      | none =>
        rw [hr] at h
        exact absurd h (Nat.not_succ_le_zero _)
      | some r =>
        rw [hr, Option.map_some, Option.getD_some, List.length_cons] at h
        obtain ⟨t, ht⟩ := ih r (by omega)
        refine ⟨t, ?_⟩
        rw [after?, hr]
        exact ht
  · rintro ⟨t, ht⟩
    rw [uncommented_append ht]
    exact Nat.le_add_right _ _

/-- A comment begins between literals only. -/
theorem eq_outside_of_next? {b : UInt8} (h : s.next? b = none) : s = outside := by
  cases s with
  | outside => rfl
  | inside quote =>
    rw [next?] at h
    split_ifs at h
  | escaped quote => cases h

/-- Of the bytes that can begin a comment, those between literals do. -/
theorem uncommented_eq_length_iff {b : UInt8} (hb : b = 0x23 ∨ b = 0x3b) (s : Quoting)
    (text rest : Bytes) :
    s.uncommented (text ++ b :: rest) = text.length ↔ s.after? text = some outside := by
  constructor
  · intro h
    obtain ⟨t, ht⟩ := (length_le_uncommented_iff s text (b :: rest)).mp (Nat.le_of_eq h.symm)
    rw [uncommented_append ht, uncommented_cons] at h
    rw [ht]
    cases hnext : t.next? b with
    | none => rw [eq_outside_of_next? hnext]
    | some r =>
      rw [hnext, Option.map_some, Option.getD_some] at h
      omega
  · intro h
    have hnone : next? outside b = none := by rcases hb with rfl | rfl <;> decide
    rw [uncommented_append h, uncommented_cons, hnone]
    rfl

theorem uncommented_nil (s : Quoting) : s.uncommented [] = 0 := by
  cases s <;> rfl

/-- Where a comment begins, the search stood between literals. -/
theorem exists_comment (h : s.after? text = none) :
    ∃ c b t, text = c ++ b :: t ∧ s.after? c = some outside ∧ outside.next? b = none ∧
      s.uncommented text = c.length := by
  induction text generalizing s with
  | nil => cases h
  | cons b text ih =>
    cases hb : s.next? b with
    | none =>
      obtain rfl := eq_outside_of_next? hb
      refine ⟨[], b, text, rfl, rfl, hb, ?_⟩
      rw [uncommented_cons, hb]
      rfl
    | some t =>
      rw [after?, hb] at h
      obtain ⟨c, x, more, rfl, hc, hx, hlength⟩ := ih h
      refine ⟨b :: c, x, more, rfl, ?_, hx, ?_⟩
      · rw [after?, hb]
        exact hc
      · rw [uncommented_cons, hb, Option.map_some, Option.getD_some, hlength, List.length_cons,
          Nat.add_comm]

end Quoting

/-! ## Literals in the search -/

open Quoting

variable {quote b v : UInt8} {c d : Cursor} {text rest : Bytes}

/-- Digits are no quotes and no backslashes. -/
theorem next?_inside_of_isHexDigit (hquote : quote = doubleQuote ∨ quote = singleQuote)
    (hb : isHexDigit b = true) : (inside quote).next? b = some (inside quote) := by
  have hne (x : UInt8) (hx : isHexDigit x = false) : b ≠ x := by
    rintro rfl
    exact Bool.false_ne_true (hx.symm.trans hb)
  have hb : b ≠ quote := by rcases hquote with rfl | rfl <;> exact hne _ (by decide)
  rw [next?, if_neg (hne backslash (by decide)), if_neg hb]

/-- The search passes an escape as one backslash, one byte and bytes that mean nothing to it. -/
theorem Escape.after?_inside (hquote : quote = doubleQuote ∨ quote = singleQuote)
    (h : Escape rest text v) : (inside quote).after? text = some (inside quote) := by
  have hpair (x : UInt8) : (inside quote).after? [backslash, x] = some (inside quote) := by
    rw [after?, next?, if_pos rfl]
    rfl
  cases h with
  | letter => exact hpair _
  | @hexadecimal digits v hsome hrow h =>
    show (inside quote).after? ([backslash, 0x78] ++ digits) = _
    rw [after?_append (hpair 0x78)]
    refine after?_of_forall fun b hb => ?_
    exact next?_inside_of_isHexDigit hquote (hrow.mem b hb)
  | @octal digits v hsome hrow h =>
    obtain ⟨x, digits, rfl⟩ := List.exists_cons_of_ne_nil hsome
    show (inside quote).after? ([backslash, x] ++ digits) = _
    rw [after?_append (hpair x)]
    refine after?_of_forall fun b hb => ?_
    refine next?_inside_of_isHexDigit hquote (isOctalDigit_iff.mp (hrow.mem b ?_)).1
    exact List.mem_cons_of_mem x hb

/-- A character literal is left again by the search. -/
theorem Character.after?_outside (h : Character text v) : outside.after? text = some outside := by
  have hopen : outside.after? [singleQuote] = some (inside singleQuote) := by decide
  have hclose : (inside singleQuote).after? [singleQuote] = some outside := by decide
  cases h with
  | plain hquote hbackslash =>
    have hbyte : (inside singleQuote).after? [v] = some (inside singleQuote) := by
      rw [after?, next?, if_neg hbackslash, if_neg hquote]
      rfl
    rw [List.append_assoc, after?_append hopen, after?_append hbyte, hclose]
  | escape h =>
    rw [List.append_assoc, after?_append hopen, after?_append (h.after?_inside (.inr rfl)), hclose]

/-- **The rest of a string.** The search comes out of it behind its closing quote, and it is read
alike wherever it stands and whatever follows it. -/
theorem exists_text_of_stringBody {start chunk : Cursor} {out raw w : Bytes}
    (h : stringBody start out chunk c = .ok (w, d)) (hraw : chunk.Takes raw c) :
    ∃ text, c.Takes text d ∧ (inside doubleQuote).after? text = some outside ∧
      ∀ {start chunk c : Cursor} {rest : Bytes}, chunk.Takes raw c → c.rest = text ++ rest →
        stringBody start out chunk c = .ok (w, c.advance text.length) := by
  fun_induction stringBody start out chunk c generalizing raw with
  | case1 => cases h
  | case2 out chunk c b rest hrest hb =>
    obtain rfl : b = doubleQuote := beq_iff_eq.mp hb
    cases h
    refine ⟨[doubleQuote], Cursor.takes_advance hrest, by decide, ?_⟩
    intro start chunk' c' rest' hraw' hrest'
    rw [hraw.sliceTo]
    exact stringBody_close hrest' hraw'
  | case3 => cases h
  | case4 out chunk c b rest hrest _ hb v d' hescape ih =>
    obtain rfl : b = backslash := beq_iff_eq.mp hb
    obtain ⟨esc, more, hmore, hesc, rfl⟩ := exists_escape hrest hescape
    obtain ⟨text, htakes, hsearch, hread⟩ := ih h (.refl _)
    -- the string goes on behind the escape, so what follows the string is not next to its digits
    have hne : text ≠ [] := by
      rintro rfl
      cases hsearch
    obtain ⟨x, tail, rfl⟩ := List.exists_cons_of_ne_nil hne
    have hhead : more.head? = some x := by
      rw [← Cursor.rest_advance hmore, htakes.1]
      rfl
    refine ⟨esc ++ x :: tail, (Cursor.takes_advance hmore).trans htakes, ?_, ?_⟩
    · rw [after?_append (hesc.after?_inside (.inl rfl)), hsearch]
    · intro start chunk' c' rest' hraw' hrest'
      rw [List.append_assoc] at hrest'
      have hesc' : Escape (x :: tail ++ rest') esc v := hesc.before fun y hy => hhead.trans hy
      obtain ⟨etail, rfl⟩ := hesc.exists_eq_cons
      rw [stringBody_escape hrest' hraw' (hesc'.read hrest'), ← hraw.sliceTo,
        hread (.refl _) (Cursor.rest_advance hrest'), Cursor.advance_append]
  | case5 out chunk c b rest hrest hquote hbackslash ih =>
    have hbyte : c.Takes [b] (c.advance 1) := Cursor.takes_advance hrest
    have hquote : b ≠ doubleQuote := by simpa using hquote
    have hbackslash : b ≠ backslash := by simpa using hbackslash
    obtain ⟨text, htakes, hsearch, hread⟩ := ih h (hraw.trans hbyte)
    refine ⟨[b] ++ text, hbyte.trans htakes, ?_, ?_⟩
    · have hstays : (inside doubleQuote).after? [b] = some (inside doubleQuote) := by
        rw [after?, next?, if_neg hbackslash, if_neg hquote]
        rfl
      rw [after?_append hstays, hsearch]
    · intro start chunk' c' rest' hraw' hrest'
      rw [List.append_assoc] at hrest'
      have hafter := Cursor.rest_advance hrest'
      rw [stringBody_plain hrest' hquote hbackslash, ← Cursor.advance_append]
      exact hread (hraw'.trans (Cursor.takes_advance hrest')) hafter

/-- What a scanner of literals does where it accepts one: it takes a text that the search enters and
leaves between literals, and it reads that text alike before anything else. -/
def ReadsLiteral {α : Type} (scan : Cursor → Scanned α) (c : Cursor) (v : α) (d : Cursor) : Prop :=
  ∃ text, c.Takes text d ∧ outside.after? text = some outside ∧
    ∀ {e : Cursor} {rest : Bytes}, e.rest = text ++ rest → scan e = .ok (v, e.advance text.length)

/-- A string literal is read alike before anything else. -/
theorem readsLiteral_quotedString {w : Bytes} (h : quotedString c = .ok (w, d)) :
    ReadsLiteral quotedString c w d := by
  unfold quotedString at h
  dsimp only at h
  split at h
  · cases h
  · rename_i e hopen
    have hblanks : c.Takes (c.rest.takeWhile Cursor.isBlank) c.skipBlanks :=
      Cursor.takes_advance (List.takeWhile_append_dropWhile).symm
    have hgap : ∀ b ∈ c.rest.takeWhile Cursor.isBlank, Cursor.isBlank b = true :=
      fun b hb => List.mem_takeWhile_imp hb
    generalize c.rest.takeWhile Cursor.isBlank = gap at hblanks hgap
    obtain ⟨text, htakes, hsearch, hread⟩ := exists_text_of_stringBody h (.refl e)
    have hquote := Cursor.takes_of_eat? hopen
    refine ⟨gap ++ [doubleQuote] ++ text, (hblanks.trans hquote).trans htakes, ?_, ?_⟩
    · have hpass : outside.after? gap = some outside := by
        refine after?_of_forall fun b hb => ?_
        have hblank := hgap b hb
        simp only [Cursor.isBlank, Bool.or_eq_true, beq_iff_eq] at hblank
        rcases hblank with (((rfl | rfl) | rfl) | rfl) | rfl <;> rfl
      have henter : outside.after? [doubleQuote] = some (inside doubleQuote) := by decide
      rw [List.append_assoc, after?_append hpass, after?_append henter, hsearch]
    · intro f rest hrest
      simp only [List.append_assoc] at hrest
      have hskip : f.skipBlanks = f.advance gap.length := by
        refine Cursor.skipBlanks_eq hrest hgap fun b hb => ?_
        obtain rfl := Option.some.inj hb
        rfl
      have hquoted := Cursor.rest_advance hrest
      have hbody : ((f.advance gap.length).advance 1).rest = text ++ rest :=
        Cursor.rest_advance hquoted
      have hend : f.advance (gap ++ [doubleQuote] ++ text).length
          = ((f.advance gap.length).advance 1).advance text.length := by
        rw [← Cursor.advance_append, ← Cursor.advance_append]
        rfl
      unfold quotedString
      rw [hskip]
      dsimp only
      rw [Cursor.eat?_of_cons hquoted, hend]
      exact hread (.refl _) hbody

/-- A character literal is read alike before anything else. -/
theorem readsLiteral_numeric {n : UInt64} (hquote : c.peek? = some singleQuote)
    (h : numeric c = .ok (n, d)) : ReadsLiteral numeric c n d := by
  have hnumeric {e : Cursor} (he : e.peek? = some singleQuote) : numeric e = character e :=
    if_pos he
  rw [hnumeric hquote] at h
  obtain ⟨tail, htail⟩ := List.head?_eq_some_iff.mp hquote
  obtain ⟨text, v, htext, rfl, htakes⟩ := exists_character htail h
  refine ⟨text, htakes, htext.after?_outside, fun {e rest} hrest => ?_⟩
  have he : e.peek? = some singleQuote := by
    rw [Cursor.peek?, hrest]
    cases htext <;> rfl
  rw [hnumeric he]
  exact htext.read hrest

end Statement

/-! ## Lines -/

namespace SourceFile

variable (f : SourceFile) {p q r : Nat}

/-- Two parts of a text that follow one another make one part. -/
theorem slice_append_slice (hpq : p ≤ q) (hqr : q ≤ r) :
    f.slice p q ++ f.slice q r = f.slice p r := by
  have hsum : r - p = (q - p) + (r - q) := by omega
  have hdrop : f.content.drop q = (f.content.drop p).drop (q - p) := by
    rw [List.drop_drop, Nat.add_sub_cancel' hpq]
  rw [slice, slice, slice, hsum, List.take_add, hdrop]

/-- A part of a text has the length of its range. -/
theorem length_slice (hq : q ≤ f.content.length) : (f.slice p q).length = q - p := by
  rw [slice, List.length_take, List.length_drop]
  omega

/-- The cursor of a range stands at its start. -/
theorem ofRange_eq (hpq : p ≤ q) (hq : q ≤ f.content.length) :
    Cursor.ofRange f.id f.content p q = ⟨f.id, p, f.slice p q⟩ := by
  unfold Cursor.ofRange
  dsimp only
  rw [Nat.min_eq_left hq, Nat.min_eq_left hpq]
  rfl

/-- Where the search that begins at `start` stands at another offset, unless it ended before. -/
def quotingAt? (f : SourceFile) (start p : Nat) : Option Statement.Quoting :=
  Statement.Quoting.outside.after? (f.slice start p)

end SourceFile

namespace Statement

open Quoting

variable {f : SourceFile} {start stop p : Nat}

/-- The end of a statement is where the search comes to a comment. -/
theorem statementEnd_eq (h : start ≤ stop) :
    statementEnd f.content start stop = start + outside.uncommented (f.slice start stop) := by
  unfold statementEnd
  split
  · obtain rfl : start = stop := by omega
    rw [SourceFile.slice, Nat.sub_self]
    rfl
  · rfl

/-- The search passes the offsets up to the end of the statement. -/
theorem exists_quotingAt?_iff (hstart : start ≤ p) (hp : p ≤ stop)
    (hstop : stop ≤ f.content.length) :
    (∃ s, f.quotingAt? start p = some s) ↔ p ≤ statementEnd f.content start stop := by
  have hlength : (f.slice start p).length = p - start := f.length_slice (by omega)
  have hpass := length_le_uncommented_iff outside (f.slice start p) (f.slice p stop)
  rw [f.slice_append_slice hstart hp, hlength] at hpass
  rw [statementEnd_eq (hstart.trans hp), SourceFile.quotingAt?, ← hpass]
  omega

/-- **Literals are not cut.** What is accepted on the line is accepted on its statement. -/
theorem ReadsLiteral.cut {α : Type} {scan : Cursor → Scanned α} {v : α} {d : Cursor}
    (h : ReadsLiteral scan (.ofRange f.id f.content p stop) v d)
    (hstart : start ≤ p) (hp : p ≤ stop) (hstop : stop ≤ f.content.length)
    (hat : f.quotingAt? start p = some outside) :
    d.off ≤ statementEnd f.content start stop ∧ f.quotingAt? start d.off = some outside ∧
      ∃ e, scan (.ofRange f.id f.content p (statementEnd f.content start stop)) = .ok (v, e) ∧
        e.off = d.off := by
  obtain ⟨text, ⟨hrest, hd⟩, hsearch, hread⟩ := h
  rw [f.ofRange_eq hp hstop] at hrest hd
  have hoff : d.off = p + text.length := by
    rw [hd]
    rfl
  -- the text is the slice between the two offsets
  have hlength : stop - p = text.length + d.rest.length := by
    rw [← f.length_slice hstop, ← List.length_append]
    exact congrArg List.length hrest
  have hend : d.off ≤ stop := by omega
  have htext : f.slice p d.off = text := by
    refine List.append_inj_left ((f.slice_append_slice (by omega) hend).trans hrest) ?_
    rw [f.length_slice (by omega)]
    omega
  have hafter : f.quotingAt? start d.off = some outside := by
    rw [SourceFile.quotingAt?, ← f.slice_append_slice hstart (by omega : p ≤ d.off),
      after?_append hat, htext, hsearch]
  have hcut : d.off ≤ statementEnd f.content start stop :=
    (exists_quotingAt?_iff (by omega) hend hstop).mp ⟨_, hafter⟩
  have hstatement : (Cursor.ofRange f.id f.content p (statementEnd f.content start stop)).rest
      = text ++ f.slice d.off (statementEnd f.content start stop) := by
    have hbound := statementEnd_le f.content start stop
    rw [f.ofRange_eq (by omega) (by omega), ← htext, f.slice_append_slice (by omega) hcut]
  refine ⟨hcut, hafter, _, hread hstatement, ?_⟩
  rw [f.ofRange_eq (by omega) ((statementEnd_le _ _ _).trans hstop), hoff]
  rfl

/-- **Comments and literals agree.** The search for the comment of a line passes the offsets up to
the end of the statement. Where it stands between literals, every string and every character that is
accepted on the line ends before the comment, with the search between literals again, and is read
alike on the statement. And there, but nowhere in a literal, `#` and `;` end the statement. -/
theorem comments_respect_literals (f : SourceFile) {start stop : Nat} (hstart : start ≤ stop)
    (hstop : stop ≤ f.content.length) :
    let cut := statementEnd f.content start stop
    (∀ p, start ≤ p → p ≤ stop → ((∃ s, f.quotingAt? start p = some s) ↔ p ≤ cut)) ∧
    (∀ p, start ≤ p → p ≤ stop → f.quotingAt? start p = some .outside →
      (∀ w d, quotedString (.ofRange f.id f.content p stop) = .ok (w, d) →
        d.off ≤ cut ∧ f.quotingAt? start d.off = some .outside ∧
          ∃ e, quotedString (.ofRange f.id f.content p cut) = .ok (w, e) ∧ e.off = d.off) ∧
      (∀ n d, (Cursor.ofRange f.id f.content p stop).peek? = some singleQuote →
        numeric (.ofRange f.id f.content p stop) = .ok (n, d) →
        d.off ≤ cut ∧ f.quotingAt? start d.off = some .outside ∧
          ∃ e, numeric (.ofRange f.id f.content p cut) = .ok (n, e) ∧ e.off = d.off)) ∧
    (∀ c b t, f.slice start stop = c ++ b :: t → b = 0x23 ∨ b = 0x3b →
      (cut = start + c.length ↔ Quoting.outside.after? c = some .outside)) := by
  intro cut
  refine ⟨fun p hp hpstop => exists_quotingAt?_iff hp hpstop hstop, ?_, ?_⟩
  · intro p hp hpstop hat
    constructor
    · intro w d h
      exact (readsLiteral_quotedString h).cut hp hpstop hstop hat
    · intro n d hquote h
      exact (readsLiteral_numeric hquote h).cut hp hpstop hstop hat
  · intro c b t hline hb
    rw [← uncommented_eq_length_iff hb outside c t, ← hline]
    show statementEnd f.content start stop = start + c.length ↔ _
    rw [statementEnd_eq hstart]
    omega

/-- A line with `#` and `;` in its literals and a quote in its comment, cut before the comment. -/
theorem literals_hide_comment_marks :
    let f : SourceFile := ⟨0, [], .ofString "\"#\\\";\" ';' # \"", [], {}⟩
    statementEnd f.content 0 14 = 11 ∧
    (quotedString (.ofRange f.id f.content 0 14)
        = .ok (.ofString "#\";", ⟨0, 6, .ofString " ';' # \""⟩) ∧
      ∃ e, quotedString (.ofRange f.id f.content 0 11) = .ok (.ofString "#\";", e) ∧ e.off = 6) ∧
    (numeric (.ofRange f.id f.content 7 14) = .ok (0x3b, ⟨0, 10, .ofString " # \""⟩) ∧
      ∃ e, numeric (.ofRange f.id f.content 7 11) = .ok (0x3b, e) ∧ e.off = 10) := by
  intro f
  have hcut : statementEnd f.content 0 14 = 11 := by decide
  have hstring : quotedString (.ofRange f.id f.content 0 14)
      = .ok (.ofString "#\";", ⟨0, 6, .ofString " ';' # \""⟩) := by decide +kernel
  have hcharacter : numeric (.ofRange f.id f.content 7 14)
      = .ok (0x3b, ⟨0, 10, .ofString " # \""⟩) := by decide
  have hkept := (@comments_respect_literals f 0 14 (by decide) (by decide)).2.1
  rw [hcut] at hkept
  refine ⟨hcut, ⟨hstring, ?_⟩, ⟨hcharacter, ?_⟩⟩
  · exact ((hkept 0 (by decide) (by decide) (by decide)).1 _ _ hstring).2.2
  · exact ((hkept 7 (by decide) (by decide) (by decide)).2 _ _ (by decide) hcharacter).2.2

/-! ## An index of 32 bits

The end of a statement can be looked for with an index of 32 bits, which skips two bytes at a
backslash in a literal. It is found all the same (`finds_statementEnd`). Only at the end of a text
of `2 ^ 32 - 1` bytes, at a backslash in a literal that is still open, does the index wrap, and the
search starts over at the first byte of the text (`leads_zero_of_escaped`).
-/

/-- A search with an index of 32 bits, and the quote of the literal that it is in. -/
structure IndexSearch where
  index : UInt32
  quote : Option UInt8

namespace IndexSearch

/-- One round of the search: the search after it, or the offset that was found. -/
def round (content : Bytes) (stop : UInt32) (s : IndexSearch) : IndexSearch ⊕ UInt32 :=
  if stop ≤ s.index then .inr stop
  else
    let b := content.getD s.index.toNat 0
    match s.quote with
    | some quote =>
      if b = backslash then .inl ⟨s.index + 2, some quote⟩
      else if b = quote then .inl ⟨s.index + 1, none⟩
      else .inl ⟨s.index + 1, some quote⟩
    | none =>
      if b = doubleQuote ∨ b = singleQuote then .inl ⟨s.index + 1, some b⟩
      else if b = 0x23 ∨ b = 0x3b then .inr s.index
      else .inl ⟨s.index + 1, none⟩

/-- Rounds lead from one search to another. -/
def Leads (content : Bytes) (stop : UInt32) : IndexSearch → IndexSearch → Prop :=
  Relation.ReflTransGen fun s t => s.round content stop = .inl t

/-- Rounds lead to an offset. -/
def Finds (content : Bytes) (stop : UInt32) (s : IndexSearch) (found : UInt32) : Prop :=
  ∃ t, Leads content stop s t ∧ t.round content stop = .inr found

/-- The search when `i` bytes have been looked at. Behind a backslash the index is one byte
ahead. -/
def ofQuoting (i : Nat) : Quoting → IndexSearch
  | .outside => ⟨UInt32.ofNat i, none⟩
  | .inside quote => ⟨UInt32.ofNat i, some quote⟩
  | .escaped quote => ⟨UInt32.ofNat (i + 1), some quote⟩

variable {content : Bytes} {stop found : UInt32} {quote : Option UInt8} {i : Nat} {b : UInt8}
  {s t : Quoting}

/-- What a round does at a byte of the text. -/
theorem round_of_lt (hi : i < stop.toNat) (hb : content[i]? = some b) :
    round content stop ⟨UInt32.ofNat i, quote⟩ =
      match quote with
      | some quote =>
        if b = backslash then .inl ⟨UInt32.ofNat (i + 2), some quote⟩
        else if b = quote then .inl ⟨UInt32.ofNat (i + 1), none⟩
        else .inl ⟨UInt32.ofNat (i + 1), some quote⟩
      | none =>
        if b = doubleQuote ∨ b = singleQuote then .inl ⟨UInt32.ofNat (i + 1), some b⟩
        else if b = 0x23 ∨ b = 0x3b then .inr (UInt32.ofNat i)
        else .inl ⟨UInt32.ofNat (i + 1), none⟩ := by
  have hindex : (UInt32.ofNat i).toNat = i := UInt32.toNat_ofNat_of_lt' (hi.trans stop.toNat_lt)
  have hlt : ¬stop ≤ UInt32.ofNat i := by
    rw [UInt32.le_iff_toNat_le, hindex]
    omega
  have hbyte : content.getD i 0 = b := by
    rw [List.getD_eq_getElem?_getD, hb]
    rfl
  rw [round, if_neg hlt]
  dsimp only
  rw [hindex, hbyte, UInt32.ofNat_add i 1, UInt32.ofNat_add i 2]
  rfl

/-- Past the end, a round finds the end. -/
theorem round_of_le (hi : stop.toNat ≤ i) (hsize : i < UInt32.size) :
    round content stop ⟨UInt32.ofNat i, quote⟩ = .inr stop := by
  refine if_pos ?_
  rw [UInt32.le_iff_toNat_le, UInt32.toNat_ofNat_of_lt' hsize]
  exact hi

/-- **One byte** of the search is one round, or none behind a backslash. -/
theorem leads_next (hi : i < stop.toNat) (hb : content[i]? = some b) (h : s.next? b = some t) :
    Leads content stop (ofQuoting i s) (ofQuoting (i + 1) t) := by
  cases s with
  | outside =>
    refine .single ?_
    show round content stop ⟨_, none⟩ = _
    rw [round_of_lt hi hb]
    rw [next?] at h
    dsimp only
    split_ifs at h ⊢
    all_goals
      cases h
      rfl
  | inside quote =>
    refine .single ?_
    show round content stop ⟨_, some quote⟩ = _
    rw [round_of_lt hi hb]
    rw [next?] at h
    dsimp only
    split_ifs at h ⊢
    all_goals
      cases h
      rfl
  | escaped quote =>
    -- the round at the backslash went past this byte already
    cases h
    exact .refl

/-- **A text without a comment** is passed byte by byte. -/
theorem leads_after {text : Bytes} (hi : i + text.length ≤ stop.toNat)
    (htext : text <+: content.drop i) (h : s.after? text = some t) :
    Leads content stop (ofQuoting i s) (ofQuoting (i + text.length) t) := by
  induction text generalizing i s with
  | nil =>
    cases h
    exact .refl
  | cons b text ih =>
    -- one round for the first byte, and the rest of the text from the next index on
    obtain ⟨r, hr, h⟩ := Option.bind_eq_some_iff.mp h
    obtain ⟨more, hmore⟩ := htext
    have hb : content[i]? = some b := by
      rw [← Nat.add_zero i, ← List.getElem?_drop, ← hmore]
      rfl
    have hdrop : text <+: content.drop (i + 1) := by
      rw [← List.drop_drop, ← hmore]
      exact List.prefix_append text more
    rw [List.length_cons] at hi ⊢
    have hrest := ih (i := i + 1) (by omega) hdrop h
    rw [show i + (text.length + 1) = i + 1 + text.length by omega]
    exact (leads_next (by omega) hb hr).trans hrest

theorem ofQuoting_toNat (start : UInt32) : ofQuoting start.toNat outside = ⟨start, none⟩ := by
  rw [ofQuoting, UInt32.ofNat_toNat]

end IndexSearch

section

open IndexSearch

variable {f : SourceFile} {start stop : UInt32}

/-- The search with an index comes to the end of a line that has no comment. -/
theorem leads_stop (hstart : start ≤ stop) (hstop : stop.toNat ≤ f.content.length) {s : Quoting}
    (h : f.quotingAt? start.toNat stop.toNat = some s) :
    Leads f.content stop ⟨start, none⟩ (ofQuoting stop.toNat s) := by
  have hle : start.toNat ≤ stop.toNat := hstart
  have hlength : start.toNat + (f.slice start.toNat stop.toNat).length = stop.toNat := by
    rw [f.length_slice hstop]
    omega
  have hlead := leads_after hlength.le (List.take_prefix _ _) h
  rw [hlength, ofQuoting_toNat] at hlead
  exact hlead

/-- **An index of 32 bits finds the end of a statement**, unless the line ends behind a backslash in
a literal where the index has no value left. -/
theorem finds_statementEnd (hstart : start ≤ stop) (hstop : stop.toNat ≤ f.content.length)
    (hroom : stop.toNat + 1 < UInt32.size ∨
      ∀ quote, f.quotingAt? start.toNat stop.toNat ≠ some (.escaped quote)) :
    Finds f.content stop ⟨start, none⟩
      (UInt32.ofNat (statementEnd f.content start.toNat stop.toNat)) := by
  have hle : start.toNat ≤ stop.toNat := hstart
  have hsize := stop.toNat_lt
  rw [statementEnd_eq hle]
  cases h : f.quotingAt? start.toNat stop.toNat with
  | none =>
    -- the index stands at the byte that begins the comment
    obtain ⟨c, b, t, hline, hc, hb, hlength⟩ := exists_comment h
    have hprefix : c ++ b :: t <+: f.content.drop start.toNat := hline ▸ List.take_prefix _ _
    have hlt : start.toNat + (c ++ b :: t).length = stop.toNat := by
      rw [← hline, f.length_slice hstop]
      omega
    rw [List.length_append, List.length_cons] at hlt
    have hbyte : f.content[start.toNat + c.length]? = some b := by
      obtain ⟨more, hmore⟩ := hprefix
      rw [← List.getElem?_drop, ← hmore]
      simp
    have hlead : Leads f.content stop _ (ofQuoting (start.toNat + c.length) outside) :=
      leads_after (by omega) ((List.prefix_append c _).trans hprefix) hc
    rw [ofQuoting_toNat] at hlead
    rw [hlength]
    refine ⟨_, hlead, ?_⟩
    show round f.content stop ⟨_, none⟩ = _
    rw [round_of_lt (by omega) hbyte]
    rw [next?] at hb
    dsimp only
    split_ifs at hb ⊢
    rfl
  | some s =>
    -- without a comment the whole line is passed, and the last round finds its end
    have hpassed := uncommented_append h []
    rw [List.append_nil, f.length_slice hstop, uncommented_nil, Nat.add_zero] at hpassed
    rw [hpassed, Nat.add_sub_cancel' hle, UInt32.ofNat_toNat]
    refine ⟨_, leads_stop hstart hstop h, ?_⟩
    cases s with
    | outside => exact round_of_le (Nat.le_refl _) hsize
    | inside quote => exact round_of_le (Nat.le_refl _) hsize
    | escaped quote =>
      -- here the index is one past the end
      refine round_of_le (Nat.le_succ _) ?_
      rcases hroom with hroom | hroom
      · exact hroom
      · exact absurd h (hroom quote)

/-- At the end of a text of `2 ^ 32 - 1` bytes, the index passes from a backslash in a literal to
the first byte of the text. -/
theorem leads_zero_of_escaped (hstart : start ≤ stop) (hstop : stop.toNat ≤ f.content.length)
    (hroom : stop.toNat + 1 = UInt32.size) {quote : UInt8}
    (h : f.quotingAt? start.toNat stop.toNat = some (.escaped quote)) :
    Leads f.content stop ⟨start, none⟩ ⟨0, some quote⟩ := by
  have hlead := leads_stop hstart hstop h
  rw [ofQuoting, hroom] at hlead
  exact hlead

end

end Statement

end CatalystAsm
