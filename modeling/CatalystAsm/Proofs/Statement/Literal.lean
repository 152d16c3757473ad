import CatalystAsm.Assembly.Outcome
import CatalystAsm.Proofs.Statement.Numeral
import Mathlib.Data.List.TakeWhile

/-!
# Strings and how they are written

An escape sequence is a letter, or a row of digits that is as long as it can be and not longer than
its kind allows. What the scanner of escapes gives is stated once, in both directions (`Escape.read`
and `exists_escape`). From it, every byte string that is written byte by byte, each byte in any of
its forms, is read back (`rendered_string_reads_back`).
-/

namespace CatalystAsm

/-! ## Texts between cursors -/

/-- The text between two places of a statement. -/
def Cursor.Takes (c : Cursor) (text : Bytes) (d : Cursor) : Prop :=
  c.rest = text ++ d.rest ∧ d = c.advance text.length

namespace Cursor

variable {c d e : Cursor} {text more rest : Bytes}

theorem Takes.refl (c : Cursor) : c.Takes [] c := ⟨rfl, rfl⟩

/-- A text that stands at the cursor is taken by moving behind it. -/
theorem takes_advance (h : c.rest = text ++ rest) : c.Takes text (c.advance text.length) := by
  refine ⟨?_, rfl⟩
  rw [rest_advance h, h]

/-- Where a text ends that is next. -/
theorem advance_eq (h : c.rest = text ++ rest) :
    c.advance text.length = ⟨c.file, c.off + text.length, rest⟩ := by
  rw [advance, h, List.drop_left]

/-- Two texts one after the other are taken as one. -/
theorem Takes.trans (hcd : c.Takes text d) (hde : d.Takes more e) : c.Takes (text ++ more) e := by
  obtain ⟨hrest, rfl⟩ := hcd
  obtain ⟨hmore, rfl⟩ := hde
  refine ⟨?_, advance_append c text more⟩
  rw [hrest, hmore, List.append_assoc]

/-- The text between two places is the one that was taken. -/
theorem Takes.sliceTo (h : c.Takes text d) : c.sliceTo d = text := by
  obtain ⟨hrest, rfl⟩ := h
  rw [Cursor.sliceTo, hrest]
  simp [advance]

theorem eat?_of_cons {b : UInt8} (h : c.rest = b :: rest) : c.eat? b = some (c.advance 1) := by
  rw [eat?, peek?, h]
  exact if_pos rfl

/-- A byte that is eaten is taken. -/
theorem takes_of_eat? {b : UInt8} (h : c.eat? b = some d) : c.Takes [b] d := by
  unfold eat? at h
  split at h
  · rename_i hpeek
    cases h
    obtain ⟨rest, hrest⟩ := List.head?_eq_some_iff.mp hpeek
    exact takes_advance hrest
  · cases h

end Cursor

namespace Statement

/-! ## Rows of bytes -/

/-- A row of bytes of a class, as long as it can be up to a number of bytes. -/
structure LongestRow (most : Nat) (p : UInt8 → Bool) (text rest : Bytes) : Prop where
  mem : ∀ b ∈ text, p b = true
  length_le : text.length ≤ most
  ends : text.length = most ∨ ∀ b, rest.head? = some b → p b = false

/-- The longest row is what a bounded search takes. -/
theorem takeWhile_take_eq_iff {most : Nat} {p : UInt8 → Bool} {text rest : Bytes} :
    ((text ++ rest).take most).takeWhile p = text ↔ LongestRow most p text rest := by
  constructor
  · intro h
    have hmem : ∀ b ∈ text, p b = true := by
      intro b hb
      rw [← h] at hb
      exact List.mem_takeWhile_imp hb
    have hle : text.length ≤ most := by
      have hlength := (List.takeWhile_sublist p (l := (text ++ rest).take most)).length_le
      rw [h, List.length_take] at hlength
      omega
    refine ⟨hmem, hle, ?_⟩
    by_contra hends
    simp only [not_or, not_forall, Bool.not_eq_false] at hends
    obtain ⟨hmost, b, hb, hbyte⟩ := hends
    -- there is room for one byte more, and it would have been taken
    obtain ⟨more, rfl⟩ := List.head?_eq_some_iff.mp hb
    obtain ⟨n, hn⟩ : ∃ n, most - text.length = n + 1 := ⟨most - text.length - 1, by omega⟩
    rw [List.take_append, List.take_of_length_le hle, hn, List.take_succ_cons,
      List.takeWhile_append_of_pos hmem, List.takeWhile_cons_of_pos hbyte] at h
    simp at h
  · rintro ⟨hmem, hle, hends⟩
    rw [List.take_append, List.take_of_length_le hle]
    refine takeWhile_append hmem fun b hb => ?_
    rw [List.head?_take] at hb
    split at hb
    · cases hb
    · rename_i hroom
      exact (hends.resolve_left (by omega)) b hb

/-- Every text begins with such a row. -/
theorem exists_longestRow (most : Nat) (p : UInt8 → Bool) (l : Bytes) :
    ∃ text rest, l = text ++ rest ∧ (l.take most).takeWhile p = text ∧
      LongestRow most p text rest := by
  have hsplit : (l.take most).takeWhile p ++ l.drop ((l.take most).takeWhile p).length = l :=
    List.prefix_iff_eq_append.mp ((List.takeWhile_prefix p).trans (List.take_prefix most l))
  refine ⟨_, _, hsplit.symm, rfl, takeWhile_take_eq_iff.mp ?_⟩
  rw [hsplit]

/-- A row may begin one byte earlier. -/
theorem LongestRow.cons {most : Nat} {p : UInt8 → Bool} {text rest : Bytes}
    (h : LongestRow most p text rest) {b : UInt8} (hb : p b = true) :
    LongestRow (most + 1) p (b :: text) rest where
  mem := List.forall_mem_cons.mpr ⟨hb, h.mem⟩
  length_le := Nat.succ_le_succ h.length_le
  ends := h.ends.imp_left fun hlength => congrArg (· + 1) hlength

/-- What follows matters by its first byte only, if at all. -/
theorem LongestRow.before {most : Nat} {p : UInt8 → Bool} {text rest more : Bytes}
    (h : LongestRow most p text rest)
    (hmore : ∀ b, more.head? = some b → rest.head? = some b) : LongestRow most p text more where
  mem := h.mem
  length_le := h.length_le
  ends := h.ends.imp_right fun hends b hb => hends b (hmore b hb)

/-! ## Escape sequences -/

/-- The letters that stand for a byte behind a backslash. -/
def escapeLetters : List (UInt8 × UInt8) := [
  (Bytes.char 'a', 0x07), (Bytes.char 'b', 0x08), (Bytes.char 't', 0x09), (Bytes.char 'n', 0x0a),
  (Bytes.char 'v', 0x0b), (Bytes.char 'f', 0x0c), (Bytes.char 'r', 0x0d), (backslash, backslash),
  (doubleQuote, doubleQuote), (singleQuote, singleQuote)]

/-- The texts that stand for a byte behind which `rest` follows. Digits are taken as far as they go:
up to two hexadecimal or three octal ones. -/
inductive Escape (rest : Bytes) : Bytes → UInt8 → Prop
  | letter {b v : UInt8} (h : (b, v) ∈ escapeLetters) : Escape rest [backslash, b] v
  | hexadecimal {digits : Bytes} {v : UInt8} (hsome : digits ≠ [])
    (hrow : LongestRow 2 isHexDigit digits rest) (h : Spells 16 digits v.toNat) :
    Escape rest (backslash :: 0x78 :: digits) v
  | octal {digits : Bytes} {v : UInt8} (hsome : digits ≠ [])
    (hrow : LongestRow 3 isOctalDigit digits rest) (h : Spells 8 digits v.toNat) :
    Escape rest (backslash :: digits) v

/-- A letter stands for a byte behind a backslash if it is in the table. -/
theorem namedEscape?_eq_some_iff {b v : UInt8} :
    namedEscape? b = some v ↔ (b, v) ∈ escapeLetters := by
  constructor
  · intro h
    unfold namedEscape? at h
    simp only [Bool.or_eq_true, beq_iff_eq] at h
    split_ifs at h with ha hb ht hn hv hf hr hself
    all_goals obtain rfl := Option.some.inj h
    all_goals first | subst b | rcases hself with (rfl | rfl) | rfl
    all_goals decide
  · have hletters : (escapeLetters.all fun e => namedEscape? e.1 == some e.2) = true := by decide
    intro h
    exact beq_iff_eq.mp (List.all_eq_true.mp hletters _ h)

theorem isOctalDigit_iff {b : UInt8} :
    isOctalDigit b = true ↔ isHexDigit b = true ∧ digitValue b < 8 :=
  forall_byte (P := fun b => isOctalDigit b = true ↔ isHexDigit b = true ∧ digitValue b < 8)
    (by decide +kernel) b

/-- No letter of an escape is an octal digit. -/
theorem namedEscape?_of_isOctalDigit {b : UInt8} (h : isOctalDigit b = true) :
    namedEscape? b = none ∧ (b == 0x78) = false := by
  have hletters : (escapeLetters.all fun e => !isOctalDigit e.1) = true := by decide
  refine ⟨?_, beq_eq_false_of_class h (by decide)⟩
  cases hb : namedEscape? b with
  | none => rfl
  | some v =>
    have hdigit := List.all_eq_true.mp hletters _ (namedEscape?_eq_some_iff.mp hb)
    rw [h] at hdigit
    cases hdigit

/-- A hexadecimal digit is below sixteen. -/
theorem digitValue_lt_of_isHexDigit {b : UInt8} (h : isHexDigit b = true) : digitValue b < 16 := by
  rcases isDigitOf_digitValue h with h | h
  · exact (List.getElem?_eq_some_iff.mp h).1
  · exact (List.getElem?_eq_some_iff.mp h).1

/-- Two hexadecimal digits make a byte. -/
theorem LongestRow.digitsValue_lt {digits rest : Bytes}
    (h : LongestRow 2 isHexDigit digits rest) : digitsValue 16 digits < 256 := by
  obtain ⟨hmem, hlength, -⟩ := h
  rcases digits with _ | ⟨x, _ | ⟨y, _ | ⟨z, digits⟩⟩⟩
  · exact Nat.zero_lt_succ _
  · have hx := digitValue_lt_of_isHexDigit (hmem x (by simp))
    simp only [digitsValue, List.foldl_cons, List.foldl_nil]
    omega
  · have hx := digitValue_lt_of_isHexDigit (hmem x (by simp))
    have hy := digitValue_lt_of_isHexDigit (hmem y (by simp))
    simp only [digitsValue, List.foldl_cons, List.foldl_nil]
    omega
  · exact absurd hlength (by simp)

variable {b v : UInt8} {c d : Cursor} {text digits rest tail : Bytes}

/-- A letter of the table is read as its byte. -/
theorem escape_letter (hrest : c.rest = backslash :: b :: tail) (h : (b, v) ∈ escapeLetters) :
    escape c = .ok (v, c.advance 2) := by
  unfold escape
  rw [hrest]
  dsimp only
  rw [namedEscape?_eq_some_iff.mpr h]

/-- Up to two hexadecimal digits are read as a byte. -/
theorem escape_hexadecimal (hrest : c.rest = backslash :: 0x78 :: (digits ++ rest))
    (hsome : digits ≠ []) (hrow : LongestRow 2 isHexDigit digits rest) :
    escape c = .ok (UInt8.ofNat (digitsValue 16 digits), c.advance (2 + digits.length)) := by
  have hletter : namedEscape? 0x78 = none := by decide
  unfold escape
  rw [hrest]
  dsimp only
  rw [hletter, takeWhile_take_eq_iff.mpr hrow]
  dsimp only
  rw [if_pos (by decide), if_neg (by simpa using hsome)]

/-- Up to three octal digits are read as a byte, if their value has eight bits. -/
theorem escape_octal (hrest : c.rest = backslash :: (digits ++ rest)) (hsome : digits ≠ [])
    (hrow : LongestRow 3 isOctalDigit digits rest) (hlt : digitsValue 8 digits < 256) :
    escape c = .ok (UInt8.ofNat (digitsValue 8 digits), c.advance (1 + digits.length)) := by
  obtain ⟨b, digits, rfl⟩ := List.exists_cons_of_ne_nil hsome
  have hb : isOctalDigit b = true := hrow.mem b List.mem_cons_self
  obtain ⟨hletter, hx⟩ := namedEscape?_of_isOctalDigit hb
  have hdigits := takeWhile_take_eq_iff.mpr hrow
  rw [List.cons_append, List.take_succ_cons, List.takeWhile_cons_of_pos hb] at hdigits
  unfold escape
  rw [hrest, List.cons_append]
  dsimp only
  rw [hletter, hx, hdigits]
  dsimp only
  rw [if_neg Bool.false_ne_true, if_pos hb, if_neg (by omega)]

/-- **An escape is read up to where its kind ends.** -/
theorem Escape.read (h : Escape rest text v) (hrest : c.rest = text ++ rest) :
    escape c = .ok (v, c.advance text.length) := by
  cases h with
  | letter h => exact escape_letter hrest h
  | @hexadecimal digits v hsome hrow h =>
    have hvalue : UInt8.ofNat (digitsValue 16 digits) = v := by
      rw [h.digitsValue_eq, UInt8.ofNat_toNat]
    rw [escape_hexadecimal hrest hsome hrow, hvalue, List.length_cons, List.length_cons,
      Nat.add_comm]
  | @octal digits v hsome hrow h =>
    have hvalue : UInt8.ofNat (digitsValue 8 digits) = v := by
      rw [h.digitsValue_eq, UInt8.ofNat_toNat]
    have hlt : digitsValue 8 digits < 256 := by
      rw [h.digitsValue_eq]
      exact v.toNat_lt
    rw [escape_octal hrest hsome hrow hlt, hvalue, List.length_cons, Nat.add_comm]

/-- Hexadecimal digits are an escape for the number they spell. -/
theorem LongestRow.escape_hexadecimal (hrow : LongestRow 2 isHexDigit digits rest)
    (hsome : digits ≠ []) :
    Escape rest (backslash :: 0x78 :: digits) (UInt8.ofNat (digitsValue 16 digits)) := by
  have hvalue : (UInt8.ofNat (digitsValue 16 digits)).toNat = digitsValue 16 digits :=
    UInt8.toNat_ofNat_of_lt' hrow.digitsValue_lt
  refine .hexadecimal hsome hrow (spells_iff.mpr ⟨?_, hvalue.symm⟩)
  intro x hx
  exact ⟨hrow.mem x hx, digitValue_lt_of_isHexDigit (hrow.mem x hx)⟩

/-- Octal digits are an escape for the number they spell, as long as it is a byte. -/
theorem LongestRow.escape_octal (hrow : LongestRow 3 isOctalDigit digits rest) (hsome : digits ≠ [])
    (hlt : digitsValue 8 digits < 256) :
    Escape rest (backslash :: digits) (UInt8.ofNat (digitsValue 8 digits)) := by
  have hvalue : (UInt8.ofNat (digitsValue 8 digits)).toNat = digitsValue 8 digits :=
    UInt8.toNat_ofNat_of_lt' hlt
  refine .octal hsome hrow (spells_iff.mpr ⟨?_, hvalue.symm⟩)
  intro x hx
  exact isOctalDigit_iff.mp (hrow.mem x hx)

/-- **What is read as an escape is one**, and what follows it does not go on with its digits. -/
theorem exists_escape (hc : c.rest = backslash :: tail) (h : escape c = .ok (v, d)) :
    ∃ text rest, c.rest = text ++ rest ∧ Escape rest text v ∧ d = c.advance text.length := by
  unfold escape at h
  rw [hc] at h
  cases tail with
  | nil => cases h
  | cons b tail =>
    dsimp only at h
    split at h
    · rename_i letter hletter
      cases h
      exact ⟨[backslash, b], tail, hc, .letter (namedEscape?_eq_some_iff.mp hletter), rfl⟩
    · split at h
      · rename_i hx
        obtain rfl : b = 0x78 := beq_iff_eq.mp hx
        obtain ⟨digits, rest, rfl, htake, hrow⟩ := exists_longestRow 2 isHexDigit tail
        rw [htake] at h
        split at h
        · cases h
        · rename_i hsome
          cases h
          refine ⟨_, rest, hc, hrow.escape_hexadecimal (by simpa using hsome), ?_⟩
          rw [List.length_cons, List.length_cons, Nat.add_comm]
      · split at h
        · rename_i hb
          obtain ⟨digits, rest, rfl, htake, hrow⟩ := exists_longestRow 2 isOctalDigit tail
          rw [htake] at h
          split at h
          · cases h
          · rename_i hlt
            cases h
            have hbyte : digitsValue 8 (b :: digits) < 256 := Nat.lt_succ_of_le (Nat.not_lt.mp hlt)
            refine ⟨_, rest, hc, (hrow.cons hb).escape_octal (List.cons_ne_nil b digits) hbyte, ?_⟩
            rw [Nat.add_comm]
            rfl
        · cases h

/-- An escape is the same before any text that begins alike. -/
theorem Escape.before {more : Bytes} (h : Escape rest text v)
    (hmore : ∀ b, more.head? = some b → rest.head? = some b) : Escape more text v := by
  cases h with
  | letter h => exact .letter h
  | hexadecimal hsome hrow h => exact .hexadecimal hsome (hrow.before hmore) h
  | octal hsome hrow h => exact .octal hsome (hrow.before hmore) h

theorem Escape.exists_eq_cons (h : Escape rest text v) : ∃ tail, text = backslash :: tail := by
  cases h <;> exact ⟨_, rfl⟩

/-! ## Characters -/

/-- The texts of character literals: between single quotes, a byte or an escape. -/
inductive Character : Bytes → UInt8 → Prop
  | plain {b : UInt8} (hquote : b ≠ singleQuote) (hbackslash : b ≠ backslash) :
    Character ([singleQuote] ++ [b] ++ [singleQuote]) b
  | escape {text : Bytes} {v : UInt8} (h : Escape [singleQuote] text v) :
    Character ([singleQuote] ++ text ++ [singleQuote]) v

/-- **A character literal is read**, whatever follows it. -/
theorem Character.read (h : Character text v) (hrest : c.rest = text ++ rest) :
    character c = .ok (v.toUInt64, c.advance text.length) := by
  unfold character
  dsimp only
  cases h with
  | plain hquote hbackslash =>
    have hopen : c.rest = [singleQuote] ++ ([v] ++ singleQuote :: rest) := hrest
    have hbody : (c.advance 1).rest = [v] ++ singleQuote :: rest := Cursor.rest_advance hopen
    have hclose : ((c.advance 1).advance 1).eat? singleQuote
        = some (((c.advance 1).advance 1).advance 1) :=
      Cursor.eat?_of_cons (Cursor.rest_advance hbody)
    rw [hclose, hbody, List.singleton_append, Cursor.advance_advance, Cursor.advance_advance]
    dsimp only
    rw [if_neg (by simpa using hquote), if_neg (by simpa using hbackslash)]
    rfl
  | @escape text v h =>
    have hopen : c.rest = [singleQuote] ++ (text ++ singleQuote :: rest) := hrest.trans (by simp)
    have hbody : (c.advance 1).rest = text ++ singleQuote :: rest := Cursor.rest_advance hopen
    have hescape : Escape (singleQuote :: rest) text v := h.before fun b hb => hb
    have hread := hescape.read hbody
    obtain ⟨tail, htail⟩ := h.exists_eq_cons
    have hend : c.advance ([singleQuote] ++ text ++ [singleQuote]).length
        = ((c.advance 1).advance text.length).advance 1 := by
      rw [← Cursor.advance_append, ← Cursor.advance_append]
      rfl
    rw [hread, hbody, htail, List.cons_append, ← htail]
    dsimp only
    rw [if_neg (by decide), if_pos (beq_self_eq_true _),
      Cursor.eat?_of_cons (Cursor.rest_advance hbody), hend]

/-- **What is read as a character literal is one.** -/
theorem exists_character {n : UInt64} (hc : c.rest = singleQuote :: tail)
    (h : character c = .ok (n, d)) :
    ∃ text v, Character text v ∧ n = v.toUInt64 ∧ c.Takes text d := by
  have hopen : c.Takes [singleQuote] (c.advance 1) := Cursor.takes_advance hc
  unfold character at h
  dsimp only at h
  split at h
  · cases h
  · rename_i b rest hbody
    split at h
    · cases h
    · rename_i hquote
      split at h
      · rename_i hbackslash
        obtain rfl : b = backslash := beq_iff_eq.mp hbackslash
        split at h
        · cases h
        · rename_i v e hescape
          split at h
          · rename_i f hclose
            cases h
            obtain ⟨text, more, hmore, htext, rfl⟩ := exists_escape hbody hescape
            have hclosed := Cursor.takes_of_eat? hclose
            have hrest := hclosed.1
            rw [Cursor.rest_advance hmore] at hrest
            have htext : Escape [singleQuote] text v := htext.before fun x hx => by
              rw [hrest]
              exact hx
            exact ⟨_, v, .escape htext, rfl,
              (hopen.trans (Cursor.takes_advance hmore)).trans hclosed⟩
          · cases h
      · rename_i hbackslash
        split at h
        · rename_i f hclose
          cases h
          have hbyte : (c.advance 1).Takes [b] ((c.advance 1).advance 1) :=
            Cursor.takes_advance hbody
          exact ⟨_, b, .plain (by simpa using hquote) (by simpa using hbackslash), rfl,
            (hopen.trans hbyte).trans (Cursor.takes_of_eat? hclose)⟩
        · cases h

/-! ## Strings -/

variable {start chunk : Cursor} {out raw : Bytes}

/-- A string ends at its quote. -/
theorem stringBody_close (hrest : c.rest = doubleQuote :: tail) (hraw : chunk.Takes raw c) :
    stringBody start out chunk c = .ok (out ++ storedText raw, c.advance 1) := by
  rw [stringBody]
  split
  · rename_i hnil
    cases hrest.symm.trans hnil
  · rename_i b rest hcons
    obtain rfl : doubleQuote = b := (List.cons.inj (hrest.symm.trans hcons)).1
    rw [if_pos (beq_self_eq_true _), hraw.sliceTo]

/-- An escape in a string is read as its byte, and a new piece begins behind it. -/
theorem stringBody_escape (hrest : c.rest = backslash :: tail) (hraw : chunk.Takes raw c)
    (hescape : escape c = .ok (v, d)) :
    stringBody start out chunk c = stringBody start (out ++ storedText raw ++ [v]) d d := by
  rw [stringBody]
  split
  · rename_i hnil
    cases hrest.symm.trans hnil
  · rename_i b rest hcons
    obtain rfl : backslash = b := (List.cons.inj (hrest.symm.trans hcons)).1
    rw [if_neg (by decide), if_pos (beq_self_eq_true _), hraw.sliceTo]
    split
    · rename_i s hstop
      cases hescape.symm.trans hstop
    · rename_i v' d' hread
      cases hescape.symm.trans hread
      rfl

/-- Any other byte of a string is passed. -/
theorem stringBody_plain (hrest : c.rest = b :: tail) (hquote : b ≠ doubleQuote)
    (hbackslash : b ≠ backslash) :
    stringBody start out chunk c = stringBody start out chunk (c.advance 1) := by
  rw [stringBody]
  split
  · rename_i hnil
    cases hrest.symm.trans hnil
  · rename_i x rest hcons
    obtain rfl : b = x := (List.cons.inj (hrest.symm.trans hcons)).1
    rw [if_neg (by simpa using hquote), if_neg (by simpa using hbackslash)]

/-- The ways to write one byte of a string that what follows cannot change: a printable character,
a letter behind a backslash, two hexadecimal digits of either case or three octal digits. -/
inductive Renders : UInt8 → Bytes → Prop
  | plain {b : UInt8} (hprintable : 0x20 ≤ b ∧ b ≤ 0x7e) (hquote : b ≠ doubleQuote)
    (hbackslash : b ≠ backslash) : Renders b [b]
  | letter {b v : UInt8} (h : (b, v) ∈ escapeLetters) : Renders v [backslash, b]
  | hexadecimal {x y v : UInt8} (h : Spells 16 [x, y] v.toNat) :
    Renders v [backslash, 0x78, x, y]
  | octal {x y z v : UInt8} (h : Spells 8 [x, y, z] v.toNat) : Renders v [backslash, x, y, z]

/-- Every byte has a form, whatever it is. -/
theorem exists_renders (v : UInt8) : ∃ text, Renders v text := by
  have hdigit (d : Nat) (hd : d < 16) : ∃ b, IsDigitOf b d :=
    ⟨_, .inl (List.getElem?_eq_getElem hd)⟩
  have hv := v.toNat_lt
  obtain ⟨x, hx⟩ := hdigit (v.toNat / 16) (by omega)
  obtain ⟨y, hy⟩ := hdigit (v.toNat % 16) (by omega)
  refine ⟨_, .hexadecimal ⟨[v.toNat / 16, v.toNat % 16], .cons hx (.cons hy .nil), ?_, ?_⟩⟩
  · exact List.forall_mem_cons.mpr ⟨by omega, List.forall_mem_singleton.mpr (by omega)⟩
  · show v.toNat = Nat.ofDigits 16 [v.toNat % 16, v.toNat / 16]
    rw [Nat.ofDigits_cons, Nat.ofDigits_singleton]
    omega

/-- A form of a byte is a byte that stays in its place, or an escape before any text. -/
theorem Renders.cases (h : Renders v text) :
    (text = [v] ∧ v ≠ doubleQuote ∧ v ≠ backslash ∧ v < 0x80) ∨
      ∀ rest, Escape rest text v := by
  cases h with
  | plain hprintable hquote hbackslash =>
    exact .inl ⟨rfl, hquote, hbackslash, UInt8.lt_of_le_of_lt hprintable.2 (by decide)⟩
  | letter h => exact .inr fun rest => .letter h
  | @hexadecimal x y v h =>
    right
    intro rest
    have hmem : ∀ b ∈ [x, y], isHexDigit b = true := fun b hb => ((spells_iff.mp h).1 b hb).1
    exact .hexadecimal (List.cons_ne_nil _ _) ⟨hmem, Nat.le_refl 2, .inl rfl⟩ h
  | @octal x y z v h =>
    right
    intro rest
    have hmem : ∀ b ∈ [x, y, z], isOctalDigit b = true :=
      fun b hb => isOctalDigit_iff.mpr ((spells_iff.mp h).1 b hb)
    exact .octal (List.cons_ne_nil _ _) ⟨hmem, Nat.le_refl 3, .inl rfl⟩ h

/-- Plain text is stored as it is. -/
theorem storedText_of_isAscii (h : Bytes.isAscii raw = true) : storedText raw = raw := by
  rw [storedText, h]
  rfl

/-- **Bytes are read back one by one.** What was read before them waits in `out` and, as text that
needs no composing, in `raw`. -/
theorem stringBody_renders {bytes : Bytes} {pieces : List Bytes}
    (h : List.Forall₂ Renders bytes pieces) (hraw : chunk.Takes raw c)
    (hascii : Bytes.isAscii raw = true) (hrest : c.rest = pieces.flatten ++ doubleQuote :: rest) :
    stringBody start out chunk c
      = .ok (out ++ raw ++ bytes, c.advance (pieces.flatten ++ [doubleQuote]).length) := by
  induction h generalizing out raw chunk c with
  | nil =>
    rw [stringBody_close hrest hraw, storedText_of_isAscii hascii, List.append_nil]
    rfl
  | @cons v piece bytes pieces hpiece _ ih =>
    rw [List.flatten_cons, List.append_assoc] at hrest
    have hafter := Cursor.rest_advance hrest
    have hend : c.advance ((piece :: pieces).flatten ++ [doubleQuote]).length
        = (c.advance piece.length).advance (pieces.flatten ++ [doubleQuote]).length := by
      rw [Cursor.advance_append, List.flatten_cons, List.append_assoc]
    rw [hend]
    rcases hpiece.cases with ⟨rfl, hquote, hbackslash, hlow⟩ | hescape
    · -- the byte joins the text that is not stored yet
      have hmore : Bytes.isAscii (raw ++ [v]) = true := by
        rw [Bytes.isAscii, List.all_append, ← Bytes.isAscii, hascii]
        simpa using hlow
      have hread : stringBody start out chunk (c.advance 1) = _ :=
        ih (hraw.trans (Cursor.takes_advance hrest)) hmore hafter
      rw [← List.append_assoc, List.append_assoc, List.singleton_append] at hread
      exact (stringBody_plain hrest hquote hbackslash).trans hread
    · obtain ⟨tail, htail⟩ := (hescape (pieces.flatten ++ doubleQuote :: rest)).exists_eq_cons
      have hread := (hescape _).read hrest
      rw [htail] at hrest
      rw [stringBody_escape hrest hraw hread, ih (.refl _) rfl hafter,
        storedText_of_isAscii hascii]
      simp

/-- Every string of bytes can be written. -/
theorem exists_rendering (bytes : Bytes) : ∃ pieces, List.Forall₂ Renders bytes pieces := by
  induction bytes with
  | nil => exact ⟨[], .nil⟩
  | cons v bytes ih =>
    obtain ⟨text, htext⟩ := exists_renders v
    obtain ⟨pieces, hpieces⟩ := ih
    exact ⟨text :: pieces, .cons htext hpieces⟩

/-- **Every byte string can be written and is read back.** There is a form for every byte; and
however the forms are mixed, a string of them between double quotes is read as the bytes, without a
report, up to behind the closing quote, whatever follows. -/
theorem rendered_string_reads_back (bytes : Bytes) :
    (∃ pieces, List.Forall₂ Renders bytes pieces) ∧
    ∀ pieces, List.Forall₂ Renders bytes pieces → ∀ (c : Cursor) (rest : Bytes),
      let text := [doubleQuote] ++ pieces.flatten ++ [doubleQuote]
      c.rest = text ++ rest → Outcome.ofScanned (quotedString c)
        = ⟨[], some (bytes, ⟨c.file, c.off + text.length, rest⟩)⟩ := by
  refine ⟨exists_rendering bytes, ?_⟩
  intro pieces h c rest text hrest
  have hopen : c.rest = [doubleQuote] ++ (pieces.flatten ++ doubleQuote :: rest) := by
    rw [hrest]
    simp [text]
  have heat : c.skipBlanks.eat? doubleQuote = some (c.advance 1) := by
    rw [Cursor.skipBlanks_of_cons hopen (by decide)]
    exact Cursor.eat?_of_cons hopen
  have hread : quotedString c = .ok (bytes, c.advance text.length) := by
    have hbody : stringBody c.skipBlanks [] (c.advance 1) (c.advance 1) = _ :=
      stringBody_renders h (.refl _) rfl (Cursor.rest_advance hopen)
    have hend : c.advance text.length
        = (c.advance 1).advance (pieces.flatten ++ [doubleQuote]).length := by
      rw [show text = [doubleQuote] ++ (pieces.flatten ++ [doubleQuote]) from List.append_assoc ..,
        ← Cursor.advance_append]
      rfl
    unfold quotedString
    dsimp only
    rw [heat, hend]
    exact hbody
  rw [hread, Cursor.advance_eq hrest]
  rfl

/-- Six bytes in all four forms; digits stand behind both kinds of digits. -/
theorem mixed_forms_read_back :
    let pieces : List Bytes := [[0x41], [0x5c, 0x22], [0x5c, 0x30, 0x30, 0x30], [0x37],
      [0x5c, 0x78, 0x66, 0x46], [0x61]]
    let c : Cursor := ⟨0, 7, .ofString "\"A\\\"\\0007\\xfFa\", \""⟩
    List.Forall₂ Renders [0x41, 0x22, 0x00, 0x37, 0xff, 0x61] pieces ∧
      Outcome.ofScanned (quotedString c)
        = ⟨[], some ([0x41, 0x22, 0x00, 0x37, 0xff, 0x61], ⟨0, 22, .ofString ", \""⟩)⟩ := by
  intro pieces c
  have hzero : Spells 8 [0x30, 0x30, 0x30] 0 :=
    ⟨[0, 0, 0], .cons (.inl rfl) (.cons (.inl rfl) (.cons (.inl rfl) .nil)), by decide, rfl⟩
  have hlast : Spells 16 [0x66, 0x46] 255 :=
    ⟨[15, 15], .cons (.inl rfl) (.cons (.inr rfl) .nil), by decide, rfl⟩
  have hpieces : List.Forall₂ Renders [0x41, 0x22, 0x00, 0x37, 0xff, 0x61] pieces :=
    .cons (.plain (by decide) (by decide) (by decide)) <| .cons (.letter (by decide)) <|
    .cons (.octal hzero) <| .cons (.plain (by decide) (by decide) (by decide)) <|
    .cons (.hexadecimal hlast) <| .cons (.plain (by decide) (by decide) (by decide)) .nil
  exact ⟨hpieces, (rendered_string_reads_back _).2 pieces hpieces c (.ofString ", \"") (by decide)⟩

end Statement

end CatalystAsm
