import CatalystAsm.Container.DriverInfo
import CatalystAsm.Proofs.Statement.Numeral

/-!
# Versions in driver texts

What a text names as its version is told by a grammar (`DriverInfo.Names`): after the first marker
and two bytes stand two numerals with a byte between them, each as long as it can be
(`DriverInfo.Begins`). The reader follows the grammar for numbers of 32 bits
(`literal?_eq_some_iff`, `versionOf?_eq_some_iff`), and computes the version in words of 32 bits. A
text that is made from a version names that version.
-/

namespace CatalystAsm.DriverInfo

open Statement

variable {b x : UInt8} {base n : Nat} {info text lit digits body rest after : Bytes}

/-! ## Digits behind the base that they announce -/

/-- A byte that announces a base when it stands behind a zero. -/
def IsBaseLetter (x : UInt8) : Prop := (x = 0x78 ∨ x = 0x58) ∨ (x = 0x62 ∨ x = 0x42)

theorem literalDigits_hexadecimal (hx : x = 0x78 ∨ x = 0x58) (rest : Bytes) :
    literalDigits (0x30 :: x :: rest) = (16, rest) := by
  rcases hx with rfl | rfl <;> rfl

theorem literalDigits_binary (hx : x = 0x62 ∨ x = 0x42) (rest : Bytes) :
    literalDigits (0x30 :: x :: rest) = (2, rest) := by
  rcases hx with rfl | rfl <;> rfl

/-- A zero before anything else announces octal digits. -/
theorem literalDigits_octal (hx : ¬IsBaseLetter x) (rest : Bytes) :
    literalDigits (0x30 :: x :: rest) = (8, x :: rest) := by
  simp only [IsBaseLetter, not_or] at hx
  obtain ⟨⟨hx, hX⟩, hb, hB⟩ := hx
  simp [literalDigits, hx, hX, hb, hB]

/-- Without a zero and a byte behind it the digits are decimal. -/
theorem literalDigits_decimal (h : ∀ x rest, text ≠ 0x30 :: x :: rest) :
    literalDigits text = (10, text) := by
  unfold literalDigits
  split
  · exact absurd rfl (h _ _)
  · rfl

theorem spells_zero (hbase : 0 < base) : Spells base [0x30] 0 := by
  rw [spells_iff]
  refine ⟨fun b hb => ?_, ?_⟩
  · rw [List.mem_singleton.mp hb]
    exact ⟨rfl, hbase⟩
  · simp [digitsValue, digitValue, isDigit]

/-- **A text is a numeral when the digits behind what announces their base spell a number.** -/
theorem numeral_iff : Numeral lit n ↔
    (literalDigits lit).2 ≠ [] ∧ Spells (literalDigits lit).1 (literalDigits lit).2 n := by
  cases lit with
  | nil =>
    constructor
    · intro h
      cases h
    · intro h
      exact absurd rfl h.1
  | cons z rest =>
    by_cases hz : z = 0x30
    · subst hz
      cases rest with
      | nil =>
        -- a single zero is read as a decimal number
        rw [numeral_zero_iff, literalDigits_decimal (by simp)]
        constructor
        · rintro rfl
          exact ⟨List.cons_ne_nil _ _, spells_zero (by decide)⟩
        · intro h
          exact h.2.digitsValue_eq.symm
      | cons x rest =>
        by_cases hhex : x = 0x78 ∨ x = 0x58
        · rw [literalDigits_hexadecimal hhex, numeral_hexadecimal_iff hhex]
        · by_cases hbin : x = 0x62 ∨ x = 0x42
          · rw [literalDigits_binary hbin, numeral_binary_iff hbin]
          · have hx : ¬IsBaseLetter x := not_or.mpr ⟨hhex, hbin⟩
            rw [literalDigits_octal hx, numeral_octal_iff hx]
            exact (and_iff_right (List.cons_ne_nil _ _)).symm
    · rw [literalDigits_decimal fun x more heq => hz (List.cons.inj heq).1,
        numeral_decimal_iff hz]
      exact (and_iff_right (List.cons_ne_nil _ _)).symm

/-- What follows a literal goes on with its digits, unless it tells what a zero announces. -/
theorem literalDigits_append (hlit : lit ≠ []) (hzero : lit = [0x30] → rest = []) :
    literalDigits (lit ++ rest) = ((literalDigits lit).1, (literalDigits lit).2 ++ rest) := by
  obtain ⟨z, more, rfl⟩ := List.exists_cons_of_ne_nil hlit
  by_cases hz : z = 0x30
  · subst hz
    cases more with
    | nil =>
      rw [hzero rfl]
      rfl
    | cons x more =>
      simp only [List.cons_append, literalDigits]
      split
      · rfl
      · split <;> rfl
  · rw [List.cons_append, literalDigits_decimal (fun x more heq => hz (List.cons.inj heq).1),
      literalDigits_decimal (fun x more heq => hz (List.cons.inj heq).1)]
    rfl

/-- The beginning of a text whose digits are a given beginning of the digits of the text. -/
theorem exists_literal (hbody : literalDigits text = (base, digits ++ rest)) (hsome : digits ≠ []) :
    ∃ lit, text = lit ++ rest ∧ literalDigits lit = (base, digits) ∧
      (lit = [0x30] → rest = []) := by
  by_cases htext : ∃ x more, text = 0x30 :: x :: more
  · obtain ⟨x, more, rfl⟩ := htext
    by_cases hhex : x = 0x78 ∨ x = 0x58
    · rw [literalDigits_hexadecimal hhex] at hbody
      obtain ⟨rfl, rfl⟩ := Prod.mk.inj hbody
      exact ⟨0x30 :: x :: digits, rfl, literalDigits_hexadecimal hhex digits, by simp⟩
    · by_cases hbin : x = 0x62 ∨ x = 0x42
      · rw [literalDigits_binary hbin] at hbody
        obtain ⟨rfl, rfl⟩ := Prod.mk.inj hbody
        exact ⟨0x30 :: x :: digits, rfl, literalDigits_binary hbin digits, by simp⟩
      · have hx : ¬IsBaseLetter x := not_or.mpr ⟨hhex, hbin⟩
        rw [literalDigits_octal hx] at hbody
        obtain ⟨rfl, hdigits⟩ := Prod.mk.inj hbody
        obtain ⟨d, digits, rfl⟩ := List.exists_cons_of_ne_nil hsome
        obtain ⟨rfl, rfl⟩ := List.cons.inj hdigits
        exact ⟨0x30 :: x :: digits, rfl, literalDigits_octal hx digits, by simp⟩
  · have hother : ∀ x more, text ≠ 0x30 :: x :: more := fun x more heq => htext ⟨x, more, heq⟩
    rw [literalDigits_decimal hother] at hbody
    obtain ⟨rfl, rfl⟩ := Prod.mk.inj hbody
    refine ⟨digits, rfl, literalDigits_decimal ?_, ?_⟩
    · rintro x more rfl
      exact hother x (more ++ rest) rfl
    · rintro rfl
      cases rest with
      | nil => rfl
      | cons x rest => exact absurd rfl (hother x rest)

/-- Octal digits stand behind a zero that is followed by no letter of a base. -/
theorem octal_of_literalDigits (h : literalDigits text = (8, body)) :
    ∃ x more, text = 0x30 :: x :: more ∧ body = x :: more ∧ ¬IsBaseLetter x := by
  by_cases htext : ∃ x more, text = 0x30 :: x :: more
  · obtain ⟨x, more, rfl⟩ := htext
    by_cases hhex : x = 0x78 ∨ x = 0x58
    · rw [literalDigits_hexadecimal hhex] at h
      cases h
    · by_cases hbin : x = 0x62 ∨ x = 0x42
      · rw [literalDigits_binary hbin] at h
        cases h
      · have hx : ¬IsBaseLetter x := not_or.mpr ⟨hhex, hbin⟩
        rw [literalDigits_octal hx] at h
        exact ⟨x, more, rfl, (Prod.mk.inj h).2.symm, hx⟩
  · rw [literalDigits_decimal fun x more heq => htext ⟨x, more, heq⟩] at h
    cases h

/-! ## Literals -/

/-- A text begins with a numeral of a number and goes on with `rest`; no numeral goes on with the
byte that follows. -/
def Begins (text : Bytes) (n : Nat) (rest : Bytes) : Prop :=
  ∃ lit, text = lit ++ rest ∧ Numeral lit n ∧
    ∀ b more m, rest.head? = some b → ¬Numeral (lit ++ b :: more) m

/-- The bytes that are taken for digits of a base. -/
def isDigitIn (base : Nat) (b : UInt8) : Bool := isHexDigit b && digitValue b < base

/-- A digit of a base is a hexadecimal digit below the base. -/
theorem isDigitIn_iff : isDigitIn base b = true ↔ isHexDigit b = true ∧ digitValue b < base := by
  rw [isDigitIn, Bool.and_eq_true, decide_eq_true_eq]

theorem spells_of_isDigitIn (h : ∀ b ∈ digits, isDigitIn base b = true) :
    Spells base digits (digitsValue base digits) :=
  spells_iff.mpr ⟨fun b hb => isDigitIn_iff.mp (h b hb), rfl⟩

theorem isDigitIn_of_spells (h : Spells base digits n) (hb : b ∈ digits) :
    isDigitIn base b = true := isDigitIn_iff.mpr ((spells_iff.mp h).1 b hb)

/-- The digits that a literal is read from. -/
structure Run (text : Bytes) (base : Nat) (digits rest : Bytes) : Prop where
  body : literalDigits text = (base, digits ++ rest)
  digits : ∀ b ∈ digits, isDigitIn base b = true
  ends : ∀ b, rest.head? = some b → isDigitIn base b = false

/-- Every text has the digits that a literal is read from, if only none. -/
theorem exists_run (text : Bytes) : ∃ base digits rest, Run text base digits rest := by
  rcases hbody : literalDigits text with ⟨base, body⟩
  refine ⟨base, body.takeWhile (isDigitIn base), body.dropWhile (isDigitIn base), ?_, ?_, ?_⟩
  · rw [hbody, List.takeWhile_append_dropWhile]
  · exact List.all_eq_true.mp List.all_takeWhile
  · intro b hb
    have hhead := List.head?_dropWhile_not (isDigitIn base) body
    rw [hb] at hhead
    exact hhead

/-- **A literal** is the value of its digits, if that has 32 bits. Only behind the zero of octal
digits there may be none. -/
theorem Run.literal? (h : Run text base digits rest) (htext : text ≠ []) :
    literal? text = if digits = [] ∧ base ≠ 8 then none
      else if UInt32.size ≤ digitsValue base digits then none
      else some (digitsValue base digits, rest) := by
  have htake : (digits ++ rest).takeWhile (fun c => isHexDigit c && digitValue c < base) = digits :=
    takeWhile_append h.digits h.ends
  have hempty : text.isEmpty = false := List.isEmpty_eq_false_iff.mpr htext
  unfold DriverInfo.literal?
  rw [h.body]
  dsimp only
  rw [htake, hempty, List.drop_left]
  simp

/-- A text with digits begins with their numeral, and the numeral goes no further. -/
theorem Run.begins (h : Run text base digits rest) (hsome : digits ≠ []) :
    Begins text (digitsValue base digits) rest := by
  obtain ⟨lit, rfl, hlit, hzero⟩ := exists_literal h.body hsome
  have hspells := spells_of_isDigitIn h.digits
  refine ⟨lit, rfl, ?_, ?_⟩
  · rw [numeral_iff, hlit]
    exact ⟨hsome, hspells⟩
  · intro b more m hb hlonger
    have hne : lit ≠ [] := by
      rintro rfl
      exact hsome (Prod.mk.inj hlit).2.symm
    rw [numeral_iff, literalDigits_append hne, hlit] at hlonger
    · have hdigit := isDigitIn_of_spells hlonger.2 (b := b) (by simp)
      exact Bool.false_ne_true ((h.ends b hb).symm.trans hdigit)
    · intro heq
      rw [hzero heq] at hb
      cases hb

/-- A zero without octal digits behind it is a numeral on its own. -/
theorem Run.begins_zero (h : Run text 8 [] rest) : Begins text 0 rest := by
  obtain ⟨x, more, rfl, hbody, hx⟩ := octal_of_literalDigits h.body
  obtain rfl : rest = x :: more := hbody
  refine ⟨[0x30], rfl, numeral_zero_iff.mpr rfl, ?_⟩
  intro b tail m hb hlonger
  obtain rfl : x = b := Option.some.inj hb
  have hdigit := isDigitIn_of_spells ((numeral_octal_iff hx).mp hlonger) List.mem_cons_self
  exact Bool.false_ne_true ((h.ends x rfl).symm.trans hdigit)

/-- A zero that nothing goes on with stands before a byte that is no octal digit. -/
theorem run_zero (hmax : ∀ more m, ¬Numeral (0x30 :: x :: more) m) :
    Run (0x30 :: x :: rest) 8 [] (x :: rest) := by
  have hx : ¬IsBaseLetter x := by
    rintro (hhex | hbin)
    · exact hmax [0x30] 0 ((numeral_hexadecimal_iff hhex).mpr
        ⟨List.cons_ne_nil _ _, spells_zero (by decide)⟩)
    · exact hmax [0x30] 0 ((numeral_binary_iff hbin).mpr
        ⟨List.cons_ne_nil _ _, spells_zero (by decide)⟩)
  refine ⟨literalDigits_octal hx rest, fun b hb => absurd hb List.not_mem_nil, ?_⟩
  intro b hb
  obtain rfl : x = b := Option.some.inj hb
  by_contra hoctal
  rw [Bool.not_eq_false] at hoctal
  have hdigits : ∀ c ∈ [x], isDigitIn 8 c = true := by
    intro c hc
    rw [List.mem_singleton.mp hc]
    exact hoctal
  exact hmax [] _ ((numeral_octal_iff hx).mpr (spells_of_isDigitIn hdigits))

/-- The digits of the numeral that a text begins with. -/
theorem Begins.exists_run (h : Begins text n rest) : ∃ base digits, Run text base digits rest ∧
    digitsValue base digits = n ∧ (digits ≠ [] ∨ base = 8) := by
  obtain ⟨lit, rfl, hlit, hmax⟩ := h
  by_cases hzero : lit = [0x30] → rest = []
  · obtain ⟨hsome, hspells⟩ := numeral_iff.mp hlit
    have hne : lit ≠ [] := by
      rintro rfl
      exact hsome rfl
    refine ⟨(literalDigits lit).1, (literalDigits lit).2, ⟨literalDigits_append hne hzero, ?_, ?_⟩,
      hspells.digitsValue_eq, .inl hsome⟩
    · exact fun b => isDigitIn_of_spells hspells
    · intro b hb
      by_contra hdigit
      rw [Bool.not_eq_false] at hdigit
      -- with one more digit it would still be a numeral
      have hlonger : literalDigits (lit ++ [b])
          = ((literalDigits lit).1, (literalDigits lit).2 ++ [b]) := by
        refine literalDigits_append hne fun heq => ?_
        rw [hzero heq] at hb
        cases hb
      refine hmax b [] (digitsValue (literalDigits lit).1 ((literalDigits lit).2 ++ [b])) hb ?_
      rw [numeral_iff, hlonger]
      refine ⟨by simp, spells_of_isDigitIn fun c hc => ?_⟩
      rcases List.mem_append.mp hc with hc | hc
      · exact isDigitIn_of_spells hspells hc
      · rw [List.mem_singleton.mp hc]
        exact hdigit
  · -- a zero with something behind it that does not go on with it
    rw [Classical.not_imp] at hzero
    obtain ⟨rfl, hrest⟩ := hzero
    obtain ⟨x, more, rfl⟩ := List.exists_cons_of_ne_nil hrest
    obtain rfl : n = 0 := numeral_zero_iff.mp hlit
    exact ⟨8, [], run_zero fun tail m => hmax x tail m rfl, rfl, .inr rfl⟩

/-- **The reader of literals reads the longest numeral**, when its number has 32 bits. -/
theorem literal?_eq_some_iff :
    literal? text = some (n, rest) ↔ Begins text n rest ∧ n < UInt32.size := by
  constructor
  · intro h
    obtain ⟨base, digits, end_, hrun⟩ := exists_run text
    have htext : text ≠ [] := by
      rintro rfl
      cases h
    rw [hrun.literal? htext] at h
    split at h
    · cases h
    · rename_i hsome
      split at h
      · cases h
      · rename_i hsize
        obtain ⟨rfl, rfl⟩ := Prod.mk.inj (Option.some.inj h)
        refine ⟨?_, Nat.not_le.mp hsize⟩
        by_cases hdigits : digits = []
        · subst hdigits
          obtain rfl : base = 8 := by
            by_contra hbase
            exact hsome ⟨rfl, hbase⟩
          exact hrun.begins_zero
        · exact hrun.begins hdigits
  · rintro ⟨hbegins, hsize⟩
    obtain ⟨base, digits, hrun, rfl, hsome⟩ := hbegins.exists_run
    have htext : text ≠ [] := by
      rintro rfl
      obtain ⟨lit, hlit, hnumeral, -⟩ := hbegins
      obtain ⟨rfl, -⟩ := List.append_eq_nil_iff.mp hlit.symm
      cases hnumeral
    rw [hrun.literal? htext, if_neg, if_neg (Nat.not_le.mpr hsize)]
    rintro ⟨hdigits, hbase⟩
    rcases hsome with hsome | hsome
    · exact hsome hdigits
    · exact hbase hsome

/-- A numeral in front of a byte that no numeral has. -/
theorem begins_of_numeral (h : Numeral lit n)
    (hrest : ∀ b, rest.head? = some b → isHexDigit b = false ∧ b ≠ 0x78 ∧ b ≠ 0x58) :
    Begins (lit ++ rest) n rest := by
  refine ⟨lit, rfl, h, ?_⟩
  intro b more m hb hlonger
  obtain ⟨hhex, hx, hX⟩ := hrest b hb
  have hmem : b ∈ lit ++ b :: more := List.mem_append_right lit List.mem_cons_self
  rcases hlonger.isHexDigit_or hmem with hdigit | rfl | rfl
  · exact Bool.false_ne_true (hhex.symm.trans hdigit)
  · exact hx rfl
  · exact hX rfl

/-! ## The marker -/

/-- What follows the first marker of a text. -/
def FollowsMarker (info after : Bytes) : Prop :=
  ∃ before, info = before ++ marker ++ after ∧
    ∀ p q, info = p ++ marker ++ q → before.length ≤ p.length

theorem marker_ne_nil : marker ≠ [] := by decide +kernel

/-- A text that begins with the marker goes on behind it. -/
theorem afterMarker?_of_eq_append (h : info = marker ++ after) :
    afterMarker? info = some after := by
  obtain ⟨b, rest, hinfo⟩ : ∃ b rest, info = b :: rest := by
    refine List.exists_cons_of_ne_nil ?_
    rintro rfl
    exact marker_ne_nil (List.append_eq_nil_iff.mp h.symm).1
  have hprefix : marker.isPrefixOf (b :: rest) = true := by
    rw [List.isPrefixOf_iff_prefix, ← hinfo, h]
    exact List.prefix_append _ _
  rw [hinfo, afterMarker?, Bytes.dropStart?, if_pos hprefix, ← hinfo, h, List.drop_left]

/-- A byte that does not begin the marker is skipped. -/
theorem afterMarker?_cons (h : ¬marker <+: b :: rest) :
    afterMarker? (b :: rest) = afterMarker? rest := by
  rw [afterMarker?, Bytes.dropStart?,
    if_neg fun hprefix => h (List.isPrefixOf_iff_prefix.mp hprefix)]

/-- A byte before the first marker does not matter. -/
theorem followsMarker_cons (h : ¬marker <+: b :: rest) :
    FollowsMarker (b :: rest) after ↔ FollowsMarker rest after := by
  constructor
  · rintro ⟨before, hbefore, hfirst⟩
    cases before with
    | nil => exact absurd ⟨after, hbefore.symm⟩ h
    | cons c before =>
      obtain ⟨rfl, rfl⟩ := List.cons.inj hbefore
      refine ⟨before, rfl, fun p q hp => ?_⟩
      exact Nat.le_of_succ_le_succ (hfirst (b :: p) q (congrArg (b :: ·) hp))
  · rintro ⟨before, rfl, hfirst⟩
    refine ⟨b :: before, rfl, fun p q hp => ?_⟩
    cases p with
    | nil => exact absurd ⟨q, hp.symm⟩ h
    | cons c p => exact Nat.succ_le_succ (hfirst p q (List.cons.inj hp).2)

/-- **The reader finds the first marker.** -/
theorem afterMarker?_eq_some_iff : afterMarker? info = some after ↔ FollowsMarker info after := by
  induction info with
  | nil =>
    constructor
    · intro h
      cases h
    · rintro ⟨before, hbefore, -⟩
      obtain ⟨hmarker, -⟩ := List.append_eq_nil_iff.mp hbefore.symm
      exact absurd (List.append_eq_nil_iff.mp hmarker).2 marker_ne_nil
  | cons b rest ih =>
    by_cases hprefix : marker <+: b :: rest
    · obtain ⟨found, hfound⟩ := hprefix
      rw [afterMarker?_of_eq_append hfound.symm, Option.some_inj]
      constructor
      · rintro rfl
        exact ⟨[], hfound.symm, fun p q _ => Nat.zero_le _⟩
      · rintro ⟨before, hbefore, hfirst⟩
        -- no marker comes before the one that the text begins with
        obtain rfl : before = [] :=
          List.length_eq_zero_iff.mp (Nat.le_zero.mp (hfirst [] found hfound.symm))
        exact List.append_cancel_left (hfound.trans hbefore)
    · rw [afterMarker?_cons hprefix, followsMarker_cons hprefix, ih]

/-! ## Versions -/

/-- The two numbers that a text names its version by: after the first marker and two bytes stand two
numerals with a byte between them. -/
inductive Names (info : Bytes) : Nat → Nat → Prop
  | intro {x y d : UInt8} {text tail rest : Bytes} {major minor : Nat} :
    FollowsMarker info (x :: y :: text) → Begins text major (d :: tail) → Begins tail minor rest →
      Names info major minor

/-- The version is made of the two literals behind the marker. -/
theorem versionOf?_of_reads {x y d : UInt8} {tail : Bytes} {major minor : Nat}
    (hafter : afterMarker? info = some (x :: y :: text))
    (hmajor : literal? text = some (major, d :: tail))
    (hminor : literal? tail = some (minor, rest)) :
    versionOf? info = some (UInt32.ofNat (major * 100 + minor)) := by
  rw [versionOf?, hafter]
  dsimp only
  rw [hmajor]
  dsimp only
  rw [hminor, UInt32.ofNat_add, UInt32.ofNat_mul]
  rfl

/-- The numbers of a text, as the readers find them. -/
theorem names_of_reads {x y d : UInt8} {tail : Bytes} {major minor : Nat}
    (hafter : afterMarker? info = some (x :: y :: text))
    (hmajor : literal? text = some (major, d :: tail))
    (hminor : literal? tail = some (minor, rest)) : Names info major minor :=
  .intro (afterMarker?_eq_some_iff.mp hafter) (literal?_eq_some_iff.mp hmajor).1
    (literal?_eq_some_iff.mp hminor).1

/-- **A version is read exactly where two numbers of 32 bits are named**; it is computed in words of
32 bits. -/
theorem versionOf?_eq_some_iff {v : UInt32} : versionOf? info = some v ↔
    ∃ major minor, Names info major minor ∧ major < UInt32.size ∧ minor < UInt32.size ∧
      v = UInt32.ofNat (major * 100 + minor) := by
  constructor
  · intro h
    have hread := h
    unfold versionOf? at h
    split at h
    · rename_i x y text hafter
      split at h
      · rename_i major d tail hmajor
        obtain ⟨⟨minor, rest⟩, hminor, -⟩ := Option.map_eq_some_iff.mp h
        rw [versionOf?_of_reads hafter hmajor hminor] at hread
        obtain ⟨hbegins, hlt⟩ := literal?_eq_some_iff.mp hmajor
        obtain ⟨hbegins', hlt'⟩ := literal?_eq_some_iff.mp hminor
        exact ⟨major, minor, .intro (afterMarker?_eq_some_iff.mp hafter) hbegins hbegins',
          hlt, hlt', (Option.some.inj hread).symm⟩
      · cases h
    · cases h
  · rintro ⟨major, minor, ⟨hafter, hmajor, hminor⟩, hlt, hlt', rfl⟩
    exact versionOf?_of_reads (afterMarker?_eq_some_iff.mpr hafter)
      (literal?_eq_some_iff.mpr ⟨hmajor, hlt⟩) (literal?_eq_some_iff.mpr ⟨hminor, hlt'⟩)

/-- A text that is given is kept, and its version is read from it or is the newest. -/
theorem resolve_of_ne_nil (hinfo : info ≠ []) :
    resolve info 0 = (info, (versionOf? info).getD newestVersion) := by
  rw [resolve, if_neg (by simpa using hinfo)]
  rfl

/-- The version that two numbers stand for: hundreds and the rest. One that does not fit into 32
bits is taken for the newest. -/
def versionNumber (major minor : Nat) : Nat :=
  if major * 100 + minor < UInt32.size then major * 100 + minor else newestVersion.toNat

/-- **The version that is read from a text.** Where two numbers of 32 bits are named, it is the
number that they stand for as long as that has 32 bits; a larger one is cut to 32 bits, and is then
taken for another version unless the cut happens to give the newest one. Every other text stands for
the newest version. -/
theorem version_recovered (hinfo : info ≠ []) :
    (∀ major minor, Names info major minor → major < UInt32.size → minor < UInt32.size →
      (resolve info 0).2.toNat = (major * 100 + minor) % UInt32.size ∧
      ((resolve info 0).2.toNat = versionNumber major minor ↔ major * 100 + minor < UInt32.size ∨
        (major * 100 + minor) % UInt32.size = newestVersion.toNat)) ∧
    ((¬∃ major minor, Names info major minor ∧ major < UInt32.size ∧ minor < UInt32.size) →
      (resolve info 0).2 = newestVersion) := by
  rw [resolve_of_ne_nil hinfo]
  constructor
  · intro major minor hnames hmajor hminor
    have hversion := versionOf?_eq_some_iff.mpr ⟨major, minor, hnames, hmajor, hminor, rfl⟩
    have hnumber : ((versionOf? info).getD newestVersion).toNat
        = (major * 100 + minor) % UInt32.size := by
      rw [hversion]
      exact UInt32.toNat_ofNat'
    refine ⟨hnumber, ?_⟩
    dsimp only
    rw [hnumber, versionNumber]
    split
    · rename_i hfits
      exact ⟨fun _ => .inl hfits, fun _ => Nat.mod_eq_of_lt hfits⟩
    · rename_i hlarge
      exact ⟨.inr, fun h => h.resolve_left hlarge⟩
  · intro hnone
    cases hread : versionOf? info with
    | none => rfl
    | some v =>
      obtain ⟨major, minor, hnames, hmajor, hminor, -⟩ := versionOf?_eq_some_iff.mp hread
      exact absurd ⟨major, minor, hnames, hmajor, hminor⟩ hnone

/-- A hexadecimal and an octal number, behind a byte that is not the one of a made text. -/
theorem version_recovered_bases :
    let info := Bytes.ofString "AMD-AMD-APP [0x10/077"
    info ≠ [] ∧ Names info 16 63 ∧ (resolve info 0).2.toNat = 1663 := by
  intro info
  have hinfo : info ≠ [] := by decide +kernel
  have hafter : afterMarker? info = some (0x20 :: 0x5b :: Bytes.ofString "0x10/077") := by
    decide +kernel
  have hmajor : literal? (.ofString "0x10/077") = some (16, 0x2f :: Bytes.ofString "077") := by
    decide +kernel
  have hminor : literal? (.ofString "077") = some (63, []) := by decide +kernel
  have hnames := names_of_reads hafter hmajor hminor
  exact ⟨hinfo, hnames, ((version_recovered hinfo).1 16 63 hnames (by decide) (by decide)).1⟩

/-- Two numbers of 32 bits that stand for a version of more bits: it is cut to a very old one. -/
theorem large_version_wraps :
    let info := Bytes.ofString "AMD-APP (42949673.0)"
    Names info 42949673 0 ∧ versionNumber 42949673 0 = 99999909 ∧ resolve info 0 = (info, 4) := by
  intro info
  have hafter : afterMarker? info = some (0x20 :: 0x28 :: Bytes.ofString "42949673.0)") := by
    decide +kernel
  have hmajor : literal? (.ofString "42949673.0)")
      = some (42949673, 0x2e :: Bytes.ofString "0)") := by decide +kernel
  have hminor : literal? (.ofString "0)") = some (0, [0x29]) := by decide +kernel
  exact ⟨names_of_reads hafter hmajor hminor, by decide, by decide +kernel⟩

/-! ## Texts that are made from a version -/

/-- A made text, with its first marker and its numbers in view. -/
theorem exists_ofVersion_eq (v : UInt32) : ∃ rest, ofVersion v = .ofString "@(#) OpenCL 1.2 " ++
    marker ++ (0x20 :: 0x28 :: (Bytes.ofNat (v.toNat / 100) ++
      0x2e :: (Bytes.ofNat (v.toNat % 100) ++ 0x29 :: rest))) := by
  have hopen : Bytes.ofString "@(#) OpenCL 1.2 AMD-APP ("
      = .ofString "@(#) OpenCL 1.2 " ++ marker ++ [0x20, 0x28] := by decide +kernel
  have hpoint : Bytes.ofString "." = [0x2e] := by decide +kernel
  have hclose : Bytes.ofString ").  Driver version: "
      = 0x29 :: Bytes.ofString ".  Driver version: " := by decide +kernel
  rw [ofVersion, hopen, hclose, hpoint]
  simp only [List.append_assoc, List.cons_append, List.nil_append]
  exact ⟨_, rfl⟩

/-- A marker is the first one when its first byte does not stand before it. -/
theorem followsMarker_of_not_mem {before : Bytes} (h : ∀ b ∈ before, marker.head? ≠ some b)
    (after : Bytes) : FollowsMarker (before ++ marker ++ after) after := by
  refine ⟨before, rfl, fun p q hp => ?_⟩
  by_contra hshort
  rw [Nat.not_le] at hshort
  have hhead : (before ++ marker ++ after)[p.length]? = marker.head? := by
    rw [hp, List.append_assoc, List.getElem?_append_right (Nat.le_refl _), Nat.sub_self,
      ← List.head?_eq_getElem?, List.head?_append_of_ne_nil _ marker_ne_nil]
  rw [List.append_assoc, List.getElem?_append_left hshort] at hhead
  exact h _ (List.getElem_mem hshort) (hhead.symm.trans (List.getElem?_eq_getElem hshort))

/-- **The text that is made for a version** names the version. -/
theorem names_ofVersion (v : UInt32) : Names (ofVersion v) (v.toNat / 100) (v.toNat % 100) := by
  obtain ⟨rest, hmade⟩ := exists_ofVersion_eq v
  rw [hmade]
  refine .intro (followsMarker_of_not_mem (by decide +kernel) _)
    (begins_of_numeral (numeral_ofNat _) ?_) (begins_of_numeral (numeral_ofNat _) ?_)
  · intro b hb
    obtain rfl : 0x2e = b := Option.some.inj hb
    decide
  · intro b hb
    obtain rfl : 0x29 = b := Option.some.inj hb
    decide

/-- **A made text carries its version**: the version is read back from it. -/
theorem made_text_carries_version (v : UInt32) :
    (resolve [] v).2 = v ∧ resolve (resolve [] v).1 0 = ((resolve [] v).1, v) := by
  have hmade : resolve [] v = (ofVersion v, v) := rfl
  have hne : ofVersion v ≠ [] := by
    obtain ⟨rest, hmade⟩ := exists_ofVersion_eq v
    rw [hmade]
    simp
  have hlt := v.toNat_lt_size
  have hread : versionOf? (ofVersion v) = some v := by
    refine versionOf?_eq_some_iff.mpr ⟨_, _, names_ofVersion v, by omega, by omega, ?_⟩
    rw [Nat.div_add_mod', UInt32.ofNat_toNat]
  rw [hmade]
  refine ⟨rfl, ?_⟩
  rw [resolve_of_ne_nil hne, hread]
  rfl

end CatalystAsm.DriverInfo
