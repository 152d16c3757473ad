import CatalystAsm.Assembly.Outcome
import CatalystAsm.Proofs.Statement.Numeral
import Mathlib.Data.List.TakeWhile

/-!
# Integer literals

The scanner of integers goes by the first two bytes, adds up digits in a word of 64 bits, and looks
only then at what follows them. It accepts the numerals below `2 ^ 64` and nothing else
(`integer_literals_exact`), where a literal is all of the name bytes that follow each other.
-/

namespace CatalystAsm.Statement

variable {b : UInt8} {c d : Cursor} {v : UInt64}

/-! ## What announces the base -/

/-- A literal begins with `head`, and the digits behind it are of a base. -/
structure Announces (c : Cursor) (head : Bytes) (base : Nat) : Prop where
  literalBase_eq : literalBase c = (base, c.advance head.length)
  exists_tail : ∃ tail, c.rest = head ++ tail
  isNameByte : ∀ b ∈ head, isNameByte b = true
  /-- the digits complete a numeral; only octal ones may be missing -/
  numeral : ∀ {digits more : Bytes} {n : Nat}, c.rest = head ++ (digits ++ more) →
    digits ≠ [] ∨ base = 8 → Spells base digits n → Numeral (head ++ digits) n

/-- Without a zero before them, digits are decimal. -/
theorem announces_decimal {rest : Bytes} (hrest : c.rest = b :: rest) (hb : b ≠ 0x30) :
    Announces c [] 10 where
  literalBase_eq := literalBase_decimal hrest hb
  exists_tail := ⟨_, hrest⟩
  isNameByte := List.forall_mem_nil _
  numeral := by
    intro digits more n hdigits hsome hspells
    have hne : digits ≠ [] := hsome.resolve_right (by decide)
    obtain ⟨x, digits, rfl⟩ := List.exists_cons_of_ne_nil hne
    obtain rfl : b = x := (List.cons.inj (hrest.symm.trans hdigits)).1
    exact .decimal hb hspells

/-- A zero with no letter of a base behind it announces octal digits. -/
theorem announces_octal {rest : Bytes} (hrest : c.rest = 0x30 :: rest)
    (h : ∀ b, rest.head? = some b → b ≠ 0x78 ∧ b ≠ 0x58 ∧ b ≠ 0x62 ∧ b ≠ 0x42) :
    Announces c [0x30] 8 where
  literalBase_eq := literalBase_octal hrest h
  exists_tail := ⟨_, hrest⟩
  isNameByte := List.forall_mem_singleton.mpr rfl
  numeral _ _ hspells := .octal hspells

/-- A zero and the letter `x` announce hexadecimal digits. -/
theorem announces_hexadecimal {x : UInt8} {rest : Bytes} (hrest : c.rest = 0x30 :: x :: rest)
    (hx : x = 0x78 ∨ x = 0x58) : Announces c [0x30, x] 16 where
  literalBase_eq := literalBase_hexadecimal hrest hx
  exists_tail := ⟨_, hrest⟩
  isNameByte := by
    refine List.forall_mem_cons.mpr ⟨rfl, List.forall_mem_singleton.mpr ?_⟩
    rcases hx with rfl | rfl <;> rfl
  numeral := by
    intro digits more n _ hsome hspells
    exact (numeral_hexadecimal_iff hx).mpr ⟨hsome.resolve_right (by decide), hspells⟩

/-- A zero and the letter `b` announce binary digits. -/
theorem announces_binary {x : UInt8} {rest : Bytes} (hrest : c.rest = 0x30 :: x :: rest)
    (hx : x = 0x62 ∨ x = 0x42) : Announces c [0x30, x] 2 where
  literalBase_eq := literalBase_binary hrest hx
  exists_tail := ⟨_, hrest⟩
  isNameByte := by
    refine List.forall_mem_cons.mpr ⟨rfl, List.forall_mem_singleton.mpr ?_⟩
    rcases hx with rfl | rfl <;> rfl
  numeral := by
    intro digits more n _ hsome hspells
    exact (numeral_binary_iff hx).mpr ⟨hsome.resolve_right (by decide), hspells⟩

/-- Whatever a literal begins with announces a base. -/
theorem exists_announces {rest : Bytes} (hrest : c.rest = b :: rest) :
    ∃ head base, Announces c head base := by
  by_cases hb : b = 0x30
  · subst hb
    cases rest with
    | nil => exact ⟨_, _, announces_octal hrest fun x hx => by cases hx⟩
    | cons x rest =>
      by_cases hhex : x = 0x78 ∨ x = 0x58
      · exact ⟨_, _, announces_hexadecimal hrest hhex⟩
      · by_cases hbinary : x = 0x62 ∨ x = 0x42
        · exact ⟨_, _, announces_binary hrest hbinary⟩
        · refine ⟨_, _, announces_octal hrest fun y hy => ?_⟩
          obtain rfl : x = y := Option.some.inj hy
          rw [not_or] at hhex hbinary
          exact ⟨hhex.1, hhex.2, hbinary.1, hbinary.2⟩
  · exact ⟨_, _, announces_decimal hrest hb⟩

/-! ## Acceptance and refusal -/

/-- A number is given when all digits are in range, there is one where there must be, no name goes
on behind them, and the word has lost no bits. -/
theorem of_integer_eq_ok {head tail : Bytes} {base : Nat} (hannounces : Announces c head base)
    (htail : c.rest = head ++ tail) (h : integer c = .ok (v, d)) :
    let digits := tail.takeWhile (isLiteralDigit base)
    (∀ b ∈ digits, digitValue b < base) ∧ (digits ≠ [] ∨ base = 8) ∧
      EndsName (tail.drop digits.length) ∧ (accumulate base digits).overflow = false ∧
      v = (accumulate base digits).word := by
  intro digits
  have hdigits : (c.advance head.length).rest.takeWhile (isLiteralDigit base) = digits := by
    rw [Cursor.rest_advance htail]
  have hafter : ((c.advance head.length).advance digits.length).rest = tail.drop digits.length := by
    rw [Cursor.advance, Cursor.rest_advance htail]
  unfold integer at h
  rw [hannounces.literalBase_eq] at h
  dsimp only at h
  rw [hdigits] at h
  split at h
  · cases h
  · rename_i hrange
    have hin : ∀ b ∈ digits, digitValue b < base := by
      intro b hb
      have hb := List.findIdx?_eq_none_iff.mp hrange b hb
      simpa using hb
    split at h
    · cases h
    · rename_i hmissing
      have hsome : digits ≠ [] ∨ base = 8 := by
        by_contra hnot
        rw [not_or, not_not] at hnot
        exact hmissing (by simp [hnot.1, hnot.2])
      refine ⟨hin, hsome, ?_⟩
      -- the word is looked at last, with a byte behind the digits or without one
      have hword {s : Stop} {e : Cursor}
          (h : (if (accumulate base digits).overflow then Except.error s
            else .ok ((accumulate base digits).word, e)) = .ok (v, d)) :
          (accumulate base digits).overflow = false ∧ v = (accumulate base digits).word := by
        split at h
        · cases h
        · rename_i hoverflow
          cases h
          exact ⟨by simpa using hoverflow, rfl⟩
      rw [hafter] at h
      split at h
      · rename_i b more hmore
        split at h
        · cases h
        · rename_i hname
          refine ⟨?_, hword h⟩
          rw [hmore]
          intro x hx
          obtain rfl : b = x := Option.some.inj hx
          simpa using hname
      · rename_i hmore
        refine ⟨?_, hword h⟩
        rw [hmore]
        intro x hx
        cases hx

/-- **What is read is a numeral**, and the name bytes that follow each other are all of it. -/
theorem numeral_of_integer (hb : c.peek? = some b) (h : integer c = .ok (v, d)) :
    Numeral (c.rest.takeWhile isNameByte) v.toNat := by
  obtain ⟨rest, hrest⟩ := List.head?_eq_some_iff.mp hb
  obtain ⟨head, base, hannounces⟩ := exists_announces hrest
  obtain ⟨tail, htail⟩ := hannounces.exists_tail
  obtain ⟨hin, hsome, hends, hoverflow, rfl⟩ := of_integer_eq_ok hannounces htail h
  have hdigit : ∀ b ∈ tail.takeWhile (isLiteralDigit base), isLiteralDigit base b = true :=
    fun b hb => List.mem_takeWhile_imp hb
  have hsplit : tail = tail.takeWhile (isLiteralDigit base)
      ++ tail.drop (tail.takeWhile (isLiteralDigit base)).length :=
    List.prefix_iff_eq_append.mp (List.takeWhile_prefix _) |>.symm
  generalize tail.takeWhile (isLiteralDigit base) = digits at *
  generalize tail.drop digits.length = more at *
  subst hsplit
  have hspells : Spells base digits (digitsValue base digits) :=
    spells_iff.mpr ⟨fun b hb => ⟨isHexDigit_of_isLiteralDigit (hdigit b hb), hin b hb⟩, rfl⟩
  have hrun : c.rest.takeWhile isNameByte = head ++ digits := by
    rw [htail, ← List.append_assoc]
    refine takeWhile_append (fun b hb => ?_) hends
    rcases List.mem_append.mp hb with hb | hb
    · exact hannounces.isNameByte b hb
    · exact isNameByte_of_isLiteralDigit (hdigit b hb)
  have hpos : 0 < base := by
    have hpos := literalBase_pos c
    rw [hannounces.literalBase_eq] at hpos
    exact hpos
  obtain ⟨hword, hlost⟩ := holds_accumulate hpos digits
  have hvalue : (accumulate base digits).word.toNat = digitsValue base digits := by
    rw [hword]
    refine UInt64.toNat_ofNat_of_lt' (Nat.not_le.mp fun hle => ?_)
    rw [hlost.mpr hle] at hoverflow
    cases hoverflow
  rw [hrun, hvalue]
  exact hannounces.numeral htail hsome hspells

/-- Whatever a literal is refused for, it is one error, about a bad number. -/
theorem exists_report_of_integer {s : Stop} (h : integer c = .error s) :
    ∃ d, s.reports = [d] ∧ d.severity = .error ∧ d.code = .badNumber := by
  unfold integer at h
  dsimp only at h
  split at h
  · cases h
    exact ⟨_, rfl, rfl, rfl⟩
  · split at h
    · cases h
      exact ⟨_, rfl, rfl, rfl⟩
    · split at h
      · split at h
        · cases h
          exact ⟨_, rfl, rfl, rfl⟩
        · split at h
          · cases h
            exact ⟨_, rfl, rfl, rfl⟩
          · cases h
      · split at h
        · cases h
          exact ⟨_, rfl, rfl, rfl⟩
        · cases h

/-- **Integer literals are exact at any length.** Take a text that begins with a decimal digit, and
the longest row of name bytes that it begins with. A number is read exactly when that row is a
numeral of a number below `2 ^ 64`. It is then that number, nothing is reported, and the row is what
was read. Otherwise exactly one error is reported, and it is about a bad number. -/
theorem integer_literals_exact (hb : c.peek? = some b) (hdigit : isDigit b = true) :
    let run := c.rest.takeWhile isNameByte
    ((∃ r, numeric c = .ok r) ↔ ∃ n < UInt64.size, Numeral run n) ∧
    (∀ n < UInt64.size, Numeral run n → ∃ v : UInt64, v.toNat = n ∧
      Outcome.ofScanned (numeric c) = ⟨[], some (v, c.advance run.length)⟩) ∧
    ((¬∃ n < UInt64.size, Numeral run n) → ∃ d, Outcome.ofScanned (numeric c) = ⟨[d], none⟩ ∧
      d.severity = .error ∧ d.code = .badNumber) := by
  intro run
  have hnumeric : numeric c = integer c := by
    rw [numeric, if_neg]
    rw [hb]
    rintro hquote
    rw [Option.some.inj hquote] at hdigit
    exact absurd hdigit (by decide)
  have hread {n : Nat} (hn : n < UInt64.size) (hnumeral : Numeral run n) :
      integer c = .ok (UInt64.ofNat n, c.advance run.length) := by
    refine integer_numeral hnumeral (List.takeWhile_append_dropWhile).symm hn ?_
    intro x hx
    have hhead := List.head?_dropWhile_not isNameByte c.rest
    rw [hx] at hhead
    simpa using hhead
  rw [hnumeric]
  refine ⟨⟨?_, ?_⟩, ?_, ?_⟩
  · rintro ⟨⟨v, d⟩, hv⟩
    exact ⟨v.toNat, v.toNat_lt, numeral_of_integer hb hv⟩
  · rintro ⟨n, hn, hnumeral⟩
    exact ⟨_, hread hn hnumeral⟩
  · intro n hn hnumeral
    refine ⟨UInt64.ofNat n, UInt64.toNat_ofNat_of_lt' hn, ?_⟩
    rw [hread hn hnumeral]
    rfl
  · intro hnone
    cases hc : integer c with
    | ok r => exact absurd ⟨_, r.1.toNat_lt, numeral_of_integer hb hc⟩ hnone
    | error s =>
      obtain ⟨d, hreports, hd⟩ := exists_report_of_integer hc
      refine ⟨d, ?_, hd⟩
      rw [Outcome.ofScanned, hreports]

/-- The largest number of 64 bits before another argument, and the number after it. -/
theorem integer_literals_exact_bounds :
    let c : Cursor := ⟨0, 6, .ofString "18446744073709551615,1"⟩
    let e : Cursor := ⟨0, 6, .ofString "18446744073709551616"⟩
    (∃ v : UInt64, v.toNat = UInt64.size - 1 ∧
      Outcome.ofScanned (numeric c) = ⟨[], some (v, ⟨0, 26, .ofString ",1"⟩)⟩) ∧
    ∃ d, Outcome.ofScanned (numeric e) = ⟨[d], none⟩ ∧ d.severity = .error ∧
      d.code = .badNumber := by
  intro c e
  constructor
  · have hrun : c.rest.takeWhile isNameByte = Bytes.ofNat (UInt64.size - 1) := by decide +kernel
    have hend : c.advance (Bytes.ofNat (UInt64.size - 1)).length = ⟨0, 26, .ofString ",1"⟩ := by
      decide +kernel
    have hexact := (integer_literals_exact (b := 0x31) (c := c) rfl rfl).2.1 (UInt64.size - 1)
      (by decide)
    rw [hrun, hend] at hexact
    exact hexact (numeral_ofNat _)
  · have hrun : e.rest.takeWhile isNameByte = Bytes.ofNat UInt64.size := by decide +kernel
    refine (integer_literals_exact (b := 0x31) (c := e) rfl rfl).2.2 ?_
    rw [hrun]
    rintro ⟨n, hn, hnumeral⟩
    exact absurd hn (hnumeral.unique (numeral_ofNat _) ▸ Nat.lt_irrefl _)

end CatalystAsm.Statement
