import CatalystAsm.Proofs.Decimal
import CatalystAsm.Proofs.Statement.Reading
import Mathlib.Data.List.Induction
import Mathlib.Data.Nat.Digits.Defs
import Mathlib.Data.Nat.ModEq

/-!
# Numerals

An integer is written in decimal without a leading zero, in octal after a zero, in hexadecimal after
`0x` and in binary after `0b`. A numeral that no name byte follows is read as the number that its
digits stand for (`integer_numeral`).
-/

namespace CatalystAsm.Statement

/-! ## Digits -/

/-- A byte is the digit of a number, in either case. -/
def IsDigitOf (b : UInt8) (d : Nat) : Prop :=
  (Bytes.ofString "0123456789abcdef")[d]? = some b ∨
    (Bytes.ofString "0123456789ABCDEF")[d]? = some b

/-- A text consists of digits of a base and stands for a number, highest digit first. -/
def Spells (base : Nat) (text : Bytes) (n : Nat) : Prop :=
  ∃ digits : List Nat, List.Forall₂ IsDigitOf text digits ∧ (∀ d ∈ digits, d < base) ∧
    n = Nat.ofDigits base digits.reverse

/-- The ways to write a number. -/
inductive Numeral : Bytes → Nat → Prop
  | decimal {b : UInt8} {text : Bytes} {n : Nat} (hb : b ≠ 0x30) (h : Spells 10 (b :: text) n) :
    Numeral (b :: text) n
  | octal {text : Bytes} {n : Nat} (h : Spells 8 text n) : Numeral (0x30 :: text) n
  | hexadecimal {x b : UInt8} {text : Bytes} {n : Nat} (hx : x = 0x78 ∨ x = 0x58)
    (h : Spells 16 (b :: text) n) : Numeral (0x30 :: x :: b :: text) n
  | binary {x b : UInt8} {text : Bytes} {n : Nat} (hx : x = 0x62 ∨ x = 0x42)
    (h : Spells 2 (b :: text) n) : Numeral (0x30 :: x :: b :: text) n

/-- A digit is read as its number; below ten it is a decimal digit. -/
theorem IsDigitOf.reads {b : UInt8} {d : Nat} (h : IsDigitOf b d) :
    digitValue b = d ∧ isHexDigit b = true ∧ (d < 10 → isDigit b = true) := by
  have hlower : ∀ d < 16, ∀ b ∈ (Bytes.ofString "0123456789abcdef")[d]?,
      digitValue b = d ∧ isHexDigit b = true ∧ (d < 10 → isDigit b = true) := by decide +kernel
  have hupper : ∀ d < 16, ∀ b ∈ (Bytes.ofString "0123456789ABCDEF")[d]?,
      digitValue b = d ∧ isHexDigit b = true ∧ (d < 10 → isDigit b = true) := by decide +kernel
  rcases h with h | h
  · exact hlower d (List.getElem?_eq_some_iff.mp h).1 b h
  · exact hupper d (List.getElem?_eq_some_iff.mp h).1 b h

/-- Adding up the digits from the left gives the number that they stand for. -/
theorem Spells.digitsValue_eq {base : Nat} {text : Bytes} {n : Nat} (h : Spells base text n) :
    digitsValue base text = n := by
  obtain ⟨digits, htext, -, rfl⟩ := h
  have hvalues : text.map digitValue = digits.map id :=
    map_eq_map_of_forall₂ (htext.imp fun _ _ hdigit => hdigit.reads.1)
  rw [List.map_id] at hvalues
  rw [digitsValue, Nat.ofDigits_eq_foldr, List.foldr_reverse, ← hvalues, List.foldl_map]
  congr 1
  funext v b
  simp [Nat.add_comm, Nat.mul_comm]

/-- The digits of a base are in range. -/
theorem Spells.digit {base : Nat} {text : Bytes} {n : Nat} (h : Spells base text n) {b : UInt8}
    (hb : b ∈ text) : ∃ d < base, IsDigitOf b d := by
  obtain ⟨digits, htext, hbase, -⟩ := h
  obtain ⟨i, hi⟩ := List.getElem?_of_mem hb
  obtain ⟨d, hd, hdigit⟩ := exists_getElem?_of_forall₂ htext hi
  exact ⟨d, hbase d (List.mem_of_getElem? hd), hdigit⟩

/-- What holds of all numbers below 256 holds of all bytes. -/
theorem forall_byte {P : UInt8 → Prop} (h : ∀ n < 256, P (UInt8.ofNat n)) (b : UInt8) : P b := by
  have hb := h b.toNat b.toNat_lt
  rw [UInt8.ofNat_toNat] at hb
  exact hb

/-- A byte that is read as a digit is the digit of its number. -/
theorem isDigitOf_digitValue {b : UInt8} (h : isHexDigit b = true) :
    IsDigitOf b (digitValue b) := by
  have hall : ∀ n < 256, isHexDigit (UInt8.ofNat n) = true →
      (Bytes.ofString "0123456789abcdef")[digitValue (UInt8.ofNat n)]? = some (UInt8.ofNat n) ∨
      (Bytes.ofString "0123456789ABCDEF")[digitValue (UInt8.ofNat n)]? = some (UInt8.ofNat n) := by
    decide +kernel
  exact forall_byte (P := fun b => isHexDigit b = true → IsDigitOf b (digitValue b)) hall b h

/-- A text stands for a number when all of its bytes are digits of the base and their values add up
to the number. -/
theorem spells_iff {base : Nat} {text : Bytes} {n : Nat} : Spells base text n ↔
    (∀ b ∈ text, isHexDigit b = true ∧ digitValue b < base) ∧ digitsValue base text = n := by
  constructor
  · intro h
    refine ⟨fun b hb => ?_, h.digitsValue_eq⟩
    obtain ⟨d, hd, hdigit⟩ := h.digit hb
    obtain ⟨rfl, hhex, -⟩ := hdigit.reads
    exact ⟨hhex, hd⟩
  · rintro ⟨hdigits, rfl⟩
    have hspells : Spells base text (Nat.ofDigits base (text.map digitValue).reverse) := by
      refine ⟨text.map digitValue, ?_, ?_, rfl⟩
      · rw [List.forall₂_map_right_iff, List.forall₂_same]
        exact fun b hb => isDigitOf_digitValue (hdigits b hb).1
      · intro d hd
        obtain ⟨b, hb, rfl⟩ := List.mem_map.mp hd
        exact (hdigits b hb).2
    rw [hspells.digitsValue_eq]
    exact hspells

/-- A numeral begins with a decimal digit. -/
theorem Numeral.exists_head {text : Bytes} {n : Nat} (h : Numeral text n) :
    ∃ b rest, text = b :: rest ∧ isDigit b = true := by
  cases h with
  | @decimal b text n hb h =>
    obtain ⟨d, hd, hdigit⟩ := h.digit List.mem_cons_self
    exact ⟨b, text, rfl, hdigit.reads.2.2 hd⟩
  | octal => exact ⟨_, _, rfl, rfl⟩
  | hexadecimal => exact ⟨_, _, rfl, rfl⟩
  | binary => exact ⟨_, _, rfl, rfl⟩

/-- All bytes of a numeral but the letter of its base are digits. -/
theorem Numeral.isHexDigit_or {text : Bytes} {n : Nat} (h : Numeral text n) {b : UInt8}
    (hb : b ∈ text) : isHexDigit b = true ∨ b = 0x78 ∨ b = 0x58 := by
  have hdigits {base : Nat} {l : Bytes} (hl : Spells base l n) (hmem : b ∈ l) :
      isHexDigit b = true := ((spells_iff.mp hl).1 b hmem).1
  cases h with
  | decimal _ h => exact .inl (hdigits h hb)
  | octal h =>
    rcases List.mem_cons.mp hb with rfl | hb
    · exact .inl rfl
    · exact .inl (hdigits h hb)
  | hexadecimal hx h =>
    rcases List.mem_cons.mp hb with rfl | hb
    · exact .inl rfl
    · rcases List.mem_cons.mp hb with rfl | hb
      · exact .inr hx
      · exact .inl (hdigits h hb)
  | binary hx h =>
    rcases List.mem_cons.mp hb with rfl | hb
    · exact .inl rfl
    · rcases List.mem_cons.mp hb with rfl | hb
      · rcases hx with rfl | rfl <;> exact .inl rfl
      · exact .inl (hdigits h hb)

/-! ## Numerals by their first bytes -/

section

variable {b x : UInt8} {rest : Bytes} {n : Nat}

/-- A numeral without a zero at its start is decimal. -/
theorem numeral_decimal_iff (hb : b ≠ 0x30) : Numeral (b :: rest) n ↔ Spells 10 (b :: rest) n := by
  constructor
  · intro h
    cases h with
    | decimal _ h => exact h
    | _ => exact absurd rfl hb
  · exact .decimal hb

/-- A letter that announces a base is no octal digit. -/
theorem not_spells_octal (hx : (x = 0x78 ∨ x = 0x58) ∨ (x = 0x62 ∨ x = 0x42)) :
    ¬Spells 8 (x :: rest) n := by
  intro h
  have hdigit := (spells_iff.mp h).1 x List.mem_cons_self
  rcases hx with (rfl | rfl) | (rfl | rfl) <;> exact absurd hdigit (by decide)

/-- A numeral with a zero and no letter of a base at its start is octal. -/
theorem numeral_octal_iff (hx : ¬((x = 0x78 ∨ x = 0x58) ∨ (x = 0x62 ∨ x = 0x42))) :
    Numeral (0x30 :: x :: rest) n ↔ Spells 8 (x :: rest) n := by
  constructor
  · intro h
    cases h with
    | decimal hb => exact absurd rfl hb
    | octal h => exact h
    | hexadecimal hhex => exact absurd (.inl hhex) hx
    | binary hbin => exact absurd (.inr hbin) hx
  · exact .octal

/-- A numeral with `0x` at its start is hexadecimal, and has a digit behind it. -/
theorem numeral_hexadecimal_iff (hx : x = 0x78 ∨ x = 0x58) :
    Numeral (0x30 :: x :: rest) n ↔ rest ≠ [] ∧ Spells 16 rest n := by
  constructor
  · intro h
    cases h with
    | decimal hb => exact absurd rfl hb
    | octal h => exact absurd h (not_spells_octal (.inl hx))
    | hexadecimal _ h => exact ⟨List.cons_ne_nil _ _, h⟩
    | binary hbin => rcases hx with rfl | rfl <;> exact absurd hbin (by decide)
  · rintro ⟨hne, h⟩
    obtain ⟨b, text, rfl⟩ := List.exists_cons_of_ne_nil hne
    exact .hexadecimal hx h

/-- A numeral with `0b` at its start is binary, and has a digit behind it. -/
theorem numeral_binary_iff (hx : x = 0x62 ∨ x = 0x42) :
    Numeral (0x30 :: x :: rest) n ↔ rest ≠ [] ∧ Spells 2 rest n := by
  constructor
  · intro h
    cases h with
    | decimal hb => exact absurd rfl hb
    | octal h => exact absurd h (not_spells_octal (.inr hx))
    | hexadecimal hhex => rcases hx with rfl | rfl <;> exact absurd hhex (by decide)
    | binary _ h => exact ⟨List.cons_ne_nil _ _, h⟩
  · rintro ⟨hne, h⟩
    obtain ⟨b, text, rfl⟩ := List.exists_cons_of_ne_nil hne
    exact .binary hx h

/-- A single zero, which has no octal digits behind it. -/
theorem numeral_zero_iff : Numeral [0x30] n ↔ n = 0 := by
  constructor
  · intro h
    cases h with
    | decimal hb => exact absurd rfl hb
    | octal h => exact h.digitsValue_eq.symm
  · rintro rfl
    exact .octal (spells_iff.mpr ⟨fun b hb => absurd hb List.not_mem_nil, rfl⟩)

/-- A text is a numeral of one number. -/
theorem Numeral.unique {text : Bytes} {m n : Nat} (hm : Numeral text m) (hn : Numeral text n) :
    m = n := by
  cases hm with
  | decimal hb hm =>
    exact hm.digitsValue_eq.symm.trans ((numeral_decimal_iff hb).mp hn).digitsValue_eq
  | @octal text _ hm =>
    cases hn with
    | decimal hb => exact absurd rfl hb
    | octal hn => exact hm.digitsValue_eq.symm.trans hn.digitsValue_eq
    | hexadecimal hx => exact absurd hm (not_spells_octal (.inl hx))
    | binary hx => exact absurd hm (not_spells_octal (.inr hx))
  | hexadecimal hx hm =>
    exact hm.digitsValue_eq.symm.trans ((numeral_hexadecimal_iff hx).mp hn).2.digitsValue_eq
  | binary hx hm =>
    exact hm.digitsValue_eq.symm.trans ((numeral_binary_iff hx).mp hn).2.digitsValue_eq

end

/-! ## Decimal text -/

/-- One digit more. -/
theorem digitsValue_concat (base : Nat) (text : Bytes) (b : UInt8) :
    digitsValue base (text ++ [b]) = digitsValue base text * base + digitValue b := by
  rw [digitsValue, List.foldl_append]
  rfl

/-- The decimal text of a number spells it. -/
theorem spells_ofNat (n : Nat) : Spells 10 (Bytes.ofNat n) n := by
  have hdigit : ∀ d < 10, isHexDigit (Bytes.digit d) = true ∧ digitValue (Bytes.digit d) = d := by
    decide
  induction n using Nat.strongRecOn with
  | ind n ih =>
    rw [spells_iff, Bytes.ofNat_eq]
    split
    · rename_i hlt
      obtain ⟨hhex, hvalue⟩ := hdigit n hlt
      refine ⟨fun b hb => ?_, ?_⟩
      · rw [List.mem_singleton.mp hb, hvalue]
        exact ⟨hhex, hlt⟩
      · exact (digitsValue_concat 10 [] _).trans (by rw [hvalue]; exact Nat.zero_add n)
    · rename_i hge
      have hlast : n % 10 < 10 := Nat.mod_lt n (by decide)
      obtain ⟨hhex, hvalue⟩ := hdigit _ hlast
      obtain ⟨hdigits, hbefore⟩ := spells_iff.mp (ih (n / 10) (by omega))
      refine ⟨fun b hb => ?_, ?_⟩
      · rcases List.mem_append.mp hb with hb | hb
        · exact hdigits b hb
        · rw [List.mem_singleton.mp hb, hvalue]
          exact ⟨hhex, hlast⟩
      · rw [digitsValue_concat, hbefore, hvalue]
        omega

/-- The decimal text of a number other than zero has no leading zero. -/
theorem exists_ofNat_eq_cons {n : Nat} (hn : n ≠ 0) :
    ∃ b rest, Bytes.ofNat n = b :: rest ∧ b ≠ 0x30 := by
  have hdigit : ∀ d < 10, d ≠ 0 → Bytes.digit d ≠ 0x30 := by decide
  induction n using Nat.strongRecOn with
  | ind n ih =>
    rw [Bytes.ofNat_eq]
    split
    · rename_i hlt
      exact ⟨_, [], rfl, hdigit n hlt hn⟩
    · obtain ⟨b, rest, htext, hb⟩ := ih (n / 10) (by omega) (by omega)
      exact ⟨b, rest ++ _, by rw [htext]; rfl, hb⟩

/-- **The decimal text of a number is a numeral of it.** -/
theorem numeral_ofNat (n : Nat) : Numeral (Bytes.ofNat n) n := by
  by_cases hn : n = 0
  · subst hn
    have hzero : Bytes.ofNat 0 = [0x30] := by decide +kernel
    rw [hzero]
    exact numeral_zero_iff.mpr rfl
  · obtain ⟨b, rest, htext, hb⟩ := exists_ofNat_eq_cons hn
    have hspells := spells_ofNat n
    rw [htext] at hspells ⊢
    exact .decimal hb hspells

/-! ## Words -/

theorem digitValue_lt (b : UInt8) : digitValue b < 256 := by
  have hb := b.toNat_lt
  unfold digitValue
  split
  · omega
  · split <;> omega

/-- A word has the low bits of a number, and knows whether these are all of it. -/
def Accumulator.Holds (a : Accumulator) (n : Nat) : Prop :=
  a.word = UInt64.ofNat n ∧ (a.overflow = true ↔ UInt64.size ≤ n)

/-- **One digit more.** Once bits are lost, the flag stays and the number stays too large; before
that, the word is all of the number, and the two tests see exactly what does not fit. -/
theorem Accumulator.Holds.push {a : Accumulator} {n base : Nat} (h : a.Holds n) (hbase : 0 < base)
    (digit : UInt8) : (a.push base digit).Holds (n * base + digitValue digit) := by
  obtain ⟨hword, hoverflow⟩ := h
  have hdigit := digitValue_lt digit
  have hn : a.word.toNat = n % UInt64.size := by
    rw [hword]
    exact UInt64.toNat_ofNat'
  have hgrows : n ≤ n * base := Nat.le_mul_of_pos_right n hbase
  constructor
  · show UInt64.ofNat (a.word.toNat * base) + UInt64.ofNat (digitValue digit) = _
    rw [← UInt64.ofNat_add, ← UInt64.toNat_inj, UInt64.toNat_ofNat', UInt64.toNat_ofNat', hn]
    exact ((Nat.mod_modEq n UInt64.size).mul_right base).add_right _
  · simp only [Accumulator.push, Bool.or_eq_true, decide_eq_true_eq, hoverflow,
      UInt64.lt_iff_toNat_lt, UInt64.toNat_add, UInt64.toNat_ofNat', hn]
    by_cases hfits : n < UInt64.size
    · rw [Nat.mod_eq_of_lt hfits]
      generalize n * base = product at hgrows ⊢
      simp only [UInt64.size] at hfits ⊢
      omega
    · omega

/-- **A word holds the number of its digits**, however many there are. -/
theorem holds_accumulate {base : Nat} (hbase : 0 < base) (digits : Bytes) :
    (accumulate base digits).Holds (digitsValue base digits) := by
  induction digits using List.reverseRecOn with
  | nil =>
    refine ⟨rfl, ?_⟩
    show false = true ↔ UInt64.size ≤ 0
    decide
  | append_singleton digits digit ih =>
    rw [digitsValue_concat, accumulate, List.foldl_append]
    exact ih.push hbase digit

/-! ## Reading -/

/-- No name goes on here. -/
def EndsName (rest : Bytes) : Prop := ∀ b, rest.head? = some b → isNameByte b = false

/-- Digits that spell a number are taken for digits of the base. -/
theorem isLiteralDigit_of_spells {base : Nat} (hbase : base ≤ 10 ∨ base = 16) {text : Bytes}
    {n : Nat} (h : Spells base text n) {b : UInt8} (hb : b ∈ text) :
    isLiteralDigit base b = true := by
  obtain ⟨d, hd, hdigit⟩ := h.digit hb
  obtain ⟨-, hhex, hdecimal⟩ := hdigit.reads
  rw [isLiteralDigit, Bool.or_eq_true, Bool.and_eq_true, beq_iff_eq]
  rcases hbase with hbase | hbase
  · exact Or.inl (hdecimal (by omega))
  · exact Or.inr ⟨hbase, hhex⟩

theorem isHexDigit_of_isLiteralDigit {base : Nat} {b : UInt8} (h : isLiteralDigit base b = true) :
    isHexDigit b = true := by
  rw [isLiteralDigit, Bool.or_eq_true, Bool.and_eq_true] at h
  rcases h with h | h
  · simp [isHexDigit, h]
  · exact h.2

/-- Digits of any base are name bytes. -/
theorem isNameByte_of_isLiteralDigit {base : Nat} {b : UInt8} (h : isLiteralDigit base b = true) :
    isNameByte b = true := by
  have hhex := isHexDigit_of_isLiteralDigit h
  simp only [isHexDigit, isDigit, isNameByte, isNameStart, Bool.or_eq_true, Bool.and_eq_true,
    decide_eq_true_eq, UInt8.le_iff_toNat_le] at hhex ⊢
  simp only [UInt8.reduceToNat] at hhex ⊢
  omega

theorem literalBase_pos (c : Cursor) : 0 < (literalBase c).1 := by
  unfold literalBase
  split
  · split
    · exact Nat.succ_pos _
    · split <;> exact Nat.succ_pos _
  · exact Nat.succ_pos _
  · exact Nat.succ_pos _

/-- A literal is read, after what announces its base, when no name goes on after its digits. -/
theorem integer_of_spells (head : Bytes) {c : Cursor} {base n : Nat} {digits rest : Bytes}
    (hbase : literalBase c = (base, c.advance head.length)) (hrange : base ≤ 10 ∨ base = 16)
    (hrest : c.rest = head ++ (digits ++ rest)) (hdigits : Spells base digits n)
    (hsome : digits ≠ [] ∨ base = 8) (hn : n < UInt64.size) (hend : EndsName rest) :
    integer c = .ok (UInt64.ofNat n, c.advance (head ++ digits).length) := by
  have hrest : (c.advance head.length).rest = digits ++ rest := Cursor.rest_advance hrest
  have htake : (c.advance head.length).rest.takeWhile (isLiteralDigit base) = digits := by
    rw [hrest]
    refine takeWhile_append (fun b => isLiteralDigit_of_spells hrange hdigits) fun b hb => ?_
    by_contra hdigit
    rw [Bool.not_eq_false] at hdigit
    exact absurd (isNameByte_of_isLiteralDigit hdigit) (by simp [hend b hb])
  have hin : digits.findIdx? (fun b => base ≤ digitValue b) = none := by
    rw [List.findIdx?_eq_none_iff]
    intro b hb
    obtain ⟨v, hv, hdigit⟩ := hdigits.digit hb
    rw [hdigit.reads.1, decide_eq_false_iff_not]
    omega
  have hempty : (digits.isEmpty && base != 8) = false := by
    rcases hsome with hsome | hsome
    · simp [hsome]
    · simp [hsome]
  have hpos : 0 < base := by
    have hpos := literalBase_pos c
    rw [hbase] at hpos
    exact hpos
  obtain ⟨hword, hoverflow⟩ := holds_accumulate hpos digits
  rw [hdigits.digitsValue_eq] at hword hoverflow
  have hfit : ¬(accumulate base digits).overflow = true :=
    mt hoverflow.mp (Nat.not_le.mpr hn)
  unfold integer
  rw [hbase]
  dsimp only
  rw [htake, hin]
  dsimp only
  rw [hempty, if_neg Bool.false_ne_true, Cursor.rest_advance hrest, hword, Cursor.advance_append]
  cases rest with
  | nil => rw [if_neg hfit]
  | cons b rest =>
    dsimp only
    rw [hend b rfl, if_neg Bool.false_ne_true, if_neg hfit]

/-- Digits without a zero before them are read as decimal. -/
theorem literalBase_decimal {c : Cursor} {b : UInt8} {rest : Bytes} (hrest : c.rest = b :: rest)
    (hb : b ≠ 0x30) : literalBase c = (10, c) := by
  unfold literalBase
  rw [hrest]
  split
  · rename_i heq
    exact absurd (List.cons.inj heq).1 hb
  · rename_i heq
    exact absurd (List.cons.inj heq).1 hb
  · rfl

/-- A zero announces octal digits unless a letter for another base follows. -/
theorem literalBase_octal {c : Cursor} {rest : Bytes} (hrest : c.rest = 0x30 :: rest)
    (h : ∀ b, rest.head? = some b → b ≠ 0x78 ∧ b ≠ 0x58 ∧ b ≠ 0x62 ∧ b ≠ 0x42) :
    literalBase c = (8, c.advance 1) := by
  unfold literalBase
  rw [hrest]
  cases rest with
  | nil => rfl
  | cons b rest =>
    obtain ⟨hx, hX, hb, hB⟩ := h b rfl
    simp [hx, hX, hb, hB]

/-- Digits behind `0x` are read as hexadecimal. -/
theorem literalBase_hexadecimal {c : Cursor} {x : UInt8} {rest : Bytes}
    (hrest : c.rest = 0x30 :: x :: rest) (hx : x = 0x78 ∨ x = 0x58) :
    literalBase c = (16, c.advance 2) := by
  unfold literalBase
  rw [hrest]
  rcases hx with rfl | rfl <;> rfl

/-- Digits behind `0b` are read as binary. -/
theorem literalBase_binary {c : Cursor} {x : UInt8} {rest : Bytes}
    (hrest : c.rest = 0x30 :: x :: rest) (hx : x = 0x62 ∨ x = 0x42) :
    literalBase c = (2, c.advance 2) := by
  unfold literalBase
  rw [hrest]
  rcases hx with rfl | rfl <;> rfl

/-- **A numeral is read as its number**, up to where no name goes on. -/
theorem integer_numeral {c : Cursor} {text rest : Bytes} {n : Nat} (h : Numeral text n)
    (hrest : c.rest = text ++ rest) (hn : n < UInt64.size) (hend : EndsName rest) :
    integer c = .ok (UInt64.ofNat n, c.advance text.length) := by
  cases h with
  | decimal hb h =>
    exact integer_of_spells [] (literalBase_decimal hrest hb) (Or.inl (by decide)) hrest
      h (Or.inl (by simp)) hn hend
  | @octal text n h =>
    have hhead : ∀ b, (text ++ rest).head? = some b → isDigit b = true ∨ isNameByte b = false := by
      intro b hb
      cases text with
      | nil => exact Or.inr (hend b hb)
      | cons x text =>
        obtain rfl : x = b := Option.some.inj hb
        obtain ⟨d, hd, hdigit⟩ := h.digit List.mem_cons_self
        exact Or.inl (hdigit.reads.2.2 (by omega))
    refine integer_of_spells [0x30] (literalBase_octal hrest fun b hb => ?_)
      (Or.inl (by decide)) hrest h (Or.inr rfl) hn hend
    have hne (x : UInt8) (hx : isDigit x = false ∧ isNameByte x = true) : b ≠ x := by
      rintro rfl
      rcases hhead b hb with hdigit | hname
      · exact Bool.false_ne_true (hx.1.symm.trans hdigit)
      · exact Bool.false_ne_true (hname.symm.trans hx.2)
    exact ⟨hne _ (by decide), hne _ (by decide), hne _ (by decide), hne _ (by decide)⟩
  | hexadecimal hx h =>
    exact integer_of_spells [0x30, _] (literalBase_hexadecimal hrest hx) (Or.inr rfl)
      hrest h (Or.inl (by simp)) hn hend
  | binary hx h =>
    exact integer_of_spells [0x30, _] (literalBase_binary hrest hx)
      (Or.inl (by decide)) hrest h (Or.inl (by simp)) hn hend

end CatalystAsm.Statement
