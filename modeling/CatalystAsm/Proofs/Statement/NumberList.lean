import CatalystAsm.Proofs.Statement.Grammar
import CatalystAsm.Proofs.Statement.Range

/-!
# Lists of numbers

Numbers of a data directive are written in decimal, with commas between them and blanks around
them, and are read one by one up to the end of the statement (`items_decimalList`).
-/

namespace CatalystAsm.Statement

/-! ## Numbers -/

/-- The ways to write a word in decimal: as it is, or behind a minus sign as what it lacks of the
number of words. -/
inductive Decimal (v : UInt64) : Bytes → Prop
  | plain : Decimal v (.ofNat v.toNat)
  | minus (h : 0 < v.toNat) : Decimal v (.ofString "-" ++ .ofNat (UInt64.size - v.toNat))

variable {v : UInt64} {text gap rest : Bytes} {c : Cursor}

/-- A number is an expression for itself, whatever the symbols stand for. -/
theorem Decimal.exists_written (h : Decimal v text) :
    ∃ tree, Written 0 tree text ∧ ∀ symbols, tree.value symbols = .ok { bits := v } := by
  cases h with
  | plain => exact ⟨.literal v, .literal (numeral_ofNat _), fun _ => rfl⟩
  | minus h =>
    have hneg : (-v).toNat = UInt64.size - v.toNat := by
      rw [UInt64.toNat_neg]
      exact Nat.mod_eq_of_lt (Nat.sub_lt (by decide) h)
    refine ⟨.unary .minus (.literal (-v)), .unary (by decide) (.literal ?_), fun symbols => ?_⟩
    · rw [hneg]
      exact numeral_ofNat _
    · show Except.ok ({ bits := - -v } : Value) = _
      rw [UInt64.neg_neg]

/-- Whether a byte is a minus sign or a digit. -/
def beginsNumber (b : UInt8) : Bool := b == 0x2d || isDigit b

theorem isBlank_of_beginsNumber {b : UInt8} (hb : beginsNumber b = true) :
    Cursor.isBlank b = false := by
  have hne (x : UInt8) (hx : beginsNumber x = false) : (b == x) = false :=
    beq_eq_false_of_class hb hx
  simp only [Cursor.isBlank, hne 0x20 (by decide), hne 0x09 (by decide), hne 0x0b (by decide),
    hne 0x0c (by decide), hne 0x0d (by decide), Bool.or_false]

/-- A decimal number begins with a sign or a digit. -/
theorem Decimal.exists_head (h : Decimal v text) :
    ∃ b tail, text = b :: tail ∧ beginsNumber b = true := by
  cases h with
  | plain =>
    obtain ⟨b, tail, htext, hb⟩ := (numeral_ofNat v.toNat).exists_head
    exact ⟨b, tail, htext, by simp [beginsNumber, hb]⟩
  | minus => exact ⟨_, _, rfl, rfl⟩

/-- A written tree may have blanks before it. -/
theorem Written.blanks {level : Nat} {tree : Tree} (hgap : IsGap gap)
    (h : Written level tree text) : Written level tree (gap ++ text) := by
  induction gap with
  | nil => exact h
  | cons b gap ih =>
    exact .blank (hgap b List.mem_cons_self) (ih fun x hx => hgap x (List.mem_cons_of_mem b hx))

/-- **A number is read** with the blanks around it, up to the end of the statement or a comma. -/
theorem Decimal.absolute_eq {before after : Bytes} (h : Decimal v text) (hbefore : IsGap before)
    (hafter : IsGap after) (hc : c.rest = before ++ text ++ (after ++ rest))
    (hrest : ∀ b, rest.head? = some b → b = commaByte) (symbols : Resolver) :
    ∃ span, absolute symbols c = .ok ((v, span), c.advance (before ++ text ++ after).length) := by
  obtain ⟨tree, hwritten, hvalue⟩ := h.exists_written
  have hread := (hwritten.blanks hbefore).readBinary_eq symbols hafter hrest hc
  rw [hvalue] at hread
  refine ⟨c.skipBlanks.spanTo (c.advance (before ++ text ++ after).length), ?_⟩
  unfold absolute
  rw [expression_eq_ok_iff.mpr ⟨hread, rfl⟩]
  rfl

/-! ## Lists -/

/-- At the end there is no comma. -/
theorem comma_nil (h : c.rest = []) : comma c = .ok (false, c) := by
  have hskip : c.skipBlanks = c := Cursor.skipBlanks_of_head fun b hb => by simp [h] at hb
  have hlimit : c.atLimit = true := List.isEmpty_iff.mpr h
  unfold comma
  dsimp only
  rw [hskip, if_pos hlimit]

/-- A comma that is there is read. -/
theorem comma_cons (h : c.rest = commaByte :: rest) : comma c = .ok (true, c.advance 1) := by
  have hskip : c.skipBlanks = c := Cursor.skipBlanks_of_cons h (by decide)
  have hlimit : ¬c.atLimit = true := by simp [Cursor.atLimit, h]
  have heat : c.eat? commaByte = some (c.advance 1) := by simp [Cursor.eat?, Cursor.peek?, h]
  unfold comma
  dsimp only
  rw [hskip, if_neg hlimit, heat]

/-- **One item of a list**, and the others if a comma follows it. -/
theorem items_of_comma {α : Type} {scan : Cursor → Scanned α}
    {shorter : ∀ {c d v}, scan c = .ok (v, d) → d.rest.length < c.rest.length} {open_ more : Bool}
    {w : α} {d e : Cursor} (hstart : atEnd c = false) (hscan : scan c = .ok (w, d))
    (hcomma : comma d = .ok (more, e)) : items scan shorter open_ c
      = if more then (w :: (items scan shorter open_ e).1, (items scan shorter open_ e).2)
        else ([w], none) := by
  rw [items, hstart, Bool.and_false, if_neg Bool.false_ne_true]
  split
  · rename_i h
    cases hscan.symm.trans h
  · rename_i h
    cases hscan.symm.trans h
    split <;> rename_i h <;> cases hcomma.symm.trans h <;> rfl

/-- The ways to write a list of numbers: with commas between them, and blanks around the commas. -/
inductive DecimalList : List UInt64 → Bytes → Prop
  | last {v : UInt64} {text after : Bytes} (h : Decimal v text) (hafter : IsGap after) :
    DecimalList [v] (text ++ after)
  | more {v : UInt64} {values : List UInt64} {text after before list : Bytes} (h : Decimal v text)
    (hafter : IsGap after) (hbefore : IsGap before) (hlist : DecimalList values list) :
    DecimalList (v :: values) (text ++ after ++ .ofString "," ++ (before ++ list))

variable {values : List UInt64}

/-- A list of numbers begins with a sign or a digit. -/
theorem DecimalList.exists_head (h : DecimalList values text) :
    ∃ b tail, text = b :: tail ∧ beginsNumber b = true := by
  cases h with
  | last h =>
    obtain ⟨b, tail, rfl, hb⟩ := h.exists_head
    exact ⟨b, _, rfl, hb⟩
  | more h =>
    obtain ⟨b, tail, rfl, hb⟩ := h.exists_head
    exact ⟨b, _, rfl, hb⟩

theorem DecimalList.ne_nil (h : DecimalList values text) : values ≠ [] := by
  cases h <;> exact List.cons_ne_nil _ _

/-- Blanks before a list are skipped, and nothing of the list is. -/
theorem DecimalList.skipBlanks_eq (h : DecimalList values text) (hgap : IsGap gap)
    (hc : c.rest = gap ++ text) : c.skipBlanks = c.advance gap.length := by
  obtain ⟨b, tail, rfl, hb⟩ := h.exists_head
  refine Cursor.skipBlanks_eq hc hgap fun x hx => ?_
  obtain rfl : b = x := Option.some.inj hx
  exact isBlank_of_beginsNumber hb

/-- A list of numbers is not at its end, whatever blanks are before it. -/
theorem DecimalList.atEnd_eq_false (h : DecimalList values text) (hgap : IsGap gap)
    (hc : c.rest = gap ++ text) : atEnd c = false := by
  rw [atEnd, h.skipBlanks_eq hgap hc, Cursor.atLimit, Cursor.rest_advance hc]
  obtain ⟨b, tail, rfl, -⟩ := h.exists_head
  rfl

/-- **A list of numbers is read number by number.** -/
theorem items_decimalList (h : DecimalList values text) (hgap : IsGap gap)
    (hc : c.rest = gap ++ text) (symbols : Resolver) (open_ : Bool) :
    ∃ spans, spans.length = values.length ∧
      items (absolute symbols) length_rest_absolute open_ c = (values.zip spans, none) := by
  have hstart := h.atEnd_eq_false hgap hc
  induction h generalizing c gap with
  | @last v text after h hafter =>
    have hc : c.rest = gap ++ text ++ (after ++ []) := by
      rw [hc, List.append_nil, List.append_assoc]
    obtain ⟨span, hread⟩ := h.absolute_eq hgap hafter hc (fun b hb => by cases hb) symbols
    have hend : (c.advance (gap ++ text ++ after).length).rest = [] :=
      Cursor.rest_advance (hc.trans (List.append_assoc ..).symm)
    refine ⟨[span], rfl, ?_⟩
    exact items_of_comma hstart hread (comma_nil hend)
  | @more v values text after before list h hafter hbefore hlist ih =>
    have hc : c.rest = gap ++ text ++ (after ++ commaByte :: (before ++ list)) := by
      rw [hc]
      simp only [List.append_assoc]
      rfl
    obtain ⟨span, hread⟩ := h.absolute_eq hgap hafter hc (fun b hb => (Option.some.inj hb).symm)
      symbols
    have hcomma : (c.advance (gap ++ text ++ after).length).rest
        = [commaByte] ++ (before ++ list) :=
      Cursor.rest_advance (hc.trans (List.append_assoc ..).symm)
    have hnext : ((c.advance (gap ++ text ++ after).length).advance 1).rest = before ++ list :=
      Cursor.rest_advance hcomma
    obtain ⟨spans, hlength, hitems⟩ := ih hbefore hnext (hlist.atEnd_eq_false hbefore hnext)
    refine ⟨span :: spans, congrArg Nat.succ hlength, ?_⟩
    rw [items_of_comma hstart hread (comma_cons hcomma), if_pos rfl, hitems]
    rfl

end CatalystAsm.Statement
