import CatalystAsm.Bytes

/-!
# Decimal text

The decimal text of a number, digit by digit: its last byte is the digit of the number modulo ten,
and what stands before it is the text of the number divided by ten (`Bytes.ofNat_eq`).
-/

namespace CatalystAsm.Bytes

/-- A text of decimal digits has one byte for each of them. -/
theorem ofString_ofList {l : List Char} (h : ∀ c ∈ l, c.isDigit = true) :
    ofString (String.ofList l) = l.map char := by
  rw [ofString, String.toUTF8_eq_toByteArray, String.toByteArray_ofList]
  induction l with
  | nil => rfl
  | cons c l ih =>
    have hc : c.utf8Size = 1 := by
      have hdigit := h c List.mem_cons_self
      rw [Char.isDigit, Bool.and_eq_true, decide_eq_true_eq, decide_eq_true_eq] at hdigit
      rw [Char.utf8Size_eq_one_iff]
      exact UInt32.le_trans hdigit.2 (by decide)
    have hrest := ih fun d hd => h d (List.mem_cons_of_mem c hd)
    rw [List.utf8Encode_cons, List.utf8Encode_singleton, String.utf8EncodeChar_eq_singleton hc,
      ByteArray.data_append, Array.toList_append, hrest, List.map_cons]
    rfl

theorem ofNat_eq_map (n : Nat) : ofNat n = (Nat.toDigits 10 n).map char := by
  rw [ofNat, Nat.toString_eq_repr, Nat.repr_eq_ofList_toDigits]
  exact ofString_ofList fun c hc => Nat.isDigit_of_mem_toDigits (by decide) (by decide) hc

/-- The byte of a decimal digit. -/
def digit (d : Nat) : UInt8 := UInt8.ofNat (0x30 + d)

/-- **The last digit of a decimal text is that of the number modulo ten**, and the digits before it
are those of the number divided by ten. -/
theorem ofNat_eq (n : Nat) :
    ofNat n = if n < 10 then [digit n] else ofNat (n / 10) ++ [digit (n % 10)] := by
  have hdigit : ∀ d < 10, char d.digitChar = digit d := by decide
  rw [ofNat_eq_map, Nat.toDigits_eq_if (by decide)]
  split
  · rename_i hlt
    rw [List.map_singleton, hdigit n hlt]
  · rw [List.map_append, List.map_singleton, hdigit _ (Nat.mod_lt n (by decide)), ofNat_eq_map]

end CatalystAsm.Bytes
