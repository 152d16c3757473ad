import CatalystAsm.Source.File

/-!
# Spans on one line

No newline lies inside a line, so all offsets of a line have the same line number. A span that
begins and ends on one line (`SourceFile.OnOneLine`) is resolved to two positions of that line.
-/

namespace CatalystAsm

/-! ## Lines -/

/-- The lines of a text that begins at `off`, the first of which began at `start`, in one pass over
the text. -/
def linesFrom (start off : Nat) : Bytes → List (Nat × Nat)
  | [] => [(start, off)]
  | b :: rest =>
    if b == newline then (start, off) :: linesFrom (off + 1) (off + 1) rest
    else linesFrom start (off + 1) rest

/-- The lines lie between the places of newlines. -/
theorem linesFrom_eq_zip (start off : Nat) (b : Bytes) :
    linesFrom start off b = (start :: (newlineOffsets off b).map (· + 1)).zip
      (newlineOffsets off b ++ [off + b.length]) := by
  fun_induction linesFrom start off b with
  | case1 start off => rfl
  | case2 start off b rest hnewline ih =>
    rw [newlineOffsets, if_pos hnewline, ih, List.length_cons, Nat.add_right_comm,
      Nat.add_assoc off]
    rfl
  | case3 start off b rest hother ih =>
    rw [newlineOffsets, if_neg hother, ih, List.length_cons, Nat.add_right_comm, Nat.add_assoc off]

namespace SourceFile

variable {f : SourceFile} {e : Nat × Nat} {s : Span}

/-- The lines of a file are those of its text, in one pass. -/
theorem lineRanges_eq (hf : f.newlines = newlineOffsets 0 f.content) :
    f.lineRanges = linesFrom 0 0 f.content := by
  rw [lineRanges, hf, linesFrom_eq_zip, Nat.zero_add]

end SourceFile

end CatalystAsm
