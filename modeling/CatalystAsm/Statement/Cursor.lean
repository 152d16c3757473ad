import CatalystAsm.Source.Span

/-!
# Cursors

A cursor stands at an offset of a source file and holds the bytes of the statement that are not
read yet. Reading moves the offset and shortens the rest by the same amount, so the end of the
statement stays where it is.
-/

namespace CatalystAsm

/-- A place in a statement: the offset in the file and the bytes still to be read. -/
structure Cursor where
  file : UInt32
  off : Nat
  rest : Bytes
  deriving DecidableEq, Repr, Inhabited

namespace Cursor

/-- A cursor over the bytes `[start, stop)` of a text, cut to the text's length. -/
def ofRange (file : UInt32) (content : Bytes) (start stop : Nat) : Cursor :=
  let stop := min stop content.length
  let start := min start stop
  ⟨file, start, (content.drop start).take (stop - start)⟩

/-- The offset where the statement ends. -/
def limit (c : Cursor) : Nat := c.off + c.rest.length

/-- Whether nothing is left to read. -/
def atLimit (c : Cursor) : Bool := c.rest.isEmpty

/-- The next byte. -/
def peek? (c : Cursor) : Option UInt8 := c.rest.head?

/-- Moves past `n` bytes. -/
def advance (c : Cursor) (n : Nat) : Cursor := ⟨c.file, c.off + n, c.rest.drop n⟩

/-- Moves past the longest run of bytes that satisfy `p`. -/
def skipWhile (c : Cursor) (p : UInt8 → Bool) : Cursor := c.advance (c.rest.takeWhile p).length

/-- Moves to the end of the statement. -/
def toLimit (c : Cursor) : Cursor := ⟨c.file, c.limit, []⟩

/-- The cursor after `b`, when `b` is next. -/
def eat? (c : Cursor) (b : UInt8) : Option Cursor :=
  if c.peek? = some b then some (c.advance 1) else none

/-- The cursor after `word`, when the rest begins with it. -/
def eatWord? (c : Cursor) (word : Bytes) : Option Cursor :=
  if word.isPrefixOf c.rest then some (c.advance word.length) else none

/-- The empty span where the cursor stands. -/
def here (c : Cursor) : Span := .point c.file (UInt32.ofNat c.off)

/-- The span from this cursor to a later one. -/
def spanTo (c d : Cursor) : Span := ⟨c.file, UInt32.ofNat c.off, UInt32.ofNat d.off⟩

/-- The bytes between this cursor and a later one. -/
def sliceTo (c d : Cursor) : Bytes := c.rest.take (d.off - c.off)

/-- Whether a byte is blank inside a statement: space, tab, vertical tab, form feed or carriage
return. -/
def isBlank (b : UInt8) : Bool := b == 0x20 || b == 0x09 || b == 0x0b || b == 0x0c || b == 0x0d

/-- Moves past blanks. -/
def skipBlanks (c : Cursor) : Cursor := c.skipWhile isBlank

@[simp] theorem limit_toLimit (c : Cursor) : c.toLimit.limit = c.limit := by
  simp [toLimit, limit]

/-- Moving keeps the end of the statement, as long as there are bytes to move past. -/
theorem limit_advance {c : Cursor} {n : Nat} (h : n ≤ c.rest.length) :
    (c.advance n).limit = c.limit := by
  simp only [advance, limit, List.length_drop]; omega

theorem length_rest_advance (c : Cursor) (n : Nat) :
    (c.advance n).rest.length = c.rest.length - n := by simp [advance]

theorem length_rest_skipWhile (c : Cursor) (p : UInt8 → Bool) :
    (c.skipWhile p).rest.length ≤ c.rest.length := by simp [skipWhile, advance]

theorem length_rest_skipBlanks (c : Cursor) : c.skipBlanks.rest.length ≤ c.rest.length :=
  length_rest_skipWhile c isBlank

/-- Eating a byte takes it. -/
theorem length_rest_eat? {c d : Cursor} {b : UInt8} (h : c.eat? b = some d) :
    d.rest.length < c.rest.length := by
  unfold eat? at h
  split at h
  next hp =>
    cases h
    cases hr : c.rest with
    | nil => simp [peek?, hr] at hp
    | cons _ _ => simp [advance, hr]
  next => cases h

end Cursor

end CatalystAsm
