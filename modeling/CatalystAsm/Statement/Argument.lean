import CatalystAsm.Statement.Expression

/-!
# Arguments of a statement

The scanners that directives are read with: names, commas, the end of the statement, and numbers of
a limited width.
-/

namespace CatalystAsm.Statement

/-- The name after blanks, and the span it takes; `what` tells what is missing without one. -/
def expectName (what : Bytes) (c : Cursor) : Scanned (Bytes × Span) :=
  let start := c.skipBlanks
  match name? start with
  | none => .error (.about [.expectedName what] start.here start)
  | some (n, d) => .ok ((n, start.spanTo d), d)

/-- Whether only blanks are left. -/
def atEnd (c : Cursor) : Bool := c.skipBlanks.atLimit

/-- The comma byte. -/
def commaByte : UInt8 := 0x2c

/-- Reads a comma, and tells whether there was one before the end of the statement. Other text in
its place is a fault. -/
def comma (c : Cursor) : Scanned Bool :=
  let d := c.skipBlanks
  if d.atLimit then .ok (false, d)
  else match d.eat? commaByte with
    | some e => .ok (true, e)
    | none => .error (.about [.expectedComma (.ofString "argument")] d.here d)

/-- Reads the comma that must stand before `what`. -/
def requiredComma (what : Bytes) (c : Cursor) : Scanned Unit :=
  let d := c.skipBlanks
  match d.eat? commaByte with
  | some e => .ok ((), e)
  | none => .error (.about [.expectedComma what] d.here d)

/-- Refuses any text that is left. -/
def noGarbage (c : Cursor) : Scanned Unit :=
  let d := c.skipBlanks
  if d.atLimit then .ok ((), d)
  else .error (.about [.garbageAtEnd] (d.spanTo d.toLimit) d.toLimit)

/-- Whether a value fits `bits` bits neither unsigned nor as a negative number. -/
def outOfRange (bits : Nat) (v : UInt64) : Bool :=
  if 64 ≤ bits then false
  else if v.toNat < 1 <<< bits then false
  else
    let least : Int := if bits = 0 then 0 else -((1 <<< (bits - 1) : Nat) : Int)
    0 ≤ v.toInt64.toInt || v.toInt64.toInt < least

/-- The warning about a value that loses bits. -/
def rangeWarning (bits : Nat) (v : UInt64) (span : Span) : Diagnostic :=
  { severity := .warning, code := .outOfRange, span
    message := .concat [.ofString "Value 0x", .hexOfNat v.toNat, .ofString " truncated to ",
      .ofNat bits, .ofString " bits"] }

/-- The warnings about cutting a value to `bits` bits: one or none. -/
def rangeWarnings (bits : Nat) (v : UInt64) (span : Span) : List Diagnostic :=
  if outOfRange bits v then [rangeWarning bits v span] else []

/-- An absolute expression cut to 32 bits, with the warnings about cutting it. -/
def word (symbols : Resolver) (c : Cursor) : Scanned (UInt32 × List Diagnostic) :=
  match absolute symbols c with
  | .error s => .error s
  | .ok ((v, span), d) => .ok ((v.toUInt32, rangeWarnings 32 v span), d)

/-! ## Lists -/

/-- An expression takes bytes. -/
theorem length_rest_expression {symbols : Resolver} {c d : Cursor} {v : Value × Span}
    (h : expression symbols c = .ok (v, d)) : d.rest.length < c.rest.length := by
  unfold expression at h
  dsimp only at h
  split at h
  next => cases h
  next hd _ => cases h; have := c.length_rest_skipBlanks; omega

/-- An absolute expression takes bytes. -/
theorem length_rest_absolute {symbols : Resolver} {c d : Cursor} {v : UInt64 × Span}
    (h : absolute symbols c = .ok (v, d)) : d.rest.length < c.rest.length := by
  unfold absolute at h
  split at h
  next => cases h
  next he =>
    split at h
    · cases h
    · cases h; exact length_rest_expression he

/-- A name takes bytes. -/
theorem length_rest_expectName {what : Bytes} {c d : Cursor} {v : Bytes × Span}
    (h : expectName what c = .ok (v, d)) : d.rest.length < c.rest.length := by
  unfold expectName at h
  dsimp only at h
  split at h
  next => cases h
  next hn =>
    cases h
    have := length_rest_name? hn
    have := c.length_rest_skipBlanks
    omega

/-- The rest of a string takes bytes, the quote at least. -/
theorem length_rest_stringBody {start chunk c d : Cursor} {out v : Bytes}
    (h : stringBody start out chunk c = .ok (v, d)) : d.rest.length < c.rest.length := by
  fun_induction stringBody start out chunk c with
  | case1 => cases h
  | case2 out chunk c b rest hr _ => cases h; simp [Cursor.advance, hr]
  | case3 => cases h
  | case4 out chunk c b rest hr _ _ v' e he ih =>
    have := length_rest_escape he
    have := ih h
    omega
  | case5 out chunk c b rest hr _ _ ih =>
    have := ih h
    have := c.length_rest_advance 1
    omega

/-- A string takes bytes. -/
theorem length_rest_quotedString {c d : Cursor} {v : Bytes}
    (h : quotedString c = .ok (v, d)) : d.rest.length < c.rest.length := by
  unfold quotedString at h
  dsimp only at h
  split at h
  next => cases h
  next hq =>
    have := length_rest_stringBody h
    have := Cursor.length_rest_eat? hq
    have := c.length_rest_skipBlanks
    omega

/-- A comma takes a byte. -/
theorem length_rest_comma {c d : Cursor} (h : comma c = .ok (true, d)) :
    d.rest.length < c.rest.length := by
  unfold comma at h
  dsimp only at h
  split at h
  · cases h
  · split at h
    next hq =>
      cases h
      have := Cursor.length_rest_eat? hq
      have := c.length_rest_skipBlanks
      omega
    next => cases h

/-- The items separated by commas up to the end of the statement, and the stop if one was met. With
`open_` there may be no item at all, or none after the last comma. -/
def items {α : Type} (scan : Cursor → Scanned α)
    (shorter : ∀ {c d v}, scan c = .ok (v, d) → d.rest.length < c.rest.length) (open_ : Bool)
    (c : Cursor) : List α × Option Stop :=
  if open_ && atEnd c then ([], none)
  else
    match _ : scan c with
    | .error s => ([], some s)
    | .ok (v, d) =>
      match _ : comma d with
      | .error s => ([v], some s)
      | .ok (false, _) => ([v], none)
      | .ok (true, e) =>
        let (rest, stop) := items scan shorter open_ e
        (v :: rest, stop)
termination_by c.rest.length
decreasing_by
  have := shorter ‹scan c = .ok (v, d)›
  have := length_rest_comma ‹comma d = .ok (true, e)›
  omega

/-! ## Comments -/

/-- The number of bytes before the first `#` or `;` outside a string or character literal, all of
them when there is none. `quote` is the quote of the literal that the text starts in. -/
def uncommented (quote : Option UInt8) : Bytes → Nat
  | [] => 0
  | b :: rest =>
    match quote with
    | some q =>
      if b == backslash then
        match rest with
        | [] => 1
        | _ :: rest => 2 + uncommented quote rest
      else if b == q then 1 + uncommented none rest
      else 1 + uncommented quote rest
    | none =>
      if b == doubleQuote || b == singleQuote then 1 + uncommented (some b) rest
      else if b == 0x23 || b == 0x3b then 0
      else 1 + uncommented none rest

/-- The offset where the statement in `[start, stop)` of a text ends: at its comment or at `stop`.
A search with an index of 32 bits comes to the same offset on every line that leaves the index room
behind it (`finds_statementEnd`). -/
def statementEnd (content : Bytes) (start stop : Nat) : Nat :=
  if stop ≤ start then stop
  else start + uncommented none ((content.drop start).take (stop - start))

/-- What stands before a comment is no longer than the text. -/
theorem uncommented_le (quote : Option UInt8) (b : Bytes) : uncommented quote b ≤ b.length := by
  fun_induction uncommented quote b with
  | _ => simp_all <;> omega

/-- A statement ends within its line. -/
theorem statementEnd_le (content : Bytes) (start stop : Nat) :
    statementEnd content start stop ≤ stop := by
  unfold statementEnd
  split
  · exact Nat.le_refl _
  · have hlen := uncommented_le none ((content.drop start).take (stop - start))
    rw [List.length_take] at hlen
    omega

end CatalystAsm.Statement
