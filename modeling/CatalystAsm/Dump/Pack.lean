import CatalystAsm.Bytes

/-!
# A self-describing binary format

Every value starts with a head that tells its kind and, where needed, its length. Numbers stand
highest byte first. A codec writes a value and reads one over an earlier value: what the bytes do
not give stays as it was, and a missing value is zero.
-/

namespace CatalystAsm.Dump

/-- The head of a value: a whole value of no or fixed length, or the length of what follows. -/
inductive Head where
  | missing
  | flag (b : Bool)
  | number (v : UInt64)
  | text (n : Nat)
  | blob (n : Nat)
  | list (n : Nat)
  | record (n : Nat)
  /-- a value of another kind that takes `n` bytes -/
  | other (n : Nat)
  deriving DecidableEq, Repr

/-! ## Writing heads -/

/-- A code followed by a number of `width` bytes. -/
def coded (code : UInt8) (width v : Nat) : Bytes := code :: Bytes.bigEndian width v

/-- A missing value. -/
def missing : Bytes := [0xc0]

/-- The head of a text of `n` bytes. -/
def textHead (n : Nat) : Bytes :=
  if n < 32 then [0xa0 + UInt8.ofNat n]
  else if n < 0x100 then coded 0xd9 1 n
  else if n < 0x10000 then coded 0xda 2 n
  else coded 0xdb 4 n

/-- The head of a byte string of `n` bytes. -/
def blobHead (n : Nat) : Bytes :=
  if n < 0x100 then coded 0xc4 1 n
  else if n < 0x10000 then coded 0xc5 2 n
  else coded 0xc6 4 n

/-- The head of a list of `n` values. -/
def listHead (n : Nat) : Bytes :=
  if n < 16 then [0x90 + UInt8.ofNat n]
  else if n < 0x10000 then coded 0xdc 2 n
  else coded 0xdd 4 n

/-- The head of a record of `n` named values. -/
def recordHead (n : Nat) : Bytes :=
  if n < 16 then [0x80 + UInt8.ofNat n]
  else if n < 0x10000 then coded 0xde 2 n
  else coded 0xdf 4 n

/-- A text. -/
def text (b : Bytes) : Bytes := textHead b.length ++ b

/-- A byte string. -/
def blob (b : Bytes) : Bytes := blobHead b.length ++ b

/-! ## Reading heads -/

/-- The first `n` bytes and the rest. -/
def take? (n : Nat) (b : Bytes) : Option (Bytes × Bytes) :=
  if n ≤ b.length then some (b.take n, b.drop n) else none

/-- A number of `width` bytes, put into a head. -/
def sized (width : Nat) (make : Nat → Head) (b : Bytes) : Option (Head × Bytes) :=
  (take? width b).map fun (digits, rest) => (make (Bytes.ofBigEndian digits), rest)

/-- A number of `8 * width` bits with its sign, extended to 64 bits. -/
def signed (width : Nat) (v : Nat) : Head :=
  .number (if v < 1 <<< (8 * width - 1) then UInt64.ofNat v
    else UInt64.ofNat (v + UInt64.size - (1 <<< (8 * width))))

/-- Reads the head of a value. -/
def head? : Bytes → Option (Head × Bytes)
  | [] => none
  | code :: b =>
    if code < 0x80 then some (.number code.toUInt64, b)
    else if code < 0x90 then some (.record (code.toNat - 0x80), b)
    else if code < 0xa0 then some (.list (code.toNat - 0x90), b)
    else if code < 0xc0 then some (.text (code.toNat - 0xa0), b)
    else if 0xe0 ≤ code then some (signed 1 code.toNat, b)
    else match code.toNat with
      | 0xc0 => some (.missing, b)
      | 0xc2 => some (.flag false, b)
      | 0xc3 => some (.flag true, b)
      | 0xc4 => sized 1 .blob b
      | 0xc5 => sized 2 .blob b
      | 0xc6 => sized 4 .blob b
      | 0xc7 => sized 1 (fun n => .other (n + 1)) b
      | 0xc8 => sized 2 (fun n => .other (n + 1)) b
      | 0xc9 => sized 4 (fun n => .other (n + 1)) b
      | 0xca => some (.other 4, b)
      | 0xcb => some (.other 8, b)
      | 0xcc => sized 1 (fun v => .number (UInt64.ofNat v)) b
      | 0xcd => sized 2 (fun v => .number (UInt64.ofNat v)) b
      | 0xce => sized 4 (fun v => .number (UInt64.ofNat v)) b
      | 0xcf => sized 8 (fun v => .number (UInt64.ofNat v)) b
      | 0xd0 => sized 1 (signed 1) b
      | 0xd1 => sized 2 (signed 2) b
      | 0xd2 => sized 4 (signed 4) b
      | 0xd3 => sized 8 (fun v => .number (UInt64.ofNat v)) b
      | 0xd4 => some (.other 2, b)
      | 0xd5 => some (.other 3, b)
      | 0xd6 => some (.other 5, b)
      | 0xd7 => some (.other 9, b)
      | 0xd8 => some (.other 17, b)
      | 0xd9 => sized 1 .text b
      | 0xda => sized 2 .text b
      | 0xdb => sized 4 .text b
      | 0xdc => sized 2 .list b
      | 0xdd => sized 4 .list b
      | 0xde => sized 2 .record b
      | 0xdf => sized 4 .record b
      | _ => none

/-- Taking bytes leaves no more than there were. -/
theorem length_take? {n : Nat} {b x rest : Bytes} (h : take? n b = some (x, rest)) :
    rest.length ≤ b.length := by
  unfold take? at h
  split at h
  · cases h; simp
  · cases h

/-- Reading a length leaves no more bytes than there were. -/
theorem length_sized {n : Nat} {make : Nat → Head} {b rest : Bytes} {h : Head}
    (e : sized n make b = some (h, rest)) : rest.length ≤ b.length := by
  unfold sized at e
  obtain ⟨⟨x, r⟩, hx, hr⟩ := Option.map_eq_some_iff.1 e
  cases hr
  exact length_take? hx

/-- Reading a head takes at least one byte. -/
theorem length_head? {b rest : Bytes} {h : Head} (e : head? b = some (h, rest)) :
    rest.length < b.length := by
  unfold head? at e
  split at e
  next => cases e
  next code b =>
    rw [List.length_cons]
    repeat' split at e
    all_goals first
      | exact Nat.lt_succ_of_le (length_sized e)
      | cases e <;> omega

/-- The bytes and the number of values that still belong to a value after its head. -/
def Head.rest : Head → Nat × Nat
  | .text n | .blob n | .other n => (n, 0)
  | .list n => (0, n)
  | .record n => (0, 2 * n)
  | _ => (0, 0)

/-- Passes over `count` values. -/
def skip (count : Nat) (b : Bytes) : Option Bytes :=
  match count with
  | 0 => some b
  | count + 1 =>
    match _ : head? b with
    | none => none
    | some (h, rest) =>
      match _ : take? h.rest.1 rest with
      | none => none
      | some (_, tail) => skip (count + h.rest.2) tail
termination_by b.length
decreasing_by
  have := length_head? ‹head? b = some (h, rest)›
  have := length_take? ‹take? h.rest.1 rest = some (_, tail)›
  omega

/-! ## Codecs -/

/-- How a value is written, and how one is read over an earlier one. -/
structure Codec (α : Type) where
  write : α → Bytes
  read : α → Bytes → Option (α × Bytes)

namespace Codec

/-- A number that is written with `width` bytes and read from any number. -/
def ofWidth {α : Type} (code : UInt8) (width : Nat) (toNat : α → Nat) (ofBits : UInt64 → α) :
    Codec α where
  write v := coded code width (toNat v)
  read _ b :=
    match head? b with
    | some (.number v, rest) => some (ofBits v, rest)
    | some (.missing, rest) => some (ofBits 0, rest)
    | _ => none

/-- An 8-bit number. -/
def uint8 : Codec UInt8 := ofWidth 0xcc 1 (·.toNat) (·.toUInt8)

/-- A 16-bit number. -/
def uint16 : Codec UInt16 := ofWidth 0xcd 2 (·.toNat) (·.toUInt16)

/-- A 32-bit number. -/
def uint32 : Codec UInt32 := ofWidth 0xce 4 (·.toNat) (·.toUInt32)

/-- A 64-bit number. -/
def uint64 : Codec UInt64 := ofWidth 0xcf 8 (·.toNat) id

/-- A flag. -/
def bool : Codec Bool where
  write v := [if v then 0xc3 else 0xc2]
  read _ b :=
    match head? b with
    | some (.flag v, rest) => some (v, rest)
    | some (.missing, rest) => some (false, rest)
    | _ => none

/-- The bytes of a text or byte string; none for a missing value. -/
def readBytes (b : Bytes) : Option (Option Bytes × Bytes) :=
  match head? b with
  | some (.text n, rest) | some (.blob n, rest) =>
    (take? n rest).map fun (x, rest) => (some x, rest)
  | some (.missing, rest) => some (none, rest)
  | _ => none

/-- A text. -/
def text : Codec Bytes where
  write := Dump.text
  read _ b := (readBytes b).map fun (x, rest) => (x.getD [], rest)

/-- A byte string that may be missing. -/
def blob : Codec (Option Bytes) where
  write v := v.elim missing Dump.blob
  read _ b := readBytes b

/-- `n` values, each read over the one at its place in `current` or over `zero`. -/
def readList {α : Type} (c : Codec α) (zero : α) :
    Nat → List α → Bytes → Option (List α × Bytes)
  | 0, _, b => some ([], b)
  | n + 1, current, b =>
    match c.read (current.headD zero) b with
    | none => none
    | some (a, rest) => (readList c zero n current.tail rest).map fun (as, rest) => (a :: as, rest)

/-- A list that may be missing. -/
def list {α : Type} (c : Codec α) (zero : α) : Codec (Option (List α)) where
  write v := v.elim missing fun l => listHead l.length ++ l.flatMap c.write
  read current b :=
    match head? b with
    | some (.missing, rest) => some (none, rest)
    | some (.list n, rest) =>
      (readList c zero n (current.getD []) rest).map fun (l, rest) => (some l, rest)
    | _ => none

/-- A list of fixed length; fewer values leave the last ones as they were. -/
def fixedList {α : Type} (c : Codec α) (zero : α) : Codec (List α) where
  write l := listHead l.length ++ l.flatMap c.write
  read current b :=
    match head? b with
    | some (.missing, rest) => some (current, rest)
    | some (.list n, rest) =>
      if current.length < n then none
      else (readList c zero n current rest).map fun (l, rest) => (l ++ current.drop n, rest)
    | _ => none

/-- A byte string of fixed length; fewer bytes leave the last ones as they were. -/
def fixedBlob : Codec Bytes where
  write := Dump.blob
  read current b :=
    match head? b with
    | some (.missing, rest) => some (current, rest)
    | some (.text n, rest) | some (.blob n, rest) =>
      if current.length < n then none
      else (take? n rest).map fun (x, rest) => (x ++ current.drop n, rest)
    | _ => none

/-- A value that may be missing. -/
def optional {α : Type} (c : Codec α) (zero : α) : Codec (Option α) where
  write v := v.elim missing c.write
  read current b :=
    match head? b with
    | some (.missing, rest) => some (none, rest)
    | _ => (c.read (current.getD zero) b).map fun (a, rest) => (some a, rest)

end Codec

/-! ## Records -/

/-- A named part of a record. -/
structure Field (σ : Type) where
  name : Bytes
  write : σ → Bytes
  read : σ → Bytes → Option (σ × Bytes)

/-- The field of a record that holds a value of a codec. -/
def field {σ α : Type} (name : String) (c : Codec α) (get : σ → α) (set : σ → α → σ) : Field σ where
  name := .ofString name
  write s := c.write (get s)
  read s b := (c.read (get s) b).map fun (v, rest) => (set s v, rest)

/-- Reads `n` named values; names that are no fields are passed over with their values. -/
def readNamed {σ : Type} (fields : List (Field σ)) : Nat → σ → Bytes → Option (σ × Bytes)
  | 0, s, b => some (s, b)
  | n + 1, s, b =>
    match Codec.readBytes b with
    | none => none
    | some (name, b) =>
      match fields.find? fun f => f.name == name.getD [] with
      | some f =>
        match f.read s b with
        | none => none
        | some (s, b) => readNamed fields n s b
      | none =>
        match skip 1 b with
        | none => none
        | some b => readNamed fields n s b

/-- Reads the fields in their order, without names. -/
def readInOrder {σ : Type} : List (Field σ) → σ → Bytes → Option (σ × Bytes)
  | [], s, b => some (s, b)
  | f :: fields, s, b =>
    match f.read s b with
    | none => none
    | some (s, b) => readInOrder fields s b

/-- A record: written with names, read with names in any order or as the list of all its values. -/
def Codec.record {σ : Type} (zero : σ) (fields : List (Field σ)) : Codec σ where
  write s := recordHead fields.length ++ fields.flatMap fun f => Dump.text f.name ++ f.write s
  read s b :=
    match head? b with
    | some (.missing, rest) => some (zero, rest)
    | some (.record n, rest) => readNamed fields n s rest
    | some (.list n, rest) =>
      if n = 0 then some (zero, rest)
      else if n = fields.length then readInOrder fields s rest
      else none
    | _ => none

end CatalystAsm.Dump
