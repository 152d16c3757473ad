import CatalystAsm.Statement.Number

/-!
# Driver information

A binary names the driver it was made for, as a text and as a number. Each is found from the other
when only one is given.
-/

namespace CatalystAsm.DriverInfo

/-- The version that is assumed when a text names none. -/
def newestVersion : UInt32 := 99999909

/-- The words before the version in a text. -/
def marker : Bytes := .ofString "AMD-APP"

/-- The text that stands for a version: its hundreds and the rest, twice. -/
def ofVersion (version : UInt32) : Bytes :=
  let shown := Bytes.ofNat (version.toNat / 100) ++ .ofString "." ++ .ofNat (version.toNat % 100)
  .ofString "@(#) OpenCL 1.2 AMD-APP (" ++ shown ++ .ofString ").  Driver version: " ++ shown ++
    .ofString " (VM)"

/-- The base of a literal and the text of its digits: `0x`, `0b` or `0` announce one, unless the
text is nothing but `0`. -/
def literalDigits (b : Bytes) : Nat × Bytes :=
  match b with
  | 0x30 :: c :: rest =>
    if c == 0x78 || c == 0x58 then (16, rest)
    else if c == 0x62 || c == 0x42 then (2, rest)
    else (8, c :: rest)
  | _ => (10, b)

/-- The 32-bit unsigned literal that a text begins with, and the rest. -/
def literal? (b : Bytes) : Option (Nat × Bytes) :=
  let (base, text) := literalDigits b
  let digits := text.takeWhile fun c => Statement.isHexDigit c && Statement.digitValue c < base
  if b.isEmpty || (digits.isEmpty && base != 8) then none
  else
    let v := Statement.digitsValue base digits
    if UInt32.size ≤ v then none else some (v, text.drop digits.length)

/-- The text after the first marker. -/
def afterMarker? : Bytes → Option Bytes
  | [] => none
  | b :: rest =>
    match Bytes.dropStart? marker (b :: rest) with
    | some found => some found
    | none => afterMarker? rest

/-- The version that a text names: after the marker and two bytes, two literals with a byte between
them, of which the first counts hundreds. -/
def versionOf? (info : Bytes) : Option UInt32 :=
  match afterMarker? info with
  | some (_ :: _ :: text) =>
    match literal? text with
    | some (major, _ :: rest) =>
      (literal? rest).map fun (minor, _) => UInt32.ofNat major * 100 + UInt32.ofNat minor
    | _ => none
  | _ => none

/-- The text and the version that a binary gets: a missing text is made from the version, a version
of zero is read from the text. -/
def resolve (info : Bytes) (version : UInt32) : Bytes × UInt32 :=
  if info.isEmpty then (ofVersion version, version)
  else if version != 0 then (info, version)
  else (info, (versionOf? info).getD newestVersion)

end CatalystAsm.DriverInfo
