import CatalystAsm.Source.Span

/-!
# Diagnostics

A diagnostic has a severity, a numbered code, a message, the span it is about, and notes at other
spans.
-/

namespace CatalystAsm

/-- How serious a diagnostic is: 0 is information, 1 a warning, 2 an error. -/
structure Severity where
  rank : UInt8
  deriving DecidableEq, Repr, Inhabited

namespace Severity

def info : Severity := ⟨0⟩

def warning : Severity := ⟨1⟩

def error : Severity := ⟨2⟩

/-- The name in capitals. -/
def name (s : Severity) : String :=
  if s = info then "INFO" else if s = warning then "WARNING" else if s = error then "ERROR"
  else "UNKNOWN"

/-- The name as a word of a sentence. -/
def label (s : Severity) : String :=
  if s = info then "Info" else if s = warning then "Warning" else if s = error then "Error"
  else "Unknown"

end Severity

/-- The number of a kind of diagnostic. The thousands tell the part of the assembler: 1 statement
text, 2 assembly, 3 format rules, 4 files, 5 the binary. -/
structure Code where
  number : UInt16
  deriving DecidableEq, Repr, Inhabited

namespace Code

def badNumber : Code := ⟨1001⟩

def outOfRange : Code := ⟨1002⟩

def unterminatedString : Code := ⟨1003⟩

def badEscape : Code := ⟨1004⟩

def expectComma : Code := ⟨1005⟩

def garbageAtEnd : Code := ⟨1006⟩

def expectName : Code := ⟨1007⟩

def expectString : Code := ⟨1008⟩

def expectExpression : Code := ⟨1009⟩

def unknownDirective : Code := ⟨2001⟩

def instruction : Code := ⟨2002⟩

def symbolRedefined : Code := ⟨2003⟩

def undefinedSymbol : Code := ⟨2004⟩

def notAbsolute : Code := ⟨2005⟩

def divisionByZero : Code := ⟨2006⟩

def notWriteable : Code := ⟨2007⟩

def unknownDevice : Code := ⟨2008⟩

def unknownArchitecture : Code := ⟨2009⟩

def lateWordSize : Code := ⟨2010⟩

def structural : Code := ⟨2011⟩

def outsideKernel : Code := ⟨3001⟩

def lateConfig : Code := ⟨3002⟩

def lateNotes : Code := ⟨3003⟩

def illegalEntryPlace : Code := ⟨3004⟩

def illegalConfigPlace : Code := ⟨3005⟩

def unknownArgType : Code := ⟨3006⟩

def unknownQualifier : Code := ⟨3007⟩

def tooManyUserData : Code := ⟨3008⟩

def unknownUserDataClass : Code := ⟨3009⟩

def headerTruncated : Code := ⟨3010⟩

def unreadableFile : Code := ⟨4001⟩

def unwritableFile : Code := ⟨4002⟩

def noBinary : Code := ⟨5001⟩

/-- What each known code stands for. -/
def titles : List (UInt16 × String) := [
  (0, "Unknown error"),
  (1000, "Lexical information"),
  (1001, "Bad number"),
  (1002, "Value out of range"),
  (1003, "Unterminated string"),
  (1004, "Bad escape sequence"),
  (1005, "Expected comma"),
  (1006, "Garbage at end of line"),
  (1007, "Expected name"),
  (1008, "Expected string"),
  (1009, "Expected expression"),
  (2000, "Assembler information"),
  (2001, "Unknown pseudo-op"),
  (2002, "Instructions are not supported"),
  (2003, "Symbol redefined"),
  (2004, "Undefined symbol"),
  (2005, "Expression is not absolute"),
  (2006, "Division by zero"),
  (2007, "Section is not writeable"),
  (2008, "Unknown GPU device type"),
  (2009, "Unknown GPU architecture"),
  (2010, "Bitness changed after content"),
  (2011, "Section or kernel error"),
  (2012, "Data outside of any section"),
  (3000, "Format information"),
  (3001, "Pseudo-op allowed only inside kernel"),
  (3002, "Config after metadata, header or CAL notes"),
  (3003, "Metadata, header or CAL note after config"),
  (3004, "Illegal place of entry"),
  (3005, "Illegal place of configuration pseudo-op"),
  (3006, "Unknown kernel argument type"),
  (3007, "Unknown kernel argument qualifier"),
  (3008, "Too many user data elements"),
  (3009, "Unknown user data class"),
  (3010, "Kernel header truncated"),
  (4001, "I/O error loading file"),
  (4002, "I/O error writing file"),
  (5000, "Binary generation information"),
  (5001, "Binary generation failed")]

/-- What the code stands for. -/
def title (c : Code) : String := (titles.lookup c.number).getD "Unknown error"

/-- The code as it is shown: the part of the assembler and the number. -/
def id (c : Code) : String :=
  let n := c.number.toNat
  let shown (part : String) : String := part ++ toString n
  match n / 1000 with
  | 1 => shown "LEX"
  | 2 => shown "ASM"
  | 3 => shown "FMT"
  | 4 => shown "IO"
  | 5 => shown "BIN"
  | _ => "E0000"

/-- The code with its title. -/
def text (c : Code) : String := "[" ++ c.id ++ "]: " ++ c.title

end Code

/-- A remark at another place. -/
structure Note where
  span : Span
  message : Bytes
  deriving DecidableEq, Repr, Inhabited

/-- One message about a source text. -/
structure Diagnostic where
  severity : Severity
  code : Code
  message : Bytes
  span : Span
  notes : List Note := []
  deriving DecidableEq, Repr, Inhabited

end CatalystAsm
