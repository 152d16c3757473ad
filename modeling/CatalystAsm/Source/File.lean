import CatalystAsm.Path
import CatalystAsm.Source.Span

/-!
# Source files

The texts of one run, with the map between byte offsets and line positions. Lines end at a newline
byte; the text after the last newline is a line too, even when it is empty.
-/

namespace CatalystAsm

/-- How the content of a file was obtained. -/
structure FileFlags where
  bits : UInt8 := 0
  deriving DecidableEq, Repr, Inhabited

namespace FileFlags

/-- The text is not from a file tree. -/
def inMemory : FileFlags := ⟨1⟩

/-- Whether the text is not from a file tree. -/
def isInMemory (f : FileFlags) : Bool := f.bits &&& 1 != 0

/-- A byte order mark was taken off. -/
def hadMark : FileFlags := ⟨2⟩

/-- Line ends of two bytes were made one. -/
def hadLongLineEnds : FileFlags := ⟨4⟩

/-- Both records together. -/
def and (a b : FileFlags) : FileFlags := ⟨a.bits ||| b.bits⟩

end FileFlags

/-- The newline byte. -/
def newline : UInt8 := 0x0a

/-- The offsets of the newlines of a text that starts at offset `off`. -/
def newlineOffsets (off : Nat) : Bytes → List Nat
  | [] => []
  | b :: rest =>
    if b == newline then off :: newlineOffsets (off + 1) rest else newlineOffsets (off + 1) rest

/-- One source text. -/
structure SourceFile where
  id : UInt32
  path : Bytes
  content : Bytes
  newlines : List Nat := newlineOffsets 0 content
  flags : FileFlags := {}
  deriving Repr, Inhabited

namespace SourceFile

/-- The line and column of a byte offset: the line is one more than the number of newlines before
the offset. -/
def position (f : SourceFile) (off : UInt32) : Position :=
  let passed := f.newlines.takeWhile (· < off.toNat)
  let lineStart : UInt32 := (passed.getLast?.map fun n => UInt32.ofNat (n + 1)).getD 0
  ⟨UInt32.ofNat passed.length + 1, off - lineStart + 1⟩

/-- The number of lines; a newline at the very end starts no new one. -/
def lineCount (f : SourceFile) : Nat :=
  match f.content.getLast? with
  | none => 0
  | some b => f.newlines.length + if b == newline then 0 else 1

/-- The byte range of line `n`, counted from one, without its newline. -/
def lineBounds (f : SourceFile) (n : Nat) : Option (Nat × Nat) :=
  let stop := (f.newlines[n - 1]?).getD f.content.length
  match n with
  | 0 => none
  | 1 => some (0, stop)
  | n + 2 => (f.newlines[n]?).map fun before => (before + 1, stop)

/-- The byte ranges of all lines in order, without their newlines. -/
def lineRanges (f : SourceFile) : List (Nat × Nat) :=
  (0 :: f.newlines.map (· + 1)).zip (f.newlines ++ [f.content.length])

/-- The bytes of `[start, stop)`. -/
def slice (f : SourceFile) (start stop : Nat) : Bytes := (f.content.drop start).take (stop - start)

/-- The text of line `n`, empty past the end. -/
def line (f : SourceFile) (n : Nat) : Bytes :=
  match f.lineBounds n with
  | none => []
  | some (start, stop) => f.slice start stop

end SourceFile

/-- The files of one run; the number of a file is its place in the list. -/
structure FileSet where
  files : List SourceFile := []
  deriving Repr, Inhabited

namespace FileSet

/-- Registers a text under the cleaned form of its path. -/
def add (fs : FileSet) (path content : Bytes) (flags : FileFlags) : FileSet :=
  ⟨fs.files ++ [{ id := UInt32.ofNat fs.files.length, path := Path.clean path, content, flags }]⟩

/-- The file with number `id`. -/
def get? (fs : FileSet) (id : UInt32) : Option SourceFile := fs.files[id.toNat]?

end FileSet

/-- The byte order mark that may open a text. -/
def byteOrderMark : Bytes := [0xef, 0xbb, 0xbf]

/-- The text without the carriage returns that stand right before a newline. -/
def shortLineEnds (b : Bytes) : Bytes :=
  ((b.zip (b.tail ++ [0])).filter fun (c, next) => !(c == 0x0d && next == newline)).map (·.1)

/-- A text as it was stored, made ready for reading: without a byte order mark and with line ends
of one byte. -/
def readyText (stored : Bytes) : Bytes × FileFlags :=
  let (content, mark) : Bytes × FileFlags := match Bytes.dropStart? byteOrderMark stored with
    | some rest => (rest, .hadMark)
    | none => (stored, {})
  let short := shortLineEnds content
  if short.length < content.length then (short, mark.and .hadLongLineEnds) else (content, mark)

/-- How the path of a file is shown. -/
inductive PathStyle where
  | asIs
  /-- from the root; texts that are in no file tree keep their names -/
  | absolute
  | base
  deriving DecidableEq, Repr

/-- The shown path of a file, in working directory `cwd`. -/
def PathStyle.show (s : PathStyle) (cwd : Bytes) (f : SourceFile) : Bytes :=
  match s with
  | .asIs => f.path
  | .absolute => if f.flags.isInMemory then f.path else Path.absolute cwd f.path
  | .base => Path.base f.path

end CatalystAsm
