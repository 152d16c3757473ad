import CatalystAsm.Text.Character

/-!
# Paths

Slash-separated paths of a file tree, handled as text: the shortest equivalent form, the last
element, the directory, the extension, and one path seen from another. From these it follows how the
files of a build are called in reports, and where their binaries go.
-/

namespace CatalystAsm.Path

/-- The byte between the elements of a path. -/
def slash : UInt8 := 0x2f

/-- The byte before an extension. -/
def dot : UInt8 := 0x2e

/-- The path of the directory itself. -/
def here : Bytes := [dot]

/-- The element that leads to the directory above. -/
def up : Bytes := [dot, dot]

/-- Whether a path starts at the root. -/
def isRooted (p : Bytes) : Bool := p.head? == some slash

/-- The texts between slashes, empty ones included. -/
def elements (p : Bytes) : List Bytes := p.splitOn slash

/-- Takes one more element onto the reversed list of elements kept so far. -/
def keepElement (rooted : Bool) (kept : List Bytes) (e : Bytes) : List Bytes :=
  if e.isEmpty || e == here then kept
  else if e == up then
    match kept with
    | [] => if rooted then [] else [up]
    | last :: above => if last == up then up :: kept else above
  else e :: kept

/-- The elements of a path that remain when empty elements, `.` and `x/..` are taken out. -/
def cleanElements (p : Bytes) : List Bytes :=
  ((elements p).foldl (keepElement (isRooted p)) []).reverse

/-- The shortest path equivalent to `p` as text. -/
def clean (p : Bytes) : Bytes :=
  let body := Bytes.intercalate [slash] (cleanElements p)
  if isRooted p then slash :: body else if body.isEmpty then here else body

/-- The non-empty paths one below the other, cleaned. -/
def join (parts : List Bytes) : Bytes :=
  match parts.filter (!·.isEmpty) with
  | [] => []
  | kept => clean (Bytes.intercalate [slash] kept)

/-- The path seen from the root, for the working directory `cwd`. -/
def absolute (cwd p : Bytes) : Bytes := if isRooted p then clean p else join [cwd, p]

/-- The text after the last slash. -/
def afterSlash (p : Bytes) : Bytes := (p.reverse.takeWhile (· != slash)).reverse

/-- The last element, without the slashes that follow it. -/
def base (p : Bytes) : Bytes :=
  if p.isEmpty then here
  else
    let stripped := (p.reverse.dropWhile (· == slash)).reverse
    if stripped.isEmpty then [slash] else afterSlash stripped

/-- All but the last element, cleaned. -/
def directory (p : Bytes) : Bytes := clean (p.reverse.dropWhile (· != slash)).reverse

/-- The text from the last dot of the last element on, or nothing. -/
def extension (p : Bytes) : Bytes :=
  let name := afterSlash p
  if name.contains dot then dot :: (name.reverse.takeWhile (· != dot)).reverse else []

/-- What is left of two lists of elements after their common start. -/
def dropCommon : List Bytes → List Bytes → List Bytes × List Bytes
  | a :: as, b :: bs => if a == b then dropCommon as bs else (a :: as, b :: bs)
  | as, bs => (as, bs)

/-- The path from directory `from` to `target`, unless text alone cannot tell it: one is rooted and
the other not, or `from` leads upwards past their common start. -/
def relative? (origin target : Bytes) : Option Bytes :=
  if isRooted origin != isRooted target then none
  else
    let (back, ahead) := dropCommon (cleanElements origin) (cleanElements target)
    if back.head? == some up then none
    else
      let steps := back.map (fun _ => up) ++ ahead
      some (if steps.isEmpty then here else Bytes.intercalate [slash] steps)

end CatalystAsm.Path

namespace CatalystAsm.BuildPath

/-! ## Paths of a build -/

/-- The cleaned path of a file, or the part below `base` when the file lies there; `base` is seen
from the root. A path below `base` whose first element begins with two dots stays as it is. -/
def display (cwd : Bytes) (base : Option Bytes) (file : Bytes) : Bytes :=
  let cleaned := Path.clean file
  match base.bind fun b => Path.relative? b (Path.absolute cwd cleaned) with
  | some below => if below == Path.here || Path.up.isPrefixOf below then cleaned else below
  | none => cleaned

/-- The list without the entries that came before. -/
def withoutRepeats (paths : List Bytes) : List Bytes :=
  paths.foldl (fun kept p => if kept.contains p then kept else kept ++ [p]) []

/-- The files as a report calls them, without empty entries and repeats. A blank `base` shortens
nothing. -/
def displayAll (cwd base : Bytes) (files : List Bytes) : List Bytes :=
  let base := if (Text.trim base).isEmpty then none else some (Path.absolute cwd base)
  withoutRepeats ((files.filter (!·.isEmpty)).map (display cwd base))

/-- The binary of `source`: the name with the ending `.bin`, in `directory`, or beside the source
when `directory` is empty. -/
def output (source directory : Bytes) : Bytes :=
  let name := Path.base source
  let stem := (Bytes.dropEnd? (Path.extension source) name).getD name
  let place := if directory.isEmpty then Path.directory source else directory
  Path.join [place, stem ++ .ofString ".bin"]

end CatalystAsm.BuildPath
