import CatalystAsm.Text.Character
import CatalystAsm.Text.ClusterData

/-!
# Clusters

The characters of a text fall into clusters, each of which is seen as one character: a letter with
its marks, a syllable of parts, a picture with its modifiers, a flag.
-/

namespace CatalystAsm.Text

namespace Cluster

/-- The part that a character plays in clusters. -/
inductive Role where
  | carriageReturn | lineFeed | control | extend | joiner | indicator | prepend | spacing
  | lead | vowel | final | leadVowel | syllable | picture | other
  deriving DecidableEq, Repr, Inhabited

def controls : Array (Nat × Nat) := Table.ranges controlRows

def extenders : Array (Nat × Nat) := Table.ranges extendRows

def prepended : Array (Nat × Nat) := Table.ranges prependRows

def spacings : Array (Nat × Nat) := Table.ranges spacingRows

def pictures : Array (Nat × Nat) := Table.ranges pictureRows

/-- Whether a code point lies in a range. -/
def within (first last code : Nat) : Bool := first ≤ code && code ≤ last

/-- The role of a code point. -/
def roleOf (code : Nat) : Role :=
  if code = 0x0d then .carriageReturn
  else if code = 0x0a then .lineFeed
  else if within 0x20 0x7e code then .other
  else if Table.contains controls code then .control
  else if code = 0x200d then .joiner
  else if Table.contains extenders code then .extend
  else if within 0x1f1e6 0x1f1ff code then .indicator
  else if Table.contains prepended code then .prepend
  else if Table.contains spacings code then .spacing
  else if within 0x1100 0x115f code || within 0xa960 0xa97c code then .lead
  else if within 0x1160 0x11a7 code || within 0xd7b0 0xd7c6 code then .vowel
  else if within 0x11a8 0x11ff code || within 0xd7cb 0xd7fb code then .final
  else if within 0xac00 0xd7a3 code then
    if (code - 0xac00) % 28 = 0 then .leadVowel else .syllable
  else if Table.contains pictures code then .picture
  else .other

/-- The role of a character; a byte that fits no encoding has none. -/
def role (c : Utf8.Character) : Role := (c.code.map roleOf).getD .other

/-- What the end of a cluster tells about the next character. -/
structure Ending where
  role : Role
  /-- a picture and its modifiers -/
  afterPicture : Bool := false
  /-- a picture, its modifiers and a joiner -/
  afterJoinedPicture : Bool := false
  /-- an odd number of indicators -/
  halfFlag : Bool := false
  deriving Repr, Inhabited

/-- The end of a cluster after one more character. -/
def Ending.next (e : Ending) (r : Role) : Ending where
  role := r
  afterPicture := r == .picture || (e.afterPicture && r == .extend)
  afterJoinedPicture := e.afterPicture && r == .joiner
  halfFlag := r == .indicator && !(e.role == .indicator && e.halfFlag)

/-- Whether a character belongs to the cluster before it. -/
def Ending.takes (e : Ending) (r : Role) : Bool :=
  match e.role, r with
  | .carriageReturn, .lineFeed => true
  | .carriageReturn, _ => false
  | .lineFeed, _ => false
  | .control, _ => false
  | _, .carriageReturn => false
  | _, .lineFeed => false
  | _, .control => false
  | _, .extend => true
  | _, .joiner => true
  | _, .spacing => true
  | .prepend, _ => true
  | .lead, r => r == .lead || r == .vowel || r == .leadVowel || r == .syllable
  | .leadVowel, r => r == .vowel || r == .final
  | .vowel, r => r == .vowel || r == .final
  | .syllable, r => r == .final
  | .final, r => r == .final
  | .joiner, .picture => e.afterJoinedPicture
  | .indicator, .indicator => e.halfFlag
  | _, _ => false

/-- The first cluster, whose end so far is `e`, and the characters after it. -/
def split (e : Ending) : List Utf8.Character → List Utf8.Character × List Utf8.Character
  | [] => ([], [])
  | c :: rest =>
    if e.takes (role c) then
      let (taken, left) := split (e.next (role c)) rest
      (c :: taken, left)
    else ([], c :: rest)

/-- What is left behind a cluster is no longer than the text. -/
theorem length_split (e : Ending) (cs : List Utf8.Character) :
    (split e cs).2.length ≤ cs.length := by
  induction cs generalizing e with
  | nil => simp [split]
  | cons c rest ih =>
    rw [split]
    split
    · exact Nat.le_succ_of_le (ih _)
    · simp

/-- The clusters of a list of characters. -/
def ofCharacters : List Utf8.Character → List (List Utf8.Character)
  | [] => []
  | c :: rest =>
    let start : Ending := { role := .other }
    let parts := split (start.next (role c)) rest
    (c :: parts.1) :: ofCharacters parts.2
termination_by cs => cs.length
decreasing_by exact Nat.lt_succ_of_le (length_split _ _)

end Cluster

/-- The clusters of a text. -/
def clusters (b : Bytes) : List (List Utf8.Character) := Cluster.ofCharacters (Utf8.characters b)

end CatalystAsm.Text
