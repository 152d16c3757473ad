import CatalystAsm.Bytes

/-!
# Stages

The build of a file goes through four stages, and reports its progress with one event whenever a
stage begins, ends or fails.
-/

namespace CatalystAsm

/-- A step of the build of one file. -/
inductive Stage where
  | assemble | prepare | layout | write
  deriving DecidableEq, Repr, Inhabited

namespace Stage

/-- The stages in the order in which a file goes through them. -/
def all : List Stage := [.assemble, .prepare, .layout, .write]

/-- The name of a stage. -/
def name : Stage → Bytes
  | .assemble => .ofString "assemble"
  | .prepare => .ofString "prepare"
  | .layout => .ofString "layout"
  | .write => .ofString "write"

/-- The number of stages before this one. -/
def index : Stage → Nat
  | .assemble => 0
  | .prepare => 1
  | .layout => 2
  | .write => 3

/-- The stage of that name. -/
def ofName? (name : Bytes) : Option Stage := all.find? fun s => s.name == name

/-- A stage stands in the list of all stages at its index. -/
theorem all_getElem?_index (s : Stage) : all[s.index]? = some s := by cases s <;> rfl

theorem index_lt (s : Stage) : s.index < all.length := by cases s <;> decide

end Stage

/-- Where a file stands within a stage. -/
inductive Status where
  | queued | working | done | error
  deriving DecidableEq, Repr, Inhabited

namespace Status

/-- The name of a status. -/
def name : Status → Bytes
  | .queued => .ofString "queued"
  | .working => .ofString "working"
  | .done => .ofString "done"
  | .error => .ofString "error"

/-- The status of that name. -/
def ofName? (name : Bytes) : Option Status :=
  [.queued, .working, .done, .error].find? fun s => s.name == name

end Status

end CatalystAsm
