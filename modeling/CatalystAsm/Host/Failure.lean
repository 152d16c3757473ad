import CatalystAsm.Bytes

/-!
# Failures of file operations

Why an operation on a file failed, and how a message says so.
-/

namespace CatalystAsm.Host

/-- The reason for a failure. -/
inductive Reason where
  | missing | exists | isDirectory | notDirectory | invalid | tooLong | denied
  | other (text : Bytes)
  deriving DecidableEq, Repr, Inhabited

namespace Reason

/-- The wording of a reason. -/
def text : Reason → Bytes
  | .missing => .ofString "no such file or directory"
  | .exists => .ofString "file exists"
  | .isDirectory => .ofString "is a directory"
  | .notDirectory => .ofString "not a directory"
  | .invalid => .ofString "invalid argument"
  | .tooLong => .ofString "file name too long"
  | .denied => .ofString "permission denied"
  | .other text => text

end Reason

/-- A failed operation on one path, or on two when something was to be moved. -/
structure Failure where
  operation : String
  paths : List Bytes
  reason : Reason
  deriving DecidableEq, Repr, Inhabited

namespace Failure

/-- The wording of a fault. -/
def message (f : Failure) : Bytes :=
  .concat [.ofString f.operation, .ofString " ", .intercalate (.ofString " ") f.paths,
    .ofString ": ", f.reason.text]

end Failure

end CatalystAsm.Host
