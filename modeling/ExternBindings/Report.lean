/-
**Reports**: what is shown of an error.

Every error of the library turns into a `Report`: a message, a stable code, a hint, labels on the
text it is about, and the errors behind it.
-/

namespace ExternBindings

/-- Why a file cannot be used. -/
inductive FileFault where
  | notFound
  | notADirectory
  | isADirectory
  | alreadyExists
  | notText
  /-- the path holds a character that no path can hold -/
  | invalidPath
  /-- the path, or a name in it, is longer than any that can be used -/
  | nameTooLong
  | other
  deriving DecidableEq

/-- An error behind another one. -/
inductive Cause where
  /-- an error of the library, by its message -/
  | message (text : String)
  /-- a fault of the file system -/
  | file (fault : FileFault)

/-- A remark on a stretch of the text, in bytes. -/
structure Label where
  text : String
  start : Nat
  length : Nat

/-- What is shown of an error; the causes start with the nearest one. -/
structure Report where
  message : String
  code? : Option String := none
  help? : Option String := none
  labels : List Label := []
  causes : List Cause := []

/-- The causes of an error that has the reported one right behind it. -/
def Report.asCauses (report : Report) : List Cause :=
  .message report.message :: report.causes

end ExternBindings
