/-
**What the library asks of a file system.**

All that reads or writes files is written over `FileAccess`, so that it means the same on a file
system in memory and on the one of the machine.
-/

import ExternBindings.Report

namespace ExternBindings.Files

/-- The operations that the library needs. -/
class FileAccess (m : Type → Type) where
  /-- whether the path leads to a file -/
  isFile : String → m Bool
  /-- whether the path leads anywhere -/
  pathExists : String → m Bool
  /-- the text of a file -/
  readText : String → m (Except FileFault String)
  /-- makes sure that the path leads to a directory -/
  createDirectories : String → m (Except FileFault Unit)
  /-- puts a text into a file, which is created or replaced -/
  writeText : String → String → m (Except FileFault Unit)

end ExternBindings.Files
