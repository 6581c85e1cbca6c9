/-
**A file system in memory.**

A volume maps locations to files and directories, and has a directory that relative paths start
from. A location is the list of names that lead to it from the root.

* `Volume.locate` follows a path. Every segment is looked up in a directory that is there; a step up
  from the root stays at the root;
* names and paths have a length that they cannot exceed (`nameLimit`, `pathLimit`), and no path
  holds the character with the code zero;
* `Volume.createDirectories` makes a directory and, where they are missing, those that it lies in;
* `Volume.write` creates or replaces a file;
* an operation that fails leaves the volume as it was, except that `createDirectories` keeps the
  outer directories it has made.
-/

import ExternBindings.Files.Access
import ExternBindings.Files.Path
import ExternBindings.Sorting

namespace ExternBindings.Files

/-- The names that lead from the root to a file or directory. -/
abbrev Location := List String

/-- What a location holds. -/
inductive Item where
  | directory
  /-- a file that holds a text -/
  | text (contents : String)
  /-- a file whose bytes are no text -/
  | binary (bytes : List UInt8)

/-- Whether the location holds a directory. -/
def Item.isDirectory : Item → Bool
  | directory => true
  | text _ | binary _ => false

/-- Files and directories. -/
structure Volume where
  items : List (Location × Item) := []
  workingDirectory : Location := []

namespace Volume

variable (volume : Volume)

/-- What is at a location; the root is always a directory. -/
def item? (location : Location) : Option Item :=
  if location.isEmpty then some .directory else volume.items.lookup location

/-- The volume without what is at a location. -/
def erase (location : Location) : Volume :=
  { volume with items := volume.items.filter fun entry => entry.1 ≠ location }

/-- The volume with an item at a location, in place of what was there. -/
def put (location : Location) (item : Item) : Volume :=
  { volume with items := (location, item) :: (volume.erase location).items }

/-- The most bytes that a name can have. -/
def nameLimit : Nat := 255

/-- The most bytes that a path can have. -/
def pathLimit : Nat := 4095

/-- What is at a location, if its last name can be looked up at all. -/
def lookUp (location : Location) : Except FileFault (Option Item) :=
  if (location.getLast?.getD "").utf8ByteSize > nameLimit then .error .nameTooLong
  else .ok (volume.item? location)

/-! ### Following paths -/

/-- The location that a segment of a path leads to from a location. -/
def step (here : Location) (segment : String) : Except FileFault Location :=
  match volume.lookUp here with
  | .error fault => .error fault
  | .ok none => .error .notFound
  | .ok (some (.text _)) | .ok (some (.binary _)) => .error .notADirectory
  | .ok (some .directory) =>
    if segment = "" ∨ segment = "." then .ok here
    else if segment = ".." then .ok here.dropLast
    else .ok (here ++ [segment])

/-- The location that segments lead to, one after the other. -/
def follow (here : Location) : List String → Except FileFault Location
  | [] => .ok here
  | segment :: rest =>
    match volume.step here segment with
    | .error fault => .error fault
    | .ok next => follow next rest

/-- Why a path cannot even be followed, if it cannot. -/
def pathFault? (path : String) : Option FileFault :=
  if path.toList.contains '\x00' then some .invalidPath
  else if path.isEmpty then some .notFound
  else if path.utf8ByteSize > pathLimit then some .nameTooLong
  else none

/-- The location that a path leads to through these segments of it. -/
def locateThrough (path : String) (segments : List String) : Except FileFault Location :=
  match pathFault? path with
  | some fault => .error fault
  | none => volume.follow (if isAbsolute path then [] else volume.workingDirectory) segments

/-- The location that a path leads to. Nothing has to be there, but the directory that it lies in
is. -/
def locate (path : String) : Except FileFault Location :=
  volume.locateThrough path (Text.segments '/' path)

/-- The location that a path leads to if the slashes at its end mean nothing. -/
def locateUnslashed (path : String) : Except FileFault Location :=
  volume.locateThrough path ((Text.segments '/' path).reverse.dropWhile (· = "")).reverse

/-- What a path leads to. -/
def find (path : String) : Except FileFault (Option Item) :=
  match volume.locate path with
  | .error fault => .error fault
  | .ok location => volume.lookUp location

/-- What a path leads to, if it leads anywhere. -/
def find? (path : String) : Option Item :=
  match volume.find path with
  | .error _ => none
  | .ok found => found

/-- Whether a path leads to a directory. -/
def isDirectory (path : String) : Bool :=
  (volume.find? path).any Item.isDirectory

/-- Whether a path leads to a file. -/
def isFile (path : String) : Bool :=
  (volume.find? path).any fun item => !item.isDirectory

/-- Whether a path leads anywhere. -/
def pathExists (path : String) : Bool :=
  (volume.find? path).isSome

/-! ### Reading and writing -/

/-- The text of a file. -/
def readText (path : String) : Except FileFault String :=
  match volume.find path with
  | .error fault => .error fault
  | .ok none => .error .notFound
  | .ok (some .directory) => .error .isADirectory
  | .ok (some (.binary _)) => .error .notText
  | .ok (some (.text contents)) => .ok contents

/-- Puts an item into a file, which is created or replaced. A path that ends in a slash never leads
to a file. -/
def write (path : String) (item : Item) : Except FileFault Volume :=
  match volume.locateUnslashed path with
  | .error fault => .error fault
  | .ok location =>
    if path.toList.getLast? = some '/' then .error .isADirectory
    else
      match volume.lookUp location with
      | .error fault => .error fault
      | .ok (some .directory) => .error .isADirectory
      | .ok (some (.text _)) | .ok (some (.binary _)) | .ok none => .ok (volume.put location item)

/-- Removes a file. -/
def remove (path : String) : Except FileFault Volume :=
  match volume.locate path with
  | .error fault => .error fault
  | .ok location =>
    match volume.lookUp location with
    | .error fault => .error fault
    | .ok none => .error .notFound
    | .ok (some .directory) => .error .isADirectory
    | .ok (some (.text _)) | .ok (some (.binary _)) => .ok (volume.erase location)

/-- Makes one directory. -/
def createDirectory (path : String) : Except FileFault Volume :=
  match volume.locateUnslashed path with
  | .error fault => .error fault
  | .ok location =>
    match volume.lookUp location with
    | .error fault => .error fault
    | .ok (some _) => .error .alreadyExists
    | .ok none => .ok (volume.put location .directory)

/-- Makes one directory, unless it is there. -/
def ensureDirectory (path : String) : Except FileFault Volume :=
  match volume.createDirectory path with
  | .ok changed => .ok changed
  | .error fault => if volume.isDirectory path then .ok volume else .error fault

/-- Makes a directory at a path, and those that it lies in; at most `limit` of them. The volume is
the one at the end, also of a failure. -/
def createWithin : Nat → Volume → String → Except FileFault Unit × Volume
  | 0, volume, _ => (.error .other, volume)
  | limit + 1, volume, path =>
    if path.isEmpty then (.ok (), volume)
    else
      match volume.ensureDirectory path with
      | .ok changed => (.ok (), changed)
      | .error .notFound =>
        match parentPath? path with
        | none => (.error .other, volume)
        | some parent =>
          match createWithin limit volume parent with
          | (.error fault, changed) => (.error fault, changed)
          | (.ok (), changed) =>
            match changed.ensureDirectory path with
            | .ok final => (.ok (), final)
            | .error fault => (.error fault, changed)
      | .error fault => (.error fault, volume)

/-- Makes a directory at a path, and those that it lies in. There are no more of them than the path
has characters. -/
def createDirectories (path : String) : Except FileFault Unit × Volume :=
  createWithin (path.length + 1) volume path

/-- The path from a location to an item below it; that of a directory ends in a slash. -/
def pathBelow (names : List String) (item : Item) : String :=
  Text.join "/" names ++ if item.isDirectory then "/" else ""

/-- Everything below a location, each item with its path from there, in the order of these paths. -/
def below (location : Location) : List (String × Item) :=
  let found := volume.items.filterMap fun (place, item) =>
    if location.isPrefixOf place ∧ place ≠ location then
      some (pathBelow (place.drop location.length) item, item)
    else none
  sortBy (fun first second => first.1 ≤ second.1) found

end Volume

/-- An answer of an operation that may change the volume. -/
def afterChange (result : Except FileFault Volume) : StateM Volume (Except FileFault Unit) :=
  match result with
  | .error fault => return .error fault
  | .ok changed => do
    set changed
    return .ok ()

instance : FileAccess (StateM Volume) where
  isFile path := return (← get).isFile path
  pathExists path := return (← get).pathExists path
  readText path := return (← get).readText path
  createDirectories path := do
    let (result, changed) := (← get).createDirectories path
    set changed
    return result
  writeText path contents := do
    afterChange ((← get).write path (.text contents))

end ExternBindings.Files
