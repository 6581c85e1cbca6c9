/-
**Paths as texts.**

A path is kept as it was written; nothing is made shorter. Between two slashes an empty segment
means nothing, and neither does a dot unless it is the first segment of all.

* `joinPath` puts a name behind a directory; an absolute name takes its place;
* `parentPath?` is a path without its last meaningful segment.
-/

import ExternBindings.Text.Segments

namespace ExternBindings.Files

/-- Whether a path starts at the root of all directories. -/
def isAbsolute (path : String) : Bool :=
  path.toList.head? = some '/'

/-- The path of a name inside of a directory. -/
def joinPath (directory name : String) : String :=
  if isAbsolute name then name
  else if directory.isEmpty || directory.toList.getLast? = some '/' then directory ++ name
  else directory ++ "/" ++ name

/-- Segments without those at the end that mean nothing; `segments` starts with the last one, and
the first segment of the path is never dropped. -/
def dropNeutral : List String → List String
  | [] => []
  | [head] => [head]
  | segment :: rest =>
    if segment = "" ∨ segment = "." then dropNeutral rest else segment :: rest

/-- The path of the directory that a path lies in. -/
def parentPath? (path : String) : Option String :=
  match dropNeutral (Text.segments '/' path).reverse with
  | [] | [""] => none
  | [_] => some ""
  | _ :: rest =>
    match dropNeutral rest with
    | [""] => some "/"
    | kept => some (Text.join "/" kept.reverse)

end ExternBindings.Files
