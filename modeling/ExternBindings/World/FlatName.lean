/-
**Flat names of declared types.**

Generated declarations have no arity markers and no nesting: types that differ only by arity would
share one name, and inner types stand beside the one they are declared in. A *family* is the list
of public types with the same family key.

* `World.flatName` joins the names of the enclosing types and the type by underscores; a type of a
  family with several members gets the decimal number of its parameters at the end.
-/

import ExternBindings.World.Basic

namespace ExternBindings.World

variable (world : World)

/-- The public types of a family. -/
def family (key : String) : List TypeIndex :=
  world.indicesWhere fun entry => entry.isPublic && entry.familyKey = key

/-- The keys of all families. -/
def familyKeys : List String :=
  sortedDistinct ((world.entries.filter Entry.isPublic).map Entry.familyKey)

/-- Whether several public types share the key. -/
def isShared (key : String) : Bool :=
  1 < (world.family key).length

/-- The number of parameters of the declared type of this name. -/
def declaredArity? (name : QualifiedName) : Option Nat :=
  ((world.lookup? name).bind world.decl?).map TypeDecl.genericCount

/-- The number that sets a type apart from the rest of its family. The number of arguments, where
there are any, goes before the number of declared parameters. -/
def arityDigits (name : QualifiedName) (arguments? : Option Nat) : String :=
  if world.isShared name.familyKey then
    match arguments?.or (world.declaredArity? name) with
    | none | some 0 => ""
    | some arity => toString arity
  else ""

/-- The part of a flat name that stands for one type. -/
def nameSegment (name : QualifiedName) (arguments? : Option Nat) : String :=
  name.bareName ++ world.arityDigits name arguments?

/-- The flat name of a type, applied to so many arguments if a number is given. -/
def flatName (name : QualifiedName) (arguments? : Option Nat := none) : String :=
  Text.join "_" ((name.owners.map fun outer => world.nameSegment outer none) ++
    [world.nameSegment name arguments?])

/-- The flat name of the type that a reference names. -/
def flatNameOf? : TypeReference → Option String
  | .instantiation definition arguments =>
    some (world.flatName definition (some arguments.length))
  | reference => reference.qualifiedName?.map fun name => world.flatName name

/-- The flat name of the declared type at an index. -/
def flatNameAt (index : TypeIndex) : String :=
  ((world.decl? index).map fun decl => world.flatName decl.name).getD ""

end ExternBindings.World
