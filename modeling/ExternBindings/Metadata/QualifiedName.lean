/-
**Names of declared types.**

A type's name has three parts: the namespace of the outermost type around it, the raw names of the
types that it is declared in, outermost first, and its own raw name. A raw name keeps its arity
marker, a back quote and the number of type parameters.

* `QualifiedName.text` is the written form, with the namespace before a dot and every enclosing type
  before a slash; `QualifiedName.familyKey` is the dotted form without arity markers, which is
  shared by all types that differ only in their markers;
* `QualifiedName.ofDotted_dotted`: a dotted name is read back from its two parts;
* `QualifiedName.owner?_inside`: a type declared in `outer` has `outer` as its owner.
-/

import ExternBindings.Sorting
import ExternBindings.Text.Segments

namespace ExternBindings

/-- The name of a declared type; `space` is its namespace. -/
structure QualifiedName where
  space : String
  enclosing : List String := []
  name : String
  deriving DecidableEq

/-- The back quote that starts an arity marker. -/
def arityMark : Char := '\x60'

/-- A raw name without its arity marker. -/
def withoutArity (name : String) : String :=
  Text.beforeFirst arityMark name

namespace QualifiedName

/-! ### Reading names -/

/-- Reads a dotted name, whose last part is the type and whose other parts are the namespace. -/
def ofDotted (full : String) : QualifiedName :=
  match Text.splitLast '.' full.toList with
  | some (space, name) => { space := String.ofList space, name := String.ofList name }
  | none => { space := "", name := full }

/-- A dotted name is read back from its two parts. -/
theorem ofDotted_dotted (space : List Char) {name : List Char} (plain : '.' ∉ name) :
    ofDotted (String.ofList (space ++ '.' :: name))
      = { space := String.ofList space, name := String.ofList name } := by
  simp [ofDotted, Text.splitLast_append space plain]

/-- The name made of dotted identifiers, the last of which is the type. -/
def ofIdentifiers (identifiers : List String) : QualifiedName :=
  { space := Text.join "." identifiers.dropLast, name := identifiers.getLast?.getD "" }

/-- The type called `name` that is declared in `outer`. -/
def inside (outer : QualifiedName) (name : String) : QualifiedName :=
  { space := outer.space, enclosing := outer.enclosing ++ [outer.name], name }

/-- Reads a path: a dotted name, and after each slash a type declared in the one before. -/
def ofPath (path : String) : QualifiedName :=
  match Text.segments '/' path with
  | [] => ofDotted path
  | outermost :: rest => rest.foldl inside (ofDotted outermost)

/-! ### The types around a type -/

/-- Whether the type is declared in another one. -/
def isInner (name : QualifiedName) : Bool :=
  !name.enclosing.isEmpty

/-- The type that this one is declared in. -/
def owner? (name : QualifiedName) : Option QualifiedName :=
  name.enclosing.getLast?.map fun outer =>
    { space := name.space, enclosing := name.enclosing.dropLast, name := outer }

theorem owner?_inside (outer : QualifiedName) (name : String) :
    (outer.inside name).owner? = some outer := by
  simp [inside, owner?]

/-- The types named by `enclosing`, each declared in the one before, the first of them in the last
one of `around`. -/
def ownersFrom (space : String) (around : List String) : List String → List QualifiedName
  | [] => []
  | head :: rest =>
    { space, enclosing := around, name := head } :: ownersFrom space (around ++ [head]) rest

/-- The types around this one, outermost first. -/
def owners (name : QualifiedName) : List QualifiedName :=
  ownersFrom name.space [] name.enclosing

/-- The outermost type around this one, or itself. -/
def outermost (name : QualifiedName) : QualifiedName :=
  match name.enclosing with
  | outer :: _ => { space := name.space, name := outer }
  | [] => name

/-! ### Written forms -/

/-- The raw name without its arity marker. -/
def bareName (name : QualifiedName) : String :=
  withoutArity name.name

/-- The written form: the namespace before a dot, each enclosing type before a slash. -/
def text (name : QualifiedName) : String :=
  (if name.space.isEmpty then "" else name.space ++ ".") ++
    Text.join "/" (name.enclosing ++ [name.name])

/-- The dotted form without arity markers. -/
def familyKey (name : QualifiedName) : String :=
  Text.join "." ((if name.space.isEmpty then [] else [name.space]) ++
    name.enclosing.map withoutArity ++ [name.bareName])

/-! ### Order -/

/-- The order of names: by namespace, then by enclosing types, then by name. -/
def mayPrecede (first second : QualifiedName) : Bool :=
  if first.space ≠ second.space then first.space < second.space
  else if first.enclosing ≠ second.enclosing then first.enclosing < second.enclosing
  else first.name ≤ second.name

/-- Names in order. -/
def sort (names : List QualifiedName) : List QualifiedName :=
  sortBy mayPrecede names

end QualifiedName

end ExternBindings
