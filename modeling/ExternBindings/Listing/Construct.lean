/-
**What a reader of listings may have expected.**

A reading that fails is explained by the constructs that were tried, in vain, at the furthest place
that any attempt reached. `Furthest` is the record of such attempts; a reading is a step from one
record to the next (`Furthest.conclude`).

* `Construct.description`: how an error message speaks of a construct;
* `Furthest.expected`: the attempts at the furthest place, each construct once, in the order in
  which the constructs are listed here.
-/

import ExternBindings.Sorting

namespace ExternBindings.Listing

/-- A construct of the listing notation. -/
inductive Construct where
  | endOfText
  | identifier
  | dottedName
  | typePath
  | assemblyKeyword
  | namespaceKeyword
  | extendsKeyword
  | implementsKeyword
  | fieldKeyword
  | propertyKeyword
  | eventKeyword
  | methodKeyword
  | constructorKeyword
  | modifier
  | typeKind
  | accessorKind
  | parameterMode
  | typeReference
  | methodVariable
  | typeVariable
  | namedType
  | genericArguments
  | arraySuffix
  | byRefSuffix
  | pointerSuffix
  | listing
  | assemblyDeclaration
  | namespaceDeclaration
  | typeDeclaration
  | genericParameters
  | extendsClause
  | implementsClause
  | fieldDeclaration
  | propertyDeclaration
  | eventDeclaration
  | constructorDeclaration
  | methodDeclaration
  | indexParameters
  | accessorBlock
  | accessorDeclaration
  | parameterList
  | parameter
  deriving DecidableEq

namespace Construct

/-- How an error message speaks of the construct. -/
def description : Construct → String
  | identifier => "an identifier"
  | dottedName => "a dotted name"
  | typePath | namedType => "a type name"
  | typeReference => "a type reference"
  | typeKind => "`class`, `interface` or `enum`"
  | modifier => "a modifier"
  | assemblyKeyword => "`assembly`"
  | namespaceKeyword => "`namespace`"
  | fieldKeyword => "`field`"
  | propertyKeyword => "`property`"
  | eventKeyword => "`event`"
  | methodKeyword => "`method`"
  | constructorKeyword => "`ctor`"
  | typeDeclaration => "a type declaration"
  | parameter | parameterList => "a parameter list"
  | accessorDeclaration | accessorKind => "an accessor"
  | genericArguments | genericParameters => "generic arguments"
  | endOfText => "end of input"
  | extendsKeyword | implementsKeyword | parameterMode | methodVariable | typeVariable
  | arraySuffix | byRefSuffix | pointerSuffix | listing | assemblyDeclaration | namespaceDeclaration
  | extendsClause | implementsClause | fieldDeclaration | propertyDeclaration | eventDeclaration
  | constructorDeclaration | methodDeclaration | indexParameters | accessorBlock =>
    "valid listing syntax"

/-- Whether `first` is listed before `second`, or is the same construct. -/
def mayPrecede (first second : Construct) : Bool :=
  first.ctorIdx ≤ second.ctorIdx

end Construct

/-- The attempts that failed at the furthest place so far. -/
structure Furthest where
  place : Nat := 0
  attempts : List Construct := []

namespace Furthest

/-- The number of attempts recorded at a place. -/
def countAt (record : Furthest) (place : Nat) : Nat :=
  if record.place = place then record.attempts.length else 0

/-- Records that `construct` was tried at `place` and failed. `before` is the record at the start of
the attempt and `after` the one at its end. A failure at a place passed long ago says nothing. If
the attempt left exactly one new failure at its own place, that one stands for it; else it takes
the place of those that it left there. -/
def conclude (construct : Construct) (place : Nat) (before after : Furthest) : Furthest :=
  if after.countAt place = before.countAt place + 1 then after
  else if place < after.place then after
  else if after.place < place then { place, attempts := [construct] }
  else { place, attempts := after.attempts.take (before.countAt place) ++ [construct] }

/-- The attempts in their listed order, each once. -/
def expected (record : Furthest) : List Construct :=
  (sortBy Construct.mayPrecede record.attempts).eraseDups

end Furthest

end ExternBindings.Listing
