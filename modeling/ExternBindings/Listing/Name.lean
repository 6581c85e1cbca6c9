/-
**Names in a listing.**

An identifier is a word, with an arity marker if one touches it. Identifiers that touch each other
across dots form a dotted name, and dotted names across slashes a path; inside of such a name there
is never layout.

* `identifier`, `dottedName` and `typePath` read the three kinds of names.
-/

import ExternBindings.Listing.Reading
import ExternBindings.Metadata.QualifiedName

namespace ExternBindings.Listing

open Reading

/-- A word. -/
def word : Reading String :=
  accept fun
    | .word text => some text
    | _ => none

/-- An arity marker, as it stands in the text. -/
def arityMarker : Reading String :=
  accept fun
    | .arity digits => some (String.singleton arityMark ++ digits)
    | _ => none

/-- A word with the arity marker that touches it, if any. -/
def rawIdentifier : Reading String := do
  let base ← word
  let marker? ← maybe do
    glued
    arityMarker
  return base ++ marker?.getD ""

/-- An identifier that stands by itself. -/
def identifier : Reading String :=
  attempt .identifier rawIdentifier

/-- More identifiers, each behind a separator, with everything touching. -/
def gluedIdentifiers (separator : Char) : Reading (List String) :=
  many do
    glued
    mark separator
    glued
    rawIdentifier

/-- Identifiers across dots, one at least. -/
def rawDottedName : Reading (List String) := do
  let head ← rawIdentifier
  let tail ← gluedIdentifiers '.'
  return head :: tail

/-- Identifiers across dots, as one name. -/
def dottedName : Reading String :=
  attempt .dottedName do
    return Text.join "." (← rawDottedName)

/-- A dotted name, and across slashes the types declared in one another. -/
def typePath : Reading QualifiedName :=
  attempt .typePath do
    let top ← rawDottedName
    let declaredInside ← gluedIdentifiers '/'
    return declaredInside.foldl QualifiedName.inside (QualifiedName.ofIdentifiers top)

end ExternBindings.Listing
