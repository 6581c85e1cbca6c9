/-
**Type references in a listing.**

A reference is a type parameter or a named type, then any number of suffixes for arrays, references
and pointers, each of which applies to all that stands before it.

* `typeUse` reads a reference together with the place where it ends: behind the last suffix or, when
  there is none, in front of the next token;
* `readTypeReference` reads a text that holds nothing but a reference.
-/

import ExternBindings.Listing.Error
import ExternBindings.Listing.Name
import ExternBindings.Metadata.TypeReference
import ExternBindings.Text.Blank

namespace ExternBindings.Listing

open Reading

/-- A reference as read, with the place where it ends. -/
structure TypeUse where
  type : TypeReference
  stop : Nat

/-- What may stand behind a type. -/
inductive Suffix where
  | array (rank : Rank)
  | indirect (kind : Indirection)

/-- The type that a suffix makes of the one before it. -/
def Suffix.apply (element : TypeReference) : Suffix → TypeReference
  | array rank => .array element rank
  | indirect kind => .indirect kind element

/-- The number of commas in a stretch of text. -/
def commasIn (chars : List Char) : Nat :=
  chars.count ','

/-- A run of touching commas and the number of commas up to its end, those in front of the run
included. -/
def commaRun : Reading Nat :=
  (do
    let before ← layout
    mark ','
    let more ← many do
      glued
      mark ','
    return commasIn before + 1 + more.length)
  <|> return 0

/-- The brackets behind an array. Every comma between them counts as one more dimension, also those
inside of a comment. -/
def arraySuffix : Reading Suffix :=
  attempt .arraySuffix do
    mark '['
    let commas ← commaRun
    let after ← layout
    mark ']'
    return .array (.ofCommas (commas + commasIn after))

/-- The sign behind a type whose values are passed by reference. -/
def byRefSuffix : Reading Suffix :=
  attempt .byRefSuffix do
    mark '&'
    return .indirect .byRef

/-- The sign behind a type whose values are reached through a pointer. -/
def pointerSuffix : Reading Suffix :=
  attempt .pointerSuffix do
    mark '*'
    return .indirect .pointer

/-- Any suffix. -/
def suffix : Reading Suffix :=
  arraySuffix <|> byRefSuffix <|> pointerSuffix

/-- The identifier that touches the sign of a type parameter. -/
def parameterIdentifier : Reading String :=
  attemptAt edgeOf .identifier do
    glued
    rawIdentifier

/-- A type parameter of a method: two touching exclamation marks and a name. -/
def methodVariable : Reading TypeReference :=
  attempt .methodVariable do
    mark '!'
    glued
    mark '!'
    return .parameter .method (← parameterIdentifier)

/-- A type parameter of a type: an exclamation mark and a name. -/
def typeVariable : Reading TypeReference :=
  attempt .typeVariable do
    mark '!'
    return .parameter .type (← parameterIdentifier)

/-- The arguments of a generic type; `argument` reads one of them. -/
def genericArguments (argument : Reading TypeUse) : Reading (List TypeReference) :=
  attempt .genericArguments do
    mark '<'
    let arguments ← separated ',' argument
    mark '>'
    return arguments.map TypeUse.type

/-- A declared type, with arguments if there are any; `argument` reads one of them. -/
def namedType (argument : Reading TypeUse) : Reading TypeReference :=
  attempt .namedType do
    let name ← typePath
    match ← maybe (genericArguments argument) with
    | some arguments => return .instantiation name arguments
    | none => return .ofName name

/-- A reference whose arguments are nested less than `limit` deep. -/
def typeUseWithin : Nat → Reading TypeUse
  | 0 => fail
  | limit + 1 =>
    attempt .typeReference do
      let atom ← methodVariable <|> typeVariable <|> namedType (typeUseWithin limit)
      let suffixes ← many suffix
      let stop ← if suffixes.isEmpty then start else edge
      return { type := suffixes.foldl Suffix.apply atom, stop }

/-- A reference. Arguments are never nested deeper than there are tokens. -/
def typeUse : Reading TypeUse := fun tokens =>
  typeUseWithin tokens.length tokens

/-- A reference, without the place where it ends. -/
def typeReference : Reading TypeReference := do
  return (← typeUse).type

/-- Reads a text that holds nothing but a reference, with blanks around it. -/
def readTypeReference (text : String) : Except ListingError TypeReference :=
  let trimmed := Text.trim text.toList
  let tokens := tokensFrom trimmed
  match (typeUse tokens).value? with
  | none => .error (.unexpected (explain typeUse tokens))
  | some (use, _) =>
    if use.stop = byteSize trimmed then .ok use.type
    else .error (.trailing { start := use.stop, stop := byteSize trimmed })

end ExternBindings.Listing
