/-
**What can be wrong with a listing.**

A listing is malformed, or it is well formed and one of its properties or events has an accessor
that does not belong there or that it has already.

* `ListingError.report` is the text shown for each of these.
-/

import ExternBindings.Listing.Construct
import ExternBindings.Metadata.Member
import ExternBindings.Report

namespace ExternBindings.Listing

/-- The words that start an accessor. -/
inductive AccessorWord where
  | get
  | set
  | add
  | remove
  deriving DecidableEq

/-- The word as written. -/
def AccessorWord.text : AccessorWord → String
  | get => "get"
  | set => "set"
  | add => "add"
  | remove => "remove"

/-- The two kinds of members that have accessors. -/
inductive AccessorOwner where
  | property
  | event
  deriving DecidableEq

/-- The kind of member as written. -/
def AccessorOwner.text : AccessorOwner → String
  | property => "property"
  | event => "event"

/-- What is wrong with a listing. -/
inductive ListingError where
  /-- the text cannot be read past the furthest failed attempts -/
  | unexpected (furthest : Furthest)
  /-- a type reference ends before its text does -/
  | trailing (span : Span)
  /-- a member has the same accessor twice -/
  | duplicateAccessor (member : String) (word : AccessorWord) (span : Span)
  /-- a member has an accessor of the other kind of member -/
  | invalidAccessor (word : AccessorWord) (owner : AccessorOwner) (span : Span)

/-- What was expected at the furthest place. -/
def Furthest.message (furthest : Furthest) : String :=
  if furthest.expected.isEmpty then "unexpected input"
  else "expected " ++ Text.join " or " (furthest.expected.map Construct.description)

/-- The report of a fault in the notation. -/
def notationReport (message : String) (span : Span) : Report :=
  { message := "Listing syntax error: " ++ message
    code? := some "clrstub::listing::syntax"
    help? := some "Check the listing syntax near the highlighted location"
    labels := [{ text := "error occurred here", start := span.start, length := span.length }] }

/-- The report of an error. -/
def ListingError.report : ListingError → Report
  | unexpected furthest =>
    notationReport furthest.message { start := furthest.place, stop := furthest.place + 1 }
  | trailing span => notationReport "trailing input after type reference" span
  | duplicateAccessor member word span =>
    { message := "Duplicate " ++ word.text ++ " accessor on `" ++ member ++ "`"
      code? := some "clrstub::listing::duplicate_accessor"
      help? := some "Each accessor kind may appear at most once per property or event"
      labels := [{ text := "repeated accessor", start := span.start, length := span.length }] }
  | invalidAccessor word owner span =>
    { message := "`" ++ word.text ++ "` is not a valid accessor for a " ++ owner.text
      code? := some "clrstub::listing::invalid_accessor"
      help? := some "Properties take `get`/`set`, events take `add`/`remove`"
      labels := [{ text := "invalid accessor", start := span.start, length := span.length }] }

end ExternBindings.Listing
