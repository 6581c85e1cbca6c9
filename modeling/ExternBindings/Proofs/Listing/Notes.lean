/-
**What a reading passes on its way.**

A *trace* tells which notes are taken between two places of a token list; a reading *notes* something
if, whenever it answers, the notes between the places where it starts and ends fit its value. The
notes of a whole construct are put together from those of its parts, like its properties are (see
`Yields`).

* `Trace`, `Notes` — with one lemma for each combinator; `Silent` — there is nothing to note;
* `Trace.NotesOnly` — there is something to note at a few marks only;
* `Trail` — the trace of notes that stand at places of the token list, one behind the other;
* `Trail.exists_of_mem`, `Trail.exists_of_split` — where a note stands, and that it stands in front of
  the later ones.
-/

import ExternBindings.Proofs.Listing.Answers
import ExternBindings.Proofs.Listing.Lexing

namespace ExternBindings.Listing.Reading

variable {α β ν : Type}

/-- Notes taken between two places of a token list, which continue one another. -/
structure Trace (ν : Type) where
  along : List Token → List ν → List Token → Prop
  refl (tokens : List Token) : along tokens [] tokens
  trans {tokens middle rest : List Token} {notes further : List ν} :
    along tokens notes middle → along middle further rest → along tokens (notes ++ further) rest

/-- From lawful tokens the reading leaves a tail of them, and the notes on the way fit its value. -/
def Notes (trace : Trace ν) (reading : Reading α) (fits : α → List ν → Prop) : Prop :=
  ∀ ⦃tokens value rest⦄, (∀ token ∈ tokens, token.lexeme.IsLawful) →
    Reads reading tokens value rest →
      (∃ notes, fits value notes ∧ trace.along tokens notes rest) ∧ rest <:+ tokens

/-- The reading passes nothing that is worth a note. -/
abbrev Silent (trace : Trace ν) (reading : Reading α) : Prop :=
  Notes trace reading fun _ notes => [] = notes

namespace Notes

variable {trace : Trace ν} {fits : α → List ν → Prop} {result : β → List ν → Prop}

theorem mono {reading : Reading α} {weaker : α → List ν → Prop} (taken : Notes trace reading fits)
    (implied : ∀ value notes, fits value notes → weaker value notes) :
    Notes trace reading weaker := by
  intro tokens value rest lawful reads
  obtain ⟨⟨notes, fit, along⟩, shrunk⟩ := taken lawful reads
  exact ⟨⟨notes, implied _ _ fit, along⟩, shrunk⟩

theorem pure {value : α} (fit : fits value []) : Notes trace (Pure.pure value) fits := by
  intro tokens answer rest _ reads
  obtain ⟨rfl, rfl⟩ := reads_pure.mp reads
  exact ⟨⟨[], fit, trace.refl tokens⟩, List.suffix_refl tokens⟩

theorem fail : Notes trace (fail : Reading α) fits :=
  fun _ _ _ _ reads => nomatch reads

/-- The notes of the second reading follow those of the first one. -/
theorem bind {first : Reading α} {next : α → Reading β} {own : α → List ν}
    (taken : Notes trace first fun value notes => own value = notes)
    (after : ∀ value,
      Notes trace (next value) fun answer notes => result answer (own value ++ notes)) :
    Notes trace (first >>= next) result := by
  intro tokens answer rest lawful reads
  obtain ⟨value, left, reads, further⟩ := reads_bind.mp reads
  obtain ⟨⟨_, rfl, along⟩, shrunk⟩ := taken lawful reads
  obtain ⟨⟨notes, fit, alongToo⟩, shrunkAgain⟩ :=
    after value (fun token member => lawful token (shrunk.subset member)) further
  exact ⟨⟨_, fit, trace.trans along alongToo⟩, shrunkAgain.trans shrunk⟩

theorem bindSilent {first : Reading α} {next : α → Reading β} (silent : Silent trace first)
    (after : ∀ value, Notes trace (next value) result) : Notes trace (first >>= next) result :=
  silent.bind after

theorem orElse {first second : Reading α} (taken : Notes trace first fits)
    (otherwise : Notes trace second fits) : Notes trace (first <|> second) fits := by
  intro tokens value rest lawful reads
  rcases reads_orElse.mp reads with reads | ⟨_, reads⟩
  · exact taken lawful reads
  · exact otherwise lawful reads

theorem attemptAt {placeOf : List Token → Nat} {construct : Construct} {reading : Reading α}
    (taken : Notes trace reading fits) :
    Notes trace (attemptAt placeOf construct reading) fits :=
  fun _ _ _ lawful reads => taken lawful (reads_attemptAt.mp reads)

theorem attempt {construct : Construct} {reading : Reading α} (taken : Notes trace reading fits) :
    Notes trace (attempt construct reading) fits :=
  taken.attemptAt

section Items

variable {item : Reading α} {own : α → List ν}
  (taken : Notes trace item fun value notes => own value = notes)

include taken

theorem maybe :
    Notes trace (maybe item) fun value? notes => value?.elim [] own = notes :=
  orElse (taken.bind fun _ => pure (List.append_nil _).symm) (pure rfl)

theorem manyWithin (limit : Nat) :
    Notes trace (manyWithin item limit) fun values notes => values.flatMap own = notes := by
  induction limit with
  | zero => exact pure rfl
  | succ limit hypothesis =>
    refine orElse (taken.bind fun head => hypothesis.bind fun tail => pure ?_) (pure rfl)
    rw [List.flatMap_cons, List.append_nil]

theorem many : Notes trace (many item) fun values notes => values.flatMap own = notes :=
  fun tokens _ _ lawful reads => manyWithin taken tokens.length lawful reads

theorem separated {separator : Char} (silent : Silent trace (mark separator)) :
    Notes trace (separated separator item) fun values notes => values.flatMap own = notes := by
  refine taken.bind fun head => ((silent.bindSilent fun _ => taken).many).bind fun tail => pure ?_
  rw [List.flatMap_cons, List.append_nil]

end Items

/-- A repetition of a silent reading is silent. -/
theorem manySilent {item : Reading α} (silent : Silent trace item) :
    Silent trace (Reading.many item) :=
  silent.many.mono fun values _ fit => by
    rw [← fit]
    exact (List.flatMap_eq_nil_iff.mpr fun _ _ => rfl).symm

theorem maybeSilent {item : Reading α} (silent : Silent trace item) :
    Silent trace (Reading.maybe item) :=
  silent.maybe.mono fun value? _ fit => by
    rw [← fit]
    cases value? <;> rfl

end Notes

/-! ### Notes at single marks -/

section Stays

variable {reading : Reading α} (trace : Trace ν)

/-- A reading that takes nothing passes nothing. -/
theorem silent_of_stays
    (stays : ∀ {tokens value rest}, Reads reading tokens value rest → rest = tokens) :
    Silent trace reading := by
  intro tokens value rest _ reads
  obtain rfl := stays reads
  exact ⟨⟨[], rfl, trace.refl rest⟩, List.suffix_refl rest⟩

theorem silent_glued : Silent trace glued :=
  silent_of_stays trace fun reads => (reads_glued.mp reads).1

theorem silent_start : Silent trace start :=
  silent_of_stays trace fun reads => (reads_start.mp reads).2

theorem silent_edge : Silent trace edge :=
  silent_of_stays trace fun reads => (reads_edge.mp reads).2

end Stays

/-- Nothing is noted where a token is passed, unless it is one of these marks. -/
def Trace.NotesOnly (trace : Trace ν) (noted : List Char) : Prop :=
  ∀ token rest, (∀ char ∈ noted, token.lexeme ≠ .mark char) → trace.along (token :: rest) [] rest

namespace Trace.NotesOnly

variable {trace : Trace ν} {noted : List Char} (only : trace.NotesOnly noted)

include only

theorem accept {choose : Lexeme → Option α} (apart : ∀ char ∈ noted, choose (.mark char) = none) :
    Silent trace (accept choose) := by
  intro tokens value rest _ reads
  obtain ⟨token, rfl, chosen⟩ := reads_accept.mp reads
  refine ⟨⟨[], rfl, only token rest fun char member same => ?_⟩, List.suffix_cons token rest⟩
  rw [same, apart char member] at chosen
  cases chosen

theorem mark {char : Char} (apart : char ∉ noted) : Silent trace (mark char) :=
  only.accept fun _ member => if_neg fun same =>
    ne_of_mem_of_not_mem member apart (Lexeme.mark.inj same)

theorem keyword (text : String) : Silent trace (keyword text) :=
  only.accept fun _ _ => if_neg Lexeme.noConfusion

end Trace.NotesOnly

/-! ### Notes at places -/

/-- Notes that stand one behind the other; `stands note here there` tells that a note stands at
`here` and that the next one may stand at `there`. -/
inductive Trail (stands : ν → List Token → List Token → Prop) :
    List Token → List ν → List Token → Prop
  | done {tokens rest : List Token} : rest <:+ tokens → Trail stands tokens [] rest
  | step {tokens here there rest : List Token} {note : ν} {notes : List ν} :
      here <:+ tokens → stands note here there → there <:+ here → Trail stands there notes rest →
        Trail stands tokens (note :: notes) rest

namespace Trail

variable {stands : ν → List Token → List Token → Prop} {tokens middle rest : List Token}
  {notes further : List ν}

theorem before (trail : Trail stands middle notes rest) (shrunk : middle <:+ tokens) :
    Trail stands tokens notes rest := by
  cases trail with
  | done left => exact .done (left.trans shrunk)
  | step here standing there trail => exact .step (here.trans shrunk) standing there trail

theorem trans (trail : Trail stands tokens notes middle)
    (trailToo : Trail stands middle further rest) :
    Trail stands tokens (notes ++ further) rest := by
  induction trail with
  | done left => exact trailToo.before left
  | step here standing there _ hypothesis => exact .step here standing there (hypothesis trailToo)

theorem exists_of_mem (trail : Trail stands tokens notes rest) {note : ν} (member : note ∈ notes) :
    ∃ here there, here <:+ tokens ∧ stands note here there := by
  induction trail with
  | done => cases member
  | step here standing there _ hypothesis =>
    rcases List.mem_cons.mp member with rfl | member
    · exact ⟨_, _, here, standing⟩
    · obtain ⟨place, next, within, standing⟩ := hypothesis member
      exact ⟨place, next, (within.trans there).trans here, standing⟩

/-- A note stands somewhere in front of the later ones. -/
theorem exists_of_split {front back : List ν} {note : ν}
    (trail : Trail stands tokens (front ++ note :: back) rest) :
    ∃ here there, here <:+ tokens ∧ stands note here there ∧ there <:+ here ∧
      Trail stands there back rest := by
  induction front generalizing tokens with
  | nil =>
    cases trail with
    | step here standing there trail => exact ⟨_, _, here, standing, there, trail⟩
  | cons head front hypothesis =>
    cases trail with
    | step here _ there trail =>
      obtain ⟨place, next, within, standing, behind, trail⟩ := hypothesis trail
      exact ⟨place, next, (within.trans there).trans here, standing, behind, trail⟩

end Trail

/-- The trace of notes that stand one behind the other. -/
def Trace.ofPlaces (stands : ν → List Token → List Token → Prop) : Trace ν where
  along := Trail stands
  refl tokens := .done (List.suffix_refl tokens)
  trans := Trail.trans

section OfPlaces

variable {stands : ν → List Token → List Token → Prop} {reading : Reading α}

/-- Nothing need be noted of a reading that leaves a tail of its tokens. -/
theorem Yields.silent {property : α → Prop} (yields : Yields Lexeme.IsLawful reading property) :
    Silent (.ofPlaces stands) reading := by
  intro tokens value rest lawful reads
  have shrunk := (yields lawful reads).2
  exact ⟨⟨[], rfl, .done shrunk⟩, shrunk⟩

/-- A note of the value, if it stands where the reading starts and the next one where it ends. -/
theorem Yields.notes {property : α → Prop} (yields : Yields Lexeme.IsLawful reading property)
    {note : α → ν} (standing : ∀ {here value there}, (∀ token ∈ here, token.lexeme.IsLawful) →
      Reads reading here value there → stands (note value) here there) :
    Notes (.ofPlaces stands) reading fun value notes => [note value] = notes := by
  intro tokens value rest lawful reads
  have shrunk := (yields lawful reads).2
  refine ⟨⟨_, rfl, ?_⟩, shrunk⟩
  exact .step (List.suffix_refl tokens) (standing lawful reads) shrunk (.done (List.suffix_refl rest))

/-- A note of the value in front of those of its parts, all of which stand where it stands or
behind. -/
theorem Notes.headed {own : α → List ν}
    (taken : Notes (.ofPlaces stands) reading fun value notes => own value = notes) {note : α → ν}
    (standing : ∀ {here value there}, Reads reading here value there → stands (note value) here here) :
    Notes (.ofPlaces stands) reading fun value notes => note value :: own value = notes := by
  intro tokens value rest lawful reads
  obtain ⟨⟨_, rfl, trail⟩, shrunk⟩ := taken lawful reads
  refine ⟨⟨_, rfl, ?_⟩, shrunk⟩
  exact .step (List.suffix_refl tokens) (standing reads) (List.suffix_refl tokens) trail

end OfPlaces

end ExternBindings.Listing.Reading
