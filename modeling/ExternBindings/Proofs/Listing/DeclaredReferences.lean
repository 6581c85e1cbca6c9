/-
**The references of a listing stand alone.**

Wherever a listing refers to a type, the reference is read from one stretch of the text, and this
stretch says the same when it is read by itself. The parameter that is declared with a word in front
of its name keeps the reference under a further one.

* `TypeReference.uses` — a reference and its arguments, at any depth; `Mention` — what a listing makes
  of a reference that stands in it;
* `takes_mentions` — the references of a listing are read at places of its text, each behind the one
  before it or inside of it;
* `readTypeReference_trailing` — of a text that goes on behind a reference, the front is the reference;
* `references_stand_alone` — these together.
-/

import ExternBindings.Proofs.Listing.NoteScheme
import ExternBindings.Proofs.Listing.StandAlone

namespace ExternBindings

/-! ### Arguments -/

namespace TypeReference

mutual

/-- The arguments in a reference, at any depth, in the order of the text. -/
def arguments : TypeReference → List TypeReference
  | primitive _ => []
  | parameter _ _ => []
  | array element _ => element.arguments
  | indirect _ element => element.arguments
  | instantiation _ arguments => usesIn arguments
  | named _ => []

/-- Several references and their arguments. -/
def usesIn : List TypeReference → List TypeReference
  | [] => []
  | head :: tail => head :: head.arguments ++ usesIn tail

end

/-- The reference and its arguments. -/
def uses (reference : TypeReference) : List TypeReference :=
  reference :: reference.arguments

theorem usesIn_eq_flatMap (references : List TypeReference) :
    usesIn references = references.flatMap uses := by
  induction references with
  | nil => rfl
  | cons head tail hypothesis => rw [usesIn, hypothesis, List.flatMap_cons, uses]

theorem arguments_ofName (name : QualifiedName) : (ofName name).arguments = [] := by
  unfold ofName
  split <;> rfl

end TypeReference

namespace Listing

open Reading

theorem arguments_parameterOfMode (mode? : Option ParameterMode) (name : String)
    (type : TypeReference) : (parameterOfMode mode? name type).type.arguments = type.arguments := by
  unfold parameterOfMode
  dsimp only
  split <;> rfl

/-! ### Mentions -/

/-- What a listing makes of a reference that stands in it. -/
inductive Mention where
  /-- the reference as it is -/
  | type (reference : TypeReference)
  /-- the parameter that is declared with it -/
  | parameter (parameter : Parameter)

/-- The mention is made of this reference; a word in front of a parameter may stand before it. -/
def Mention.IsMadeOf : Mention → TypeReference → Prop
  | .type reference, read => reference = read
  | .parameter declared, read => ∃ mode?, declared = parameterOfMode mode? declared.name read

/-- The mentions of a reference and its arguments. -/
def mentionsOf (reference : TypeReference) : List Mention :=
  reference.uses.map .type

/-- A parameter is a mention, and so are the arguments in its type. -/
def mentionsOfParameter (parameter : Parameter) : List Mention :=
  .parameter parameter :: parameter.type.arguments.map .type

/-- References and parameters are noted, and nothing else. -/
def mentionNotes : NoteScheme Mention where
  accessor _ := []
  reference := mentionsOf
  parameter := mentionsOfParameter

/-- The mentions in a listing, in the order of the text. -/
def ListingNode.mentions (node : ListingNode) : List Mention :=
  mentionNotes.listing node

/-! ### Mentions at places of the text -/

/-- The mention is made of a reference that is read here. The next one may be inside of it. -/
def Mention.StandsAt (mention : Mention) (here there : List Token) : Prop :=
  there = here ∧ ∃ limit use rest, Reads (typeUseWithin limit) here use rest ∧
    mention.IsMadeOf use.type

/-- Inside of a reference, its arguments are noted. -/
theorem referenceScheme_arguments :
    ReferenceScheme (.ofPlaces Mention.StandsAt) (fun type => type.arguments.map Mention.type)
      mentionsOf fun _ => [] where
  mark _ _ := (Yields.mark _).silent
  glued := Yields.glued.silent
  start := Yields.start.silent
  edge := Yields.edge.silent
  identifier := yields_parameterIdentifier.silent
  path := yields_typePath.silent
  takesSuffix := yields_suffix.silent
  parameter _ _ := rfl
  ofName name := by rw [TypeReference.arguments_ofName, List.map_nil]
  instantiation _ arguments := by
    rw [TypeReference.arguments, TypeReference.usesIn_eq_flatMap, List.map_flatMap]
    rfl
  apply element suffix := by cases suffix <;> exact (List.append_nil _).symm

/-- **A reference is read where it starts, and its arguments behind that**: by induction on the limit
of the nesting. -/
theorem notes_typeUseWithin (limit : Nat) (mention : TypeReference → Mention)
    (madeOf : ∀ type, (mention type).IsMadeOf type) :
    NoteScheme.Takes Mention.StandsAt (typeUseWithin limit)
      fun use => mention use.type :: use.type.arguments.map Mention.type := by
  induction limit generalizing mention with
  | zero => exact Notes.fail
  | succ limit hypothesis =>
    have inside := referenceScheme_arguments.step (hypothesis .type fun _ => rfl)
    exact inside.headed fun reads => ⟨rfl, _, _, _, reads, madeOf _⟩

theorem notes_typeUse (mention : TypeReference → Mention)
    (madeOf : ∀ type, (mention type).IsMadeOf type) :
    NoteScheme.Takes Mention.StandsAt typeUse
      fun use => mention use.type :: use.type.arguments.map Mention.type :=
  fun tokens _ _ lawful reads => notes_typeUseWithin tokens.length mention madeOf lawful reads

theorem notes_typeReference (mention : TypeReference → Mention)
    (madeOf : ∀ type, (mention type).IsMadeOf type) :
    NoteScheme.Takes Mention.StandsAt typeReference
      fun type => mention type :: type.arguments.map Mention.type :=
  (notes_typeUse mention madeOf).bind fun _ => Notes.pure (List.append_nil _).symm

/-- A parameter is made of the reference behind its colon. -/
theorem notes_parameter : NoteScheme.Takes Mention.StandsAt parameter mentionsOfParameter := by
  refine Notes.attempt ((Yields.attempt (Yields.oneOf _)).maybe.silent.bindSilent fun mode? => ?_)
  refine yields_identifier.silent.bindSilent fun name => ?_
  refine (Yields.mark ':').silent.bindSilent fun _ => ?_
  have type := notes_typeReference
    (fun type => .parameter (parameterOfMode mode? name type)) fun _ => ⟨mode?, rfl⟩
  refine type.bind fun type => Notes.pure ?_
  rw [mentionsOfParameter, arguments_parameterOfMode, List.append_nil]

/-- **The references of a listing are read at places of its text**, in their order. -/
theorem takes_mentions : NoteScheme.Takes Mention.StandsAt listing ListingNode.mentions :=
  NoteScheme.IsTaken.listing {
    accessor := yields_accessor.silent
    use := notes_typeUse .type fun _ => rfl
    parameter := notes_parameter }

/-! ### References by themselves -/

/-- Among the tokens, a reference is read from this span. -/
def IsReadAt (tokens : List Token) (span : Span) (type : TypeReference) : Prop :=
  ∃ here limit use rest, here <:+ tokens ∧ Reads (typeUseWithin limit) here use rest ∧
    use.type = type ∧ span = { start := startOf here, stop := use.stop }

/-- The stretch of the text at the span, read by itself, is the reference. -/
def StandsAlone (text : List Char) (span : Span) (type : TypeReference) : Prop :=
  ∃ written, IsStretch text span written ∧ readTypeReference (String.ofList written) = .ok type

theorem IsReadAt.standsAlone {gap text : List Char} {span : Span} {type : TypeReference}
    (isRead : IsReadAt (tokensBehind 0 gap text) span type) : StandsAlone (gap ++ text) span type := by
  obtain ⟨here, limit, use, rest, within, reads, rfl, rfl⟩ := isRead
  exact exists_standAlone within reads

theorem IsReadAt.standsAlone_listing {text : List Char} {span : Span} {type : TypeReference}
    (isRead : IsReadAt (tokensOf text) span type) : StandsAlone text span type := by
  rw [← splitLayout_append text]
  exact IsReadAt.standsAlone isRead

/-- Mentions that stand one behind the other are read from spans in this order. -/
theorem exists_spans_of_trail {gap text : List Char} {tokens rest : List Token}
    {mentions : List Mention} (trail : Trail Mention.StandsAt tokens mentions rest)
    (within : tokens <:+ tokensBehind 0 gap text) :
    ∃ spans : List Span, (∀ span ∈ spans, startOf tokens ≤ span.start) ∧
      spans.Pairwise (·.start ≤ ·.start) ∧
      List.Forall₂ (fun mention span => ∃ type, mention.IsMadeOf type ∧
        IsReadAt (tokensBehind 0 gap text) span type) mentions spans := by
  induction trail with
  | done => exact ⟨[], fun _ member => (nomatch member), .nil, .nil⟩
  | @step tokens here there _ _ _ inside standing behind _ hypothesis =>
    obtain ⟨rfl, limit, use, left, reads, madeOf⟩ := standing
    have withinToo := inside.trans within
    obtain ⟨spans, later, ordered, read⟩ := hypothesis withinToo
    have present : there ≠ [] := by
      obtain ⟨_, rfl, -, ⟨token, tail, rfl, -⟩, -⟩ := portable_typeUseWithin limit 0 reads
      exact List.cons_ne_nil _ _
    have starts := startOf_le_startOf within inside present
    exact ⟨{ start := startOf there, stop := use.stop } :: spans,
      List.forall_mem_cons.mpr ⟨starts, fun span member => Nat.le_trans starts (later span member)⟩,
      .cons later ordered,
      .cons ⟨use.type, madeOf, there, limit, use, left, withinToo, reads, rfl, rfl⟩ read⟩

/-- **The references of a listing are read from spans of its text**, in their order. -/
theorem exists_spans {text : String} {node : ListingNode} (listed : readListing text = .ok node) :
    ∃ spans : List Span, spans.Pairwise (·.start ≤ ·.start) ∧
      List.Forall₂ (fun mention span => ∃ type, mention.IsMadeOf type ∧
        IsReadAt (tokensOf text.toList) span type) node.mentions spans := by
  obtain ⟨rest, reads⟩ := reads_of_readListing listed
  obtain ⟨⟨_, rfl, trail⟩, -⟩ := takes_mentions isLawful_of_mem_tokensBehind reads
  obtain ⟨spans, -, ordered, read⟩ := exists_spans_of_trail trail (List.suffix_refl _)
  exact ⟨spans, ordered, read⟩

/-- The reference that a text starts with, if it does with one. -/
theorem isReadAt_front {text : List Char} {use : TypeUse} {rest : List Token}
    (reads : Reads typeUse (tokensFrom text) use rest) :
    IsReadAt (tokensFrom text) { start := 0, stop := use.stop } use.type := by
  refine ⟨_, _, use, rest, List.suffix_refl _, reads, rfl, ?_⟩
  rw [show startOf (tokensFrom text) = 0 from startOf_tokensBehind 0 [] text]

/-- What was expected starts differently from what is said of a text that goes on. -/
theorem message_ne_trailing (furthest : Furthest) :
    furthest.message ≠ "trailing input after type reference" := by
  intro same
  have letters := congrArg (fun text => text.toList.head?) same
  unfold Furthest.message at letters
  split at letters
  · revert letters
    decide
  · rw [String.toList_append, List.head?_append] at letters
    exact absurd (Option.some.inj letters) (by decide)

/-- What is said of a text that goes on behind a reference is said of no other one. -/
theorem exists_trailing {text : String} {error : ListingError}
    (failed : readTypeReference text = .error error)
    (told : error.report.message = "Listing syntax error: trailing input after type reference") :
    ∃ use rest, Reads typeUse (tokensFrom (Text.trim text.toList)) use rest ∧
      use.stop ≠ byteSize (Text.trim text.toList) ∧
      error = .trailing { start := use.stop, stop := byteSize (Text.trim text.toList) } := by
  unfold readTypeReference at failed
  dsimp only at failed
  split at failed
  · cases failed
    have parts : "Listing syntax error: " ++ "trailing input after type reference" =
      "Listing syntax error: trailing input after type reference" := by decide
    exact absurd ((String.append_right_inj _).mp (told.trans parts.symm)) (message_ne_trailing _)
  · next use rest reads =>
    split at failed
    · cases failed
    · next further =>
      cases failed
      exact ⟨use, rest, reads, further, rfl⟩

/-- **Of a text that goes on behind a reference, the front is the reference.** -/
theorem readTypeReference_trailing {text : String} {error : ListingError}
    (failed : readTypeReference text = .error error)
    (told : error.report.message = "Listing syntax error: trailing input after type reference") :
    ∃ label written behind type, error.report.labels = [label] ∧ 0 < label.length ∧
      Text.trim text.toList = written ++ behind ∧ byteSize written = label.start ∧
      label.start + label.length = byteSize (Text.trim text.toList) ∧
      readTypeReference (String.ofList written) = .ok type := by
  obtain ⟨use, rest, reads, further, rfl⟩ := exists_trailing failed told
  obtain ⟨written, ⟨front, behind, split, starts, stops⟩, alone⟩ :=
    IsReadAt.standsAlone (isReadAt_front reads)
  rw [List.nil_append] at split
  obtain rfl : front = [] := by
    by_contra present
    exact absurd starts (byteSize_pos present).ne'
  have stops : byteSize written = use.stop := (Nat.zero_add _).symm.trans stops
  have size := congrArg byteSize split
  rw [List.nil_append, byteSize_append, stops] at size
  refine ⟨_, written, behind, use.type, rfl, ?_, split, stops, ?_, alone⟩
  · exact Nat.sub_pos_of_lt (Nat.lt_of_le_of_ne (size ▸ Nat.le_add_right _ _) further)
  · exact Nat.add_sub_cancel' (size ▸ Nat.le_add_right _ _)

/-- **References are read alike whatever stands behind them.** The stretch of the text that a reference
is read from, in a listing or at the front of a text, says the same by itself. These are all the
references of a listing, in their order. -/
theorem references_stand_alone (text : String) :
    (∀ span type, IsReadAt (tokensOf text.toList) span type → StandsAlone text.toList span type) ∧
    (∀ node, readListing text = .ok node → ∃ spans : List Span, spans.Pairwise (·.start ≤ ·.start) ∧
      List.Forall₂ (fun mention span => ∃ type, mention.IsMadeOf type ∧
        IsReadAt (tokensOf text.toList) span type ∧ StandsAlone text.toList span type)
          node.mentions spans) ∧
    (∀ use rest, Reads typeUse (tokensFrom (Text.trim text.toList)) use rest →
      IsReadAt (tokensFrom (Text.trim text.toList)) { start := 0, stop := use.stop } use.type) ∧
    (∀ span type, IsReadAt (tokensFrom (Text.trim text.toList)) span type →
      StandsAlone (Text.trim text.toList) span type) ∧
    ∀ error, readTypeReference text = .error error →
      error.report.message = "Listing syntax error: trailing input after type reference" →
      ∃ label written behind type, error.report.labels = [label] ∧ 0 < label.length ∧
        Text.trim text.toList = written ++ behind ∧ byteSize written = label.start ∧
        label.start + label.length = byteSize (Text.trim text.toList) ∧
        readTypeReference (String.ofList written) = .ok type := by
  refine ⟨fun _ _ => IsReadAt.standsAlone_listing, fun node listed => ?_,
    fun _ _ => isReadAt_front, fun _ _ => IsReadAt.standsAlone, fun _ => readTypeReference_trailing⟩
  obtain ⟨spans, ordered, read⟩ := exists_spans listed
  refine ⟨spans, ordered, read.imp fun mention span found => ?_⟩
  obtain ⟨type, madeOf, isRead⟩ := found
  exact ⟨type, madeOf, isRead, isRead.standsAlone_listing⟩

/-- References as base, as arguments, behind a parameter with a word and a comment, and at the end of
a member. -/
def usesText : String :=
  "assembly a namespace\x7bclass C extends B<A<!T[,]>[]>\x7bmethod M(out x:D<!T>//c\n):!!U//d\n\x7d\x7d"

/-- A reference with a comment and another name behind it. -/
def followedText : String :=
  "N.X<Y[]> // c\n Z"

theorem usesText_facts :
    (match readListing usesText with
      | .ok node => node.mentions.length
      | .error _ => 0) = 6 := by
  unfold readListing usesText
  rw [String.toList_ofList]
  decide +kernel

theorem followedText_facts :
    (match readTypeReference followedText with
      | .error error =>
        (error.report.message, error.report.labels.map fun label => (label.start, label.length))
      | .ok _ => ("", [])) =
    ("Listing syntax error: trailing input after type reference", [(15, 1)]) := by
  unfold readTypeReference followedText
  rw [String.toList_ofList]
  decide +kernel

/-- The six references of one text stand alone, and so does what the other one starts with. -/
theorem references_stand_alone_nested :
    (∃ node spans, readListing usesText = .ok node ∧ node.mentions.length = 6 ∧
      List.Forall₂ (fun mention span => ∃ type, mention.IsMadeOf type ∧
        IsReadAt (tokensOf usesText.toList) span type ∧ StandsAlone usesText.toList span type)
          node.mentions spans) ∧
    ∃ error written behind type, readTypeReference followedText = .error error ∧
      (error.report.labels.map fun label => (label.start, label.length)) = [(15, 1)] ∧
      Text.trim followedText.toList = written ++ behind ∧ byteSize written = 15 ∧
      readTypeReference (String.ofList written) = .ok type := by
  have facts := usesText_facts
  have told := followedText_facts
  constructor
  · cases listed : readListing usesText with
    | error error =>
      rw [listed] at facts
      cases facts
    | ok node =>
      rw [listed] at facts
      obtain ⟨spans, -, read⟩ := (references_stand_alone usesText).2.1 node listed
      exact ⟨node, spans, rfl, facts, read⟩
  · cases failed : readTypeReference followedText with
    | ok type =>
      rw [failed] at told
      cases congrArg Prod.snd told
    | error error =>
      rw [failed] at told
      obtain ⟨label, written, behind, type, labels, -, split, starts, -, alone⟩ :=
        (references_stand_alone followedText).2.2.2.2 error failed (congrArg Prod.fst told)
      have places := congrArg Prod.snd told
      refine ⟨error, written, behind, type, rfl, places, split, ?_, alone⟩
      rw [starts]
      dsimp only at places
      rw [labels] at places
      exact congrArg Prod.fst (List.cons.inj places).1

end Listing

end ExternBindings
