/-
**What is noted of the parts of a reference, and of a listing.**

A *scheme* tells what is noted of each part. The notes of the whole follow one another as the parts do
in the text.

* `ReferenceScheme` — notes of the arguments and suffixes of a reference; `ReferenceScheme.step` — they
  are taken where the reference is read, if those of its arguments are;
* `NoteScheme.listing` — the notes of a listing, put together from those of its parts;
* `NoteScheme.IsTaken` — the readings of these parts take the notes;
* `NoteScheme.IsTaken.listing` — so the readings of members, types and whole listings do.
-/

import ExternBindings.Proofs.Listing.Notes
import ExternBindings.Proofs.Listing.WellFormed

namespace ExternBindings.Listing

open Reading

variable {ν : Type}

/-! ### Names -/

section Names

variable {trace : Trace ν} {noted : List Char} (only : trace.NotesOnly noted)

include only

theorem silent_rawIdentifier : Silent trace rawIdentifier := by
  have marker : Silent trace (maybe do glued; arityMarker) :=
    ((silent_glued trace).bindSilent fun _ => only.accept fun _ _ => rfl).maybeSilent
  exact (only.accept fun _ _ => rfl).bindSilent fun _ => marker.bindSilent fun _ => Notes.pure rfl

theorem silent_gluedIdentifiers {separator : Char} (apart : separator ∉ noted) :
    Silent trace (gluedIdentifiers separator) :=
  ((silent_glued trace).bindSilent fun _ => (only.mark apart).bindSilent fun _ =>
    (silent_glued trace).bindSilent fun _ => silent_rawIdentifier only).manySilent

theorem silent_typePath (noDot : '.' ∉ noted) (noSlash : '/' ∉ noted) : Silent trace typePath := by
  have dotted : Silent trace rawDottedName :=
    (silent_rawIdentifier only).bindSilent fun _ =>
      (silent_gluedIdentifiers only noDot).bindSilent fun _ => Notes.pure rfl
  exact Notes.attempt (dotted.bindSilent fun _ =>
    (silent_gluedIdentifiers only noSlash).bindSilent fun _ => Notes.pure rfl)

theorem silent_parameterIdentifier : Silent trace parameterIdentifier :=
  Notes.attemptAt ((silent_glued trace).bindSilent fun _ => silent_rawIdentifier only)

end Names

/-! ### References -/

/-- What is noted inside of a reference, where its arguments and suffixes stand, and nowhere else. -/
structure ReferenceScheme (trace : Trace ν) (own argument : TypeReference → List ν)
    (suffix : Suffix → List ν) : Prop where
  mark : ∀ char ∈ ['!', '<', ',', '>'], Silent trace (mark char)
  glued : Silent trace glued
  start : Silent trace start
  edge : Silent trace edge
  identifier : Silent trace parameterIdentifier
  path : Silent trace typePath
  takesSuffix : Notes trace Listing.suffix fun value notes => suffix value = notes
  parameter : ∀ owner name, own (.parameter owner name) = []
  ofName : ∀ name, own (.ofName name) = []
  instantiation : ∀ definition arguments,
    own (.instantiation definition arguments) = arguments.flatMap argument
  apply : ∀ element value, own (Suffix.apply element value) = own element ++ suffix value

namespace ReferenceScheme

variable {trace : Trace ν} {own argument : TypeReference → List ν} {suffix : Suffix → List ν}
  (scheme : ReferenceScheme trace own argument suffix)

include scheme

theorem foldl (atom : TypeReference) (suffixes : List Suffix) :
    own (suffixes.foldl Suffix.apply atom) = own atom ++ suffixes.flatMap suffix := by
  induction suffixes generalizing atom with
  | nil => exact (List.append_nil _).symm
  | cons value suffixes hypothesis =>
    rw [List.foldl_cons, hypothesis, scheme.apply, List.flatMap_cons, List.append_assoc]

theorem anyVariable (owner : ParameterOwner) :
    Notes trace (do return TypeReference.parameter owner (← parameterIdentifier))
      fun value notes => own value = notes :=
  scheme.identifier.bindSilent fun _ => Notes.pure (scheme.parameter _ _)

/-- What suffixes stand behind. -/
theorem atom {item : Reading TypeUse}
    (taken : Notes trace item fun use notes => argument use.type = notes) :
    Notes trace (methodVariable <|> typeVariable <|> namedType item)
      fun value notes => own value = notes := by
  refine Notes.orElse ?_ (Notes.orElse ?_ ?_)
  · refine Notes.attempt ((scheme.mark _ (by decide)).bindSilent fun _ => ?_)
    refine scheme.glued.bindSilent fun _ => (scheme.mark _ (by decide)).bindSilent fun _ => ?_
    exact scheme.anyVariable _
  · exact Notes.attempt ((scheme.mark _ (by decide)).bindSilent fun _ => scheme.anyVariable _)
  · have arguments : Notes trace (genericArguments item)
        fun types notes => types.flatMap argument = notes := by
      refine Notes.attempt ((scheme.mark _ (by decide)).bindSilent fun _ => ?_)
      refine (taken.separated (scheme.mark _ (by decide))).bind fun uses => ?_
      refine (scheme.mark _ (by decide)).bindSilent fun _ => Notes.pure ?_
      rw [List.append_nil, List.flatMap_map]
    refine Notes.attempt (scheme.path.bindSilent fun name => arguments.maybe.bind fun types? => ?_)
    cases types? with
    | some types => exact Notes.pure ((scheme.instantiation _ _).trans (List.append_nil _).symm)
    | none => exact Notes.pure (scheme.ofName _)

/-- **The notes of a reference are taken where it is read**, if those of its arguments are. -/
theorem step {limit : Nat}
    (taken : Notes trace (typeUseWithin limit) fun use notes => argument use.type = notes) :
    Notes trace (typeUseWithin (limit + 1)) fun use notes => own use.type = notes := by
  refine Notes.attempt ((scheme.atom taken).bind fun atom => ?_)
  refine scheme.takesSuffix.many.bind fun suffixes => ?_
  have answer : own (suffixes.foldl Suffix.apply atom) =
      own atom ++ (suffixes.flatMap suffix ++ []) := by
    rw [scheme.foldl, List.append_nil]
  dsimp only
  split
  · exact scheme.start.bindSilent fun stop => Notes.pure answer
  · exact scheme.edge.bindSilent fun stop => Notes.pure answer

end ReferenceScheme

/-! ### Listings -/

/-- What is noted of the parts of a listing. -/
structure NoteScheme (ν : Type) where
  accessor : AccessorNode → List ν
  reference : TypeReference → List ν
  parameter : Parameter → List ν

namespace NoteScheme

section Notes

variable (own : NoteScheme ν)

/-- The notes of a member, in the order of the text. -/
def member (node : MemberNode) : List ν :=
  match node.body with
  | .field _ type => own.reference type
  | .property _ type indexParameters accessors =>
    own.reference type ++ (indexParameters.flatMap own.parameter ++ accessors.flatMap own.accessor)
  | .event _ handler accessors => own.reference handler ++ accessors.flatMap own.accessor
  | .constructor parameters => parameters.flatMap own.parameter
  | .method _ _ parameters returns =>
    parameters.flatMap own.parameter ++ own.reference returns

/-- The notes of what a type says of itself. -/
def header (header : TypeHeader) : List ν :=
  header.base?.elim [] own.reference ++ header.interfaces.flatMap own.reference

mutual

/-- The notes of a type and of what is declared inside of it, in the order of the text. -/
def type : TypeNode → List ν
  | .node header content => own.header header ++ inside content

/-- The notes of what is declared inside of a type. -/
def inside : List (TypeNode ⊕ MemberNode) → List ν
  | [] => []
  | .inl node :: rest => type node ++ inside rest
  | .inr node :: rest => own.member node ++ inside rest

end

theorem inside_eq_flatMap (content : List (TypeNode ⊕ MemberNode)) :
    own.inside content = content.flatMap (Sum.elim own.type own.member) := by
  induction content with
  | nil => rfl
  | cons part rest hypothesis =>
    cases part <;> rw [inside, hypothesis, List.flatMap_cons] <;> rfl

/-- The notes of a listing, in the order of the text. -/
def listing (node : ListingNode) : List ν :=
  node.namespaces.flatMap fun block => block.types.flatMap own.type

end Notes

/-- A reading takes what is noted of its value. -/
abbrev Takes {α : Type} (stands : ν → List Token → List Token → Prop) (reading : Reading α)
    (noted : α → List ν) : Prop :=
  Notes (.ofPlaces stands) reading fun value notes => noted value = notes

variable {stands : ν → List Token → List Token → Prop} {own : NoteScheme ν}

/-- The notes of accessors, references and parameters are taken where these are read. -/
structure IsTaken (stands : ν → List Token → List Token → Prop) (own : NoteScheme ν) : Prop where
  accessor : Takes stands Listing.accessor own.accessor
  use : Takes stands typeUse fun use => own.reference use.type
  parameter : Takes stands Listing.parameter own.parameter

theorem flatMap_getD {α β : Type} (values? : Option (List α)) (noted : α → List β) :
    values?.elim [] (fun values => values.flatMap noted) = (values?.getD []).flatMap noted := by
  cases values? <;> rfl

namespace IsTaken

variable (taken : own.IsTaken stands)

include taken

theorem reference : Takes stands typeReference own.reference :=
  taken.use.bind fun _ => Notes.pure (List.append_nil _).symm

theorem parameterList :
    Takes stands parameterList fun parameters => parameters.flatMap own.parameter := by
  refine Notes.attempt ((Yields.mark '(').silent.bindSilent fun _ => ?_)
  refine (taken.parameter.separated (Yields.mark ',').silent).maybe.bind fun parameters? => ?_
  refine (Yields.mark ')').silent.bindSilent fun _ => Notes.pure ?_
  rw [flatMap_getD, List.append_nil]

theorem indexParameters :
    Takes stands indexParameters fun parameters => parameters.flatMap own.parameter := by
  refine Notes.attempt ((Yields.mark '[').silent.bindSilent fun _ => ?_)
  refine (taken.parameter.separated (Yields.mark ',').silent).bind fun parameters => ?_
  exact (Yields.mark ']').silent.bindSilent fun _ => Notes.pure (List.append_nil _).symm

theorem accessorBlock :
    Takes stands accessorBlock fun accessors => accessors.flatMap own.accessor := by
  refine Notes.attempt ((Yields.mark '{').silent.bindSilent fun _ => ?_)
  refine taken.accessor.many.bind fun accessors => ?_
  exact (Yields.mark '}').silent.bindSilent fun _ => Notes.pure (List.append_nil _).symm

/-! ### Members -/

theorem fieldDeclaration : Takes stands fieldDeclaration own.member := by
  refine Notes.attempt (Yields.start.silent.bindSilent fun start => ?_)
  refine yields_modifiers.silent.bindSilent fun words => ?_
  refine (yields_named _ _).silent.bindSilent fun _ => ?_
  refine yields_identifier.silent.bindSilent fun name => ?_
  refine (Yields.mark ':').silent.bindSilent fun _ => ?_
  exact taken.use.bind fun use => Notes.pure (List.append_nil _).symm

theorem propertyDeclaration : Takes stands propertyDeclaration own.member := by
  refine Notes.attempt (Yields.start.silent.bindSilent fun start => ?_)
  refine yields_modifiers.silent.bindSilent fun words => ?_
  refine (yields_named _ _).silent.bindSilent fun _ => ?_
  refine yields_dottedName.silent.bindSilent fun name => ?_
  refine (Yields.mark ':').silent.bindSilent fun _ => ?_
  refine taken.reference.bind fun type => taken.indexParameters.maybe.bind fun parameters? => ?_
  refine taken.accessorBlock.bind fun accessors => Yields.edge.silent.bindSilent fun stop => ?_
  refine Notes.pure ?_
  rw [flatMap_getD, List.append_nil]
  rfl

theorem eventDeclaration : Takes stands eventDeclaration own.member := by
  refine Notes.attempt (Yields.start.silent.bindSilent fun start => ?_)
  refine yields_modifiers.silent.bindSilent fun words => ?_
  refine (yields_named _ _).silent.bindSilent fun _ => ?_
  refine yields_dottedName.silent.bindSilent fun name => ?_
  refine (Yields.mark ':').silent.bindSilent fun _ => ?_
  refine taken.reference.bind fun handler => taken.accessorBlock.bind fun accessors => ?_
  refine Yields.edge.silent.bindSilent fun stop => Notes.pure ?_
  rw [List.append_nil]
  rfl

theorem constructorDeclaration : Takes stands constructorDeclaration own.member := by
  refine Notes.attempt (Yields.start.silent.bindSilent fun start => ?_)
  refine yields_modifiers.silent.bindSilent fun words => ?_
  refine (yields_named _ _).silent.bindSilent fun _ => taken.parameterList.bind fun parameters => ?_
  exact Yields.edge.silent.bindSilent fun stop => Notes.pure (List.append_nil _).symm

theorem methodDeclaration : Takes stands methodDeclaration own.member := by
  refine Notes.attempt (Yields.start.silent.bindSilent fun start => ?_)
  refine yields_modifiers.silent.bindSilent fun words => ?_
  refine (yields_named _ _).silent.bindSilent fun _ => ?_
  refine yields_dottedName.silent.bindSilent fun name => ?_
  refine yields_genericParameters.maybe.silent.bindSilent fun generics? => ?_
  refine taken.parameterList.bind fun parameters => (Yields.mark ':').silent.bindSilent fun _ => ?_
  refine taken.use.bind fun use => Notes.pure ?_
  rw [List.append_nil]
  rfl

theorem member : Takes stands memberDeclaration own.member :=
  taken.fieldDeclaration.orElse (taken.propertyDeclaration.orElse (taken.eventDeclaration.orElse
    (taken.constructorDeclaration.orElse taken.methodDeclaration)))

/-! ### Types and listings -/

theorem typeWithin (limit : Nat) : Takes stands (typeDeclarationWithin limit) own.type := by
  induction limit with
  | zero => exact Notes.fail
  | succ limit hypothesis =>
    have inner : Takes stands (do return .inl (← typeDeclarationWithin limit))
        (Sum.elim own.type own.member) :=
      hypothesis.bind fun node => Notes.pure (List.append_nil _).symm
    have member : Takes stands (do return .inr (← memberDeclaration))
        (Sum.elim own.type own.member) :=
      taken.member.bind fun node => Notes.pure (List.append_nil _).symm
    have base : Takes stands extendsClause own.reference :=
      Notes.attempt ((yields_named _ _).silent.bindSilent fun _ => taken.reference)
    have interfaces : Takes stands implementsClause fun types => types.flatMap own.reference :=
      Notes.attempt ((yields_named _ _).silent.bindSilent fun _ =>
        taken.reference.separated (Yields.mark ',').silent)
    refine Notes.attempt (Yields.start.silent.bindSilent fun start => ?_)
    refine yields_modifiers.silent.bindSilent fun words => ?_
    refine (Yields.attempt (Yields.oneOf _)).silent.bindSilent fun kind => ?_
    refine yields_identifier.silent.bindSilent fun name => ?_
    refine yields_genericParameters.maybe.silent.bindSilent fun generics? => ?_
    refine base.maybe.bind fun base? => interfaces.maybe.bind fun interfaces? => ?_
    refine (Yields.mark '{').silent.bindSilent fun _ => ?_
    refine (inner.orElse member).many.bind fun content => ?_
    refine (Yields.mark '}').silent.bindSilent fun _ => Yields.edge.silent.bindSilent fun stop => ?_
    refine Notes.pure ?_
    rw [type, header, flatMap_getD, inside_eq_flatMap, List.append_nil, List.append_assoc]

theorem type : Takes stands typeDeclaration own.type :=
  fun tokens _ _ lawful reads => taken.typeWithin tokens.length lawful reads

/-- **The notes of a listing are taken in the order of its text.** -/
theorem listing : Takes stands Listing.listing own.listing := by
  have block : Takes stands namespaceDeclaration fun block => block.types.flatMap own.type := by
    refine Notes.attempt ((yields_named _ _).silent.bindSilent fun _ => ?_)
    refine yields_dottedName.maybe.silent.bindSilent fun space? => ?_
    refine (Yields.mark '{').silent.bindSilent fun _ => taken.type.many.bind fun types => ?_
    exact (Yields.mark '}').silent.bindSilent fun _ => Notes.pure (List.append_nil _).symm
  have assembly : Yields Lexeme.IsLawful assemblyDeclaration fun _ => True :=
    Yields.attempt ((yields_named _ _).bind fun _ _ => yields_dottedName.mono fun _ _ => trivial)
  refine Notes.attemptAt (assembly.silent.bindSilent fun assembly => ?_)
  refine block.many.bind fun namespaces => ?_
  refine (Yields.attempt Yields.finish).silent.bindSilent fun _ => ?_
  exact Notes.pure (List.append_nil _).symm

end IsTaken

end NoteScheme

end ExternBindings.Listing
