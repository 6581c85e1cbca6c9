/-
**Listings that were read are well-formed.**

* `IsWellFormed`, for parameters, members, type declarations and whole listings — all names follow
  the rules and all references are in normal form;
* `yields_parameter`, `yields_memberDeclaration`, `yields_typeDeclaration` and the others — each
  construct of the notation reads only well-formed values;
* `isWellFormed_of_readListing` — so a text that is a listing at all is a well-formed one.
-/

import ExternBindings.Listing.Grammar
import ExternBindings.Proofs.Listing.ReadType

namespace ExternBindings

/-- The name is an identifier, the type in normal form, and what is written to is passed by
reference. -/
structure Parameter.IsWellFormed (parameter : Parameter) : Prop where
  name : isIdentifier parameter.name = true
  type : parameter.type.IsCanonical
  byRef : parameter.isOut = true → parameter.isByRef = true

namespace Listing

open Reading

/-! ### Well-formed declarations -/

/-- All names follow the rules and all types are in normal form. -/
def MemberBody.IsWellFormed : MemberBody → Prop
  | field name type => isIdentifier name = true ∧ type.IsCanonical
  | property name type indexParameters _ =>
    isDottedName name = true ∧ type.IsCanonical ∧
      ∀ parameter ∈ indexParameters, parameter.IsWellFormed
  | event name handler _ => isDottedName name = true ∧ handler.IsCanonical
  | constructor parameters => ∀ parameter ∈ parameters, parameter.IsWellFormed
  | method name genericParameters parameters returns =>
    isDottedName name = true ∧ (∀ generic ∈ genericParameters, isIdentifier generic = true) ∧
      (∀ parameter ∈ parameters, parameter.IsWellFormed) ∧ returns.IsCanonical

/-- All names follow the rules and all types are in normal form. -/
structure TypeHeader.IsWellFormed (header : TypeHeader) : Prop where
  name : isIdentifier header.name = true
  genericParameters : ∀ generic ∈ header.genericParameters, isIdentifier generic = true
  base : ∀ base ∈ header.base?, base.IsCanonical
  interfaces : ∀ type ∈ header.interfaces, type.IsCanonical

mutual

/-- The type and everything declared inside of it are well-formed. -/
def TypeNode.IsWellFormed : TypeNode → Prop
  | .node header content => header.IsWellFormed ∧ IsWellFormedContent content

/-- Everything that is declared inside of a type is well-formed. -/
def IsWellFormedContent : List (TypeNode ⊕ MemberNode) → Prop
  | [] => True
  | .inl type :: rest => type.IsWellFormed ∧ IsWellFormedContent rest
  | .inr member :: rest => member.body.IsWellFormed ∧ IsWellFormedContent rest

end

/-- One thing declared inside of a type is well-formed. -/
def IsWellFormedPart (part : TypeNode ⊕ MemberNode) : Prop :=
  part.elim TypeNode.IsWellFormed fun member => member.body.IsWellFormed

theorem isWellFormedContent_iff {content : List (TypeNode ⊕ MemberNode)} :
    IsWellFormedContent content ↔ ∀ part ∈ content, IsWellFormedPart part := by
  induction content with
  | nil => simp [IsWellFormedContent]
  | cons part rest hypothesis =>
    cases part <;> simp [IsWellFormedContent, IsWellFormedPart, hypothesis]

/-- The members of a type stand in its content. -/
theorem inr_mem_of_mem_members {content : List (TypeNode ⊕ MemberNode)} {member : MemberNode}
    (held : member ∈ content.filterMap Sum.getRight?) : .inr member ∈ content := by
  obtain ⟨part, inContent, isMember⟩ := List.mem_filterMap.mp held
  rwa [← Sum.getRight?_eq_some_iff.mp isMember]

/-- The namespace has a dotted name or none, and its types are well-formed. -/
structure NamespaceNode.IsWellFormed (block : NamespaceNode) : Prop where
  space : block.space = "" ∨ isDottedName block.space = true
  types : ∀ type ∈ block.types, type.IsWellFormed

/-! ### Names and words -/

theorem yields_identifier :
    Yields Lexeme.IsLawful identifier fun text => isIdentifier text = true :=
  Yields.attempt yields_rawIdentifier

theorem yields_dottedName :
    Yields Lexeme.IsLawful dottedName fun text => isDottedName text = true :=
  Yields.attempt (yields_rawDottedName.bind fun _ both =>
    Yields.pure (isDottedName_join both.1 both.2))

theorem yields_typeReference :
    Yields Lexeme.IsLawful typeReference TypeReference.IsCanonical :=
  yields_typeUse.bind fun _ canonical => Yields.pure canonical

section Words

variable {fits : Lexeme → Prop}

theorem yields_named (construct : Construct) (text : String) :
    Yields fits (named construct text) fun _ => True :=
  Yields.attempt (Yields.keyword text)

theorem yields_modifiers : Yields fits modifiers fun _ => True :=
  (Yields.attempt (Yields.oneOf Modifier.words)).many.mono fun _ _ => trivial

theorem yields_accessor : Yields fits accessor fun _ => True := by
  refine Yields.attempt (Yields.start.bind fun start _ => ?_)
  refine (Yields.attempt (Yields.oneOf _)).bind fun word _ => ?_
  refine yields_modifiers.bind fun modifiers _ => (Yields.mark ';').bind fun _ _ => ?_
  exact Yields.edge.bind fun stop _ => Yields.pure trivial

theorem yields_accessorBlock : Yields fits accessorBlock fun _ => True :=
  Yields.attempt ((Yields.mark '{').bind fun _ _ => yields_accessor.many.bind fun _ _ =>
    (Yields.mark '}').bind fun _ _ => Yields.pure trivial)

end Words

/-! ### Parameters -/

theorem isWellFormed_parameterOfMode {name : String} (identifier : isIdentifier name = true)
    {type : TypeReference} (canonical : type.IsCanonical) (mode? : Option ParameterMode) :
    (parameterOfMode mode? name type).IsWellFormed := by
  unfold parameterOfMode
  split
  · exact ⟨identifier, TypeReference.isCanonical_indirect canonical .byRef, fun _ => rfl⟩
  · next kept =>
    refine ⟨identifier, canonical, fun written => ?_⟩
    rw [of_decide_eq_true written] at kept
    simpa [Parameter.isByRef] using kept

theorem yields_parameter : Yields Lexeme.IsLawful parameter Parameter.IsWellFormed := by
  refine Yields.attempt ((Yields.attempt (Yields.oneOf _)).maybe.bind fun mode? _ => ?_)
  refine yields_identifier.bind fun name spelled => (Yields.mark ':').bind fun _ _ => ?_
  refine yields_typeReference.bind fun type canonical => Yields.pure ?_
  exact isWellFormed_parameterOfMode spelled canonical mode?

theorem forall_mem_getD {α : Type} {property : α → Prop} {values? : Option (List α)}
    (all : ∀ values ∈ values?, ∀ value ∈ values, property value) :
    ∀ value ∈ values?.getD [], property value := by
  cases values? with
  | none => simp
  | some values => exact all values rfl

theorem yields_separated {α : Type} {separator : Char} {item : Reading α} {property : α → Prop}
    (yields : Yields Lexeme.IsLawful item property) :
    Yields Lexeme.IsLawful (separated separator item) fun values =>
      ∀ value ∈ values, property value :=
  yields.separated.mono fun _ both => both.2

theorem yields_parameterList :
    Yields Lexeme.IsLawful parameterList fun parameters =>
      ∀ parameter ∈ parameters, parameter.IsWellFormed := by
  refine Yields.attempt ((Yields.mark '(').bind fun _ _ => ?_)
  refine (yields_separated yields_parameter).maybe.bind fun parameters? all => ?_
  exact (Yields.mark ')').bind fun _ _ => Yields.pure (forall_mem_getD all)

theorem yields_indexParameters :
    Yields Lexeme.IsLawful indexParameters fun parameters =>
      ∀ parameter ∈ parameters, parameter.IsWellFormed :=
  Yields.attempt ((Yields.mark '[').bind fun _ _ =>
    (yields_separated yields_parameter).bind fun _ all =>
      (Yields.mark ']').bind fun _ _ => Yields.pure all)

theorem yields_genericParameters :
    Yields Lexeme.IsLawful genericParameters fun names =>
      ∀ name ∈ names, isIdentifier name = true :=
  Yields.attempt ((Yields.mark '<').bind fun _ _ =>
    (yields_separated yields_identifier).bind fun _ all =>
      (Yields.mark '>').bind fun _ _ => Yields.pure all)

/-! ### Members -/

/-- The property that every reading of a member yields. -/
abbrev ReadsMember (reading : Reading MemberNode) : Prop :=
  Yields Lexeme.IsLawful reading fun member => member.body.IsWellFormed

theorem yields_fieldDeclaration : ReadsMember fieldDeclaration := by
  refine Yields.attempt (Yields.start.bind fun start _ => yields_modifiers.bind fun words _ => ?_)
  refine (yields_named _ _).bind fun _ _ => yields_identifier.bind fun name spelled => ?_
  refine (Yields.mark ':').bind fun _ _ => yields_typeUse.bind fun use canonical => ?_
  exact Yields.pure ⟨spelled, canonical⟩

theorem yields_propertyDeclaration : ReadsMember propertyDeclaration := by
  refine Yields.attempt (Yields.start.bind fun start _ => yields_modifiers.bind fun words _ => ?_)
  refine (yields_named _ _).bind fun _ _ => yields_dottedName.bind fun name spelled => ?_
  refine (Yields.mark ':').bind fun _ _ => yields_typeReference.bind fun type canonical => ?_
  refine yields_indexParameters.maybe.bind fun parameters? all => ?_
  refine yields_accessorBlock.bind fun accessors _ => Yields.edge.bind fun stop _ => ?_
  exact Yields.pure ⟨spelled, canonical, forall_mem_getD all⟩

theorem yields_eventDeclaration : ReadsMember eventDeclaration := by
  refine Yields.attempt (Yields.start.bind fun start _ => yields_modifiers.bind fun words _ => ?_)
  refine (yields_named _ _).bind fun _ _ => yields_dottedName.bind fun name spelled => ?_
  refine (Yields.mark ':').bind fun _ _ => yields_typeReference.bind fun handler canonical => ?_
  refine yields_accessorBlock.bind fun accessors _ => Yields.edge.bind fun stop _ => ?_
  exact Yields.pure ⟨spelled, canonical⟩

theorem yields_constructorDeclaration : ReadsMember constructorDeclaration := by
  refine Yields.attempt (Yields.start.bind fun start _ => yields_modifiers.bind fun words _ => ?_)
  refine (yields_named _ _).bind fun _ _ => yields_parameterList.bind fun parameters all => ?_
  exact Yields.edge.bind fun stop _ => Yields.pure all

theorem yields_methodDeclaration : ReadsMember methodDeclaration := by
  refine Yields.attempt (Yields.start.bind fun start _ => yields_modifiers.bind fun words _ => ?_)
  refine (yields_named _ _).bind fun _ _ => yields_dottedName.bind fun name spelled => ?_
  refine yields_genericParameters.maybe.bind fun generics? names => ?_
  refine yields_parameterList.bind fun parameters all => (Yields.mark ':').bind fun _ _ => ?_
  refine yields_typeUse.bind fun use canonical => ?_
  exact Yields.pure ⟨spelled, forall_mem_getD names, all, canonical⟩

theorem yields_memberDeclaration : ReadsMember memberDeclaration :=
  yields_fieldDeclaration.orElse (yields_propertyDeclaration.orElse
    (yields_eventDeclaration.orElse
      (yields_constructorDeclaration.orElse yields_methodDeclaration)))

/-! ### Types and listings -/

theorem yields_extendsClause : Yields Lexeme.IsLawful extendsClause TypeReference.IsCanonical :=
  Yields.attempt ((yields_named _ _).bind fun _ _ => yields_typeReference)

theorem yields_implementsClause :
    Yields Lexeme.IsLawful implementsClause fun types => ∀ type ∈ types, type.IsCanonical :=
  Yields.attempt ((yields_named _ _).bind fun _ _ => yields_separated yields_typeReference)

theorem yields_typeDeclarationWithin (limit : Nat) :
    Yields Lexeme.IsLawful (typeDeclarationWithin limit) TypeNode.IsWellFormed := by
  induction limit with
  | zero => exact Yields.fail
  | succ limit hypothesis =>
    have inner : Yields Lexeme.IsLawful (do return .inl (← typeDeclarationWithin limit))
        IsWellFormedPart :=
      hypothesis.bind fun type wellFormed => Yields.pure wellFormed
    have member : Yields Lexeme.IsLawful (do return .inr (← memberDeclaration))
        IsWellFormedPart :=
      yields_memberDeclaration.bind fun member wellFormed => Yields.pure wellFormed
    refine Yields.attempt (Yields.start.bind fun start _ => yields_modifiers.bind fun words _ => ?_)
    refine (Yields.attempt (Yields.oneOf _)).bind fun kind _ => ?_
    refine yields_identifier.bind fun name spelled => ?_
    refine yields_genericParameters.maybe.bind fun generics? names => ?_
    refine yields_extendsClause.maybe.bind fun base? base => ?_
    refine yields_implementsClause.maybe.bind fun interfaces? interfaces => ?_
    refine (Yields.mark '{').bind fun _ _ => (inner.orElse member).many.bind fun content all => ?_
    refine (Yields.mark '}').bind fun _ _ => Yields.edge.bind fun stop _ => Yields.pure ?_
    exact ⟨⟨spelled, forall_mem_getD names, base, forall_mem_getD interfaces⟩,
      isWellFormedContent_iff.mpr all⟩

theorem yields_typeDeclaration :
    Yields Lexeme.IsLawful typeDeclaration TypeNode.IsWellFormed :=
  fun tokens _ _ lawful taken => yields_typeDeclarationWithin tokens.length lawful taken

theorem yields_namespaceDeclaration :
    Yields Lexeme.IsLawful namespaceDeclaration NamespaceNode.IsWellFormed := by
  refine Yields.attempt ((yields_named _ _).bind fun _ _ => ?_)
  refine yields_dottedName.maybe.bind fun space? spelled => (Yields.mark '{').bind fun _ _ => ?_
  refine yields_typeDeclaration.many.bind fun types all => (Yields.mark '}').bind fun _ _ => ?_
  refine Yields.pure ⟨?_, all⟩
  cases space? with
  | none => exact Or.inl rfl
  | some space => exact Or.inr (spelled space rfl)

theorem yields_listing :
    Yields Lexeme.IsLawful listing fun node => ∀ block ∈ node.namespaces, block.IsWellFormed := by
  refine Yields.attemptAt ((Yields.attempt ((yields_named _ _).bind fun _ _ =>
    yields_dottedName)).bind fun assembly _ => ?_)
  refine yields_namespaceDeclaration.many.bind fun namespaces all => ?_
  exact (Yields.attempt Yields.finish).bind fun _ _ => Yields.pure all

/-- The text that was read, if it is a listing. -/
theorem reads_of_readListing {text : String} {node : ListingNode}
    (read : readListing text = .ok node) :
    ∃ rest, Reads listing (tokensOf text.toList) node rest := by
  unfold readListing at read
  cases taken : (listing (tokensOf text.toList)).value? with
  | none =>
    simp only [taken] at read
    cases read
  | some answer =>
    simp only [taken] at read
    cases read
    exact ⟨answer.2, taken⟩

/-- **A text that is a listing at all is a well-formed one.** -/
theorem isWellFormed_of_readListing {text : String} {node : ListingNode}
    (answered : readListing text = .ok node) : ∀ block ∈ node.namespaces, block.IsWellFormed := by
  obtain ⟨rest, taken⟩ := reads_of_readListing answered
  exact (yields_listing isLawful_of_mem_tokensBehind taken).1

end Listing

end ExternBindings
