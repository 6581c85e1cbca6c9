/-
**Layout is insignificant.**

Every construct of the notation agrees with itself on token lists that differ only in their layouts,
so a listing may be laid out in any other way.

* `agrees_identifier`, …, `agrees_listing` — the constructs, in the order of the notation;
* `readAssembly_respaced` — **a listing with other layouts has the same outcome**: the same assembly
  up to stretches of text, or the same fault up to its place.
-/

import ExternBindings.Proofs.Listing.Agreement
import ExternBindings.Proofs.Listing.WellFormed
import ExternBindings.Proofs.Listing.WithoutPlaces

namespace ExternBindings.Listing

open Reading

/-! ### Names -/

theorem agrees_word : Agrees Closed Eq Closed word word := by
  refine Agrees.accept fun lexeme value chosen => ?_
  cases lexeme with
  | word => exact ⟨rfl, rfl⟩
  | arity | mark | finish => cases chosen

theorem agrees_marker : Agrees Closed Eq Closed
    (maybe do glued; arityMarker) (maybe do glued; arityMarker) := by
  refine Agrees.maybeEq (Agrees.gluedAccept fun last? lexeme value _ chosen => ?_)
  cases lexeme with
  | arity => exact ⟨mayTouch_of_continues rfl, rfl⟩
  | word | mark | finish => cases chosen

theorem agrees_rawIdentifier : Agrees Closed Eq Closed rawIdentifier rawIdentifier := by
  refine agrees_word.bind ?_
  rintro base _ rfl
  refine agrees_marker.bind ?_
  rintro marker? _ rfl
  exact Agrees.pure rfl

/-- Behind a sign that opens a name, the identifier is joined to it. -/
theorem agrees_gluedIdentifier {before : Option Lexeme → Prop}
    (opened : ∀ last?, before last? → last?.any Lexeme.opens = true) :
    Agrees before Eq Closed (do glued; rawIdentifier) (do glued; rawIdentifier) := by
  have agreesWord : Agrees before Eq Closed (do glued; word) (do glued; word) := by
    refine Agrees.gluedAccept fun last? lexeme value holds chosen => ?_
    cases lexeme with
    | word =>
      refine ⟨?_, rfl⟩
      rw [mayTouch, isInName, opened _ holds]
      rfl
    | arity | mark | finish => cases chosen
  unfold rawIdentifier
  refine Agrees.assoc (agreesWord.bind ?_)
  rintro base _ rfl
  refine agrees_marker.bind ?_
  rintro marker? _ rfl
  exact Agrees.pure rfl

theorem agrees_gluedMark {before : Option Lexeme → Prop} {char : Char}
    (joined : ∀ last?, before last? → mayTouch last? (.mark char) = true) :
    Agrees before Eq (fun last? => last? = some (.mark char)) (do glued; mark char)
      (do glued; mark char) := by
  refine Agrees.gluedAccept fun last? lexeme value holds chosen => ?_
  split at chosen
  · next found =>
    subst found
    exact ⟨joined _ holds, rfl⟩
  · cases chosen

theorem agrees_identifier : Agrees Closed Eq Closed identifier identifier :=
  agrees_rawIdentifier.attempt

theorem agrees_gluedIdentifiers {separator : Char}
    (continues : (Lexeme.mark separator).continues = true)
    (opens : (Lexeme.mark separator).opens = true) :
    Agrees Closed Eq Closed (gluedIdentifiers separator) (gluedIdentifiers separator) := by
  have item : Agrees Closed Eq Closed (do glued; mark separator; glued; rawIdentifier)
      (do glued; mark separator; glued; rawIdentifier) := by
    refine Agrees.assoc ((agrees_gluedMark fun _ _ => mayTouch_of_continues continues).bind ?_)
    rintro _ _ _
    refine agrees_gluedIdentifier fun last? found => ?_
    rw [found]
    exact opens
  exact item.manyEq

theorem agrees_rawDottedName : Agrees Closed Eq Closed rawDottedName rawDottedName := by
  refine agrees_rawIdentifier.bind ?_
  rintro head _ rfl
  refine (agrees_gluedIdentifiers rfl rfl).bind ?_
  rintro tail _ rfl
  exact Agrees.pure rfl

theorem agrees_dottedName : Agrees Closed Eq Closed dottedName dottedName := by
  refine (agrees_rawDottedName.bind ?_).attempt
  rintro names _ rfl
  exact Agrees.pure rfl

theorem agrees_typePath : Agrees Closed Eq Closed typePath typePath := by
  refine (agrees_rawDottedName.bind ?_).attempt
  rintro top _ rfl
  refine (agrees_gluedIdentifiers rfl rfl).bind ?_
  rintro declaredInside _ rfl
  exact Agrees.pure rfl

/-! ### Type references -/

/-- Behind a comma or the opening bracket of an array. -/
def Bracketed (last? : Option Lexeme) : Prop :=
  last? = some (.mark '[') ∨ last? = some (.mark ',')

theorem Bracketed.isInBrackets {last? : Option Lexeme} (bracketed : Bracketed last?) {char : Char}
    (fits : char = ',' ∨ char = ']') :
    Closed last? ∧ isInBrackets last? (.mark char) = true := by
  rcases bracketed with rfl | rfl <;> rcases fits with rfl | rfl <;> exact ⟨rfl, by decide⟩

theorem agrees_commaRun : Agrees Bracketed Eq Bracketed commaRun commaRun := by
  refine Agrees.orElse ?_ (Agrees.pure rfl)
  refine Agrees.layoutMark (fun _ bracketed => bracketed.isInBrackets (Or.inl rfl)) rfl
    fun gap other counts => ?_
  have comma : Agrees (fun last? => last? = some (.mark ',')) Eq
      (fun last? => last? = some (.mark ',')) (do glued; mark ',') (do glued; mark ',') := by
    refine agrees_gluedMark fun last? found => ?_
    subst found
    rfl
  refine comma.manyEq.bind ?_
  rintro more _ rfl
  rw [counts]
  exact (Agrees.pure rfl).mono (fun _ => id) (fun _ _ => id) fun _ => Or.inr

theorem agrees_arraySuffix : Agrees Closed Eq Closed arraySuffix arraySuffix := by
  have bracket : Agrees Closed Eq Bracketed (mark '[') (mark '[') :=
    Agrees.markThen rfl (Or.inl rfl)
  refine (bracket.bind fun _ _ _ => agrees_commaRun.bind ?_).attempt
  rintro commas _ rfl
  refine Agrees.layoutMark (fun _ bracketed => bracketed.isInBrackets (Or.inr rfl)) rfl
    fun gap other counts => ?_
  rw [counts]
  refine (Agrees.pure rfl).mono (fun _ => id) (fun _ _ => id) fun last? found => ?_
  subst found
  rfl

theorem agrees_byRefSuffix : Agrees Closed Eq Closed byRefSuffix byRefSuffix :=
  ((Agrees.mark rfl rfl).bind fun _ _ _ => Agrees.pure rfl).attempt

theorem agrees_pointerSuffix : Agrees Closed Eq Closed pointerSuffix pointerSuffix :=
  ((Agrees.mark rfl rfl).bind fun _ _ _ => Agrees.pure rfl).attempt

theorem agrees_suffix : Agrees Closed Eq Closed suffix suffix :=
  agrees_arraySuffix.orElse (agrees_byRefSuffix.orElse agrees_pointerSuffix)

/-- The sign of a type parameter, behind which its name goes on. -/
theorem agrees_sign :
    Agrees Closed Eq (fun last? => last? = some (.mark '!')) (mark '!') (mark '!') :=
  Agrees.markThen rfl rfl

theorem agrees_parameterIdentifier :
    Agrees (fun last? => last? = some (.mark '!')) Eq Closed parameterIdentifier
      parameterIdentifier := by
  refine (agrees_gluedIdentifier fun last? found => ?_).attemptAt
  subst found
  rfl

theorem agrees_methodVariable : Agrees Closed Eq Closed methodVariable methodVariable := by
  refine (agrees_sign.bind fun _ _ _ => Agrees.assoc ((agrees_gluedMark ?_).bind ?_)).attempt
  · rintro _ rfl
    rfl
  · rintro _ _ _
    refine agrees_parameterIdentifier.bind ?_
    rintro name _ rfl
    exact Agrees.pure rfl

theorem agrees_typeVariable : Agrees Closed Eq Closed typeVariable typeVariable := by
  refine (agrees_sign.bind fun _ _ _ => agrees_parameterIdentifier.bind ?_).attempt
  rintro name _ rfl
  exact Agrees.pure rfl

/-- References are alike if their types are; where they end depends on the layout. -/
abbrev SameType : TypeUse → TypeUse → Prop :=
  InvImage Eq TypeUse.type

theorem agrees_genericArguments {argument : Reading TypeUse}
    (agrees : Agrees Closed SameType Closed argument argument) :
    Agrees Closed Eq Closed (genericArguments argument) (genericArguments argument) := by
  refine ((Agrees.mark rfl rfl).bind fun _ _ _ => ?_).attempt
  refine (Agrees.separated rfl rfl agrees).bind fun uses others alike => ?_
  refine (Agrees.mark rfl rfl).bind fun _ _ _ => Agrees.pure ?_
  exact forall₂_image_iff.mp alike

theorem agrees_namedType {argument : Reading TypeUse}
    (agrees : Agrees Closed SameType Closed argument argument) :
    Agrees Closed Eq Closed (namedType argument) (namedType argument) := by
  refine (agrees_typePath.bind ?_).attempt
  rintro name _ rfl
  refine (agrees_genericArguments agrees).maybeEq.bind ?_
  rintro arguments? _ rfl
  cases arguments? with
  | none => exact Agrees.pure rfl
  | some arguments => exact Agrees.pure rfl

theorem agrees_typeUseWithin (limit : Nat) :
    Agrees Closed SameType Closed (typeUseWithin limit) (typeUseWithin limit) := by
  induction limit with
  | zero => exact Agrees.fail
  | succ limit hypothesis =>
    have agreesAtom := agrees_methodVariable.orElse
      (agrees_typeVariable.orElse (agrees_namedType hypothesis))
    refine (agreesAtom.bind ?_).attempt
    rintro atom _ rfl
    refine agrees_suffix.manyEq.bind ?_
    rintro suffixes _ rfl
    split
    · exact Agrees.start.bind fun _ _ _ => Agrees.pure rfl
    · exact Agrees.edge.bind fun _ _ _ => Agrees.pure rfl

theorem agrees_typeUse : Agrees Closed SameType Closed typeUse typeUse :=
  Agrees.ofLength agrees_typeUseWithin

theorem agrees_typeReference : Agrees Closed Eq Closed typeReference typeReference :=
  agrees_typeUse.bind fun _ _ alike => Agrees.pure alike

/-! ### Members -/

theorem agrees_named (construct : Construct) (text : String) :
    Agrees Closed Eq Closed (named construct text) (named construct text) :=
  (Agrees.keyword text).attempt

theorem agrees_modifiers : Agrees Closed Eq Closed modifiers modifiers :=
  (Agrees.oneOf Modifier.words).attempt.manyEq

theorem agrees_parameter : Agrees Closed Eq Closed parameter parameter := by
  refine ((Agrees.oneOf _).attempt.maybeEq.bind ?_).attempt
  rintro mode? _ rfl
  refine agrees_identifier.bind ?_
  rintro name _ rfl
  refine (Agrees.mark rfl rfl).bind fun _ _ _ => agrees_typeReference.bind ?_
  rintro type _ rfl
  exact Agrees.pure rfl

theorem agrees_parameterList : Agrees Closed Eq Closed parameterList parameterList := by
  refine ((Agrees.mark rfl rfl).bind fun _ _ _ => ?_).attempt
  refine (Agrees.separatedEq rfl rfl agrees_parameter).maybeEq.bind ?_
  rintro parameters? _ rfl
  exact (Agrees.mark rfl rfl).bind fun _ _ _ => Agrees.pure rfl

theorem agrees_indexParameters : Agrees Closed Eq Closed indexParameters indexParameters := by
  refine ((Agrees.mark rfl rfl).bind fun _ _ _ => ?_).attempt
  refine (Agrees.separatedEq rfl rfl agrees_parameter).bind ?_
  rintro parameters _ rfl
  exact (Agrees.mark rfl rfl).bind fun _ _ _ => Agrees.pure rfl

theorem agrees_genericParameters : Agrees Closed Eq Closed genericParameters genericParameters := by
  refine ((Agrees.mark rfl rfl).bind fun _ _ _ => ?_).attempt
  refine (Agrees.separatedEq rfl rfl agrees_identifier).bind ?_
  rintro names _ rfl
  exact (Agrees.mark rfl rfl).bind fun _ _ _ => Agrees.pure rfl

/-- Accessors are alike if they are so apart from their stretches of text. -/
abbrev SameAccessor : AccessorNode → AccessorNode → Prop :=
  InvImage Eq AccessorNode.withoutPlace

theorem agrees_accessor : Agrees Closed SameAccessor Closed accessor accessor := by
  refine (Agrees.start.bind fun _ _ _ => (Agrees.oneOf _).attempt.bind ?_).attempt
  rintro word _ rfl
  refine agrees_modifiers.bind ?_
  rintro modifiers _ rfl
  refine (Agrees.mark rfl rfl).bind fun _ _ _ => ?_
  exact Agrees.edge.bind fun _ _ _ => Agrees.pure rfl

theorem agrees_accessorBlock :
    Agrees Closed (InvImage Eq (List.map AccessorNode.withoutPlace)) Closed accessorBlock
      accessorBlock := by
  refine ((Agrees.mark rfl rfl).bind fun _ _ _ => ?_).attempt
  refine agrees_accessor.many.bind fun nodes others alike => ?_
  exact (Agrees.mark rfl rfl).bind fun _ _ _ => Agrees.pure (forall₂_image_iff.mp alike)

/-- Members are alike if they are so apart from their stretches of text. -/
abbrev SameMember : MemberNode → MemberNode → Prop :=
  InvImage Eq MemberNode.withoutPlaces

theorem agrees_fieldDeclaration :
    Agrees Closed SameMember Closed fieldDeclaration fieldDeclaration := by
  refine (Agrees.start.bind fun _ _ _ => agrees_modifiers.bind ?_).attempt
  rintro modifiers _ rfl
  refine (agrees_named _ _).bind fun _ _ _ => agrees_identifier.bind ?_
  rintro name _ rfl
  refine (Agrees.mark rfl rfl).bind fun _ _ _ => agrees_typeUse.bind fun use other alike => ?_
  refine Agrees.pure ?_
  simp only [InvImage, MemberNode.withoutPlaces, MemberBody.withoutPlaces] at alike ⊢
  rw [alike]

theorem agrees_propertyDeclaration :
    Agrees Closed SameMember Closed propertyDeclaration propertyDeclaration := by
  refine (Agrees.start.bind fun _ _ _ => agrees_modifiers.bind ?_).attempt
  rintro modifiers _ rfl
  refine (agrees_named _ _).bind fun _ _ _ => agrees_dottedName.bind ?_
  rintro name _ rfl
  refine (Agrees.mark rfl rfl).bind fun _ _ _ => agrees_typeReference.bind ?_
  rintro type _ rfl
  refine agrees_indexParameters.maybeEq.bind ?_
  rintro parameters? _ rfl
  refine agrees_accessorBlock.bind fun accessors others alike => ?_
  refine Agrees.edge.bind fun _ _ _ => Agrees.pure ?_
  simp only [InvImage, MemberNode.withoutPlaces, MemberBody.withoutPlaces] at alike ⊢
  rw [alike]

theorem agrees_eventDeclaration :
    Agrees Closed SameMember Closed eventDeclaration eventDeclaration := by
  refine (Agrees.start.bind fun _ _ _ => agrees_modifiers.bind ?_).attempt
  rintro modifiers _ rfl
  refine (agrees_named _ _).bind fun _ _ _ => agrees_dottedName.bind ?_
  rintro name _ rfl
  refine (Agrees.mark rfl rfl).bind fun _ _ _ => agrees_typeReference.bind ?_
  rintro handler _ rfl
  refine agrees_accessorBlock.bind fun accessors others alike => ?_
  refine Agrees.edge.bind fun _ _ _ => Agrees.pure ?_
  simp only [InvImage, MemberNode.withoutPlaces, MemberBody.withoutPlaces] at alike ⊢
  rw [alike]

theorem agrees_constructorDeclaration :
    Agrees Closed SameMember Closed constructorDeclaration constructorDeclaration := by
  refine (Agrees.start.bind fun _ _ _ => agrees_modifiers.bind ?_).attempt
  rintro modifiers _ rfl
  refine (agrees_named _ _).bind fun _ _ _ => agrees_parameterList.bind ?_
  rintro parameters _ rfl
  exact Agrees.edge.bind fun _ _ _ => Agrees.pure rfl

theorem agrees_methodDeclaration :
    Agrees Closed SameMember Closed methodDeclaration methodDeclaration := by
  refine (Agrees.start.bind fun _ _ _ => agrees_modifiers.bind ?_).attempt
  rintro modifiers _ rfl
  refine (agrees_named _ _).bind fun _ _ _ => agrees_dottedName.bind ?_
  rintro name _ rfl
  refine agrees_genericParameters.maybeEq.bind ?_
  rintro generics? _ rfl
  refine agrees_parameterList.bind ?_
  rintro parameters _ rfl
  refine (Agrees.mark rfl rfl).bind fun _ _ _ => agrees_typeUse.bind fun use other alike => ?_
  refine Agrees.pure ?_
  simp only [InvImage, MemberNode.withoutPlaces, MemberBody.withoutPlaces] at alike ⊢
  rw [alike]

theorem agrees_memberDeclaration :
    Agrees Closed SameMember Closed memberDeclaration memberDeclaration :=
  agrees_fieldDeclaration.orElse (agrees_propertyDeclaration.orElse
    (agrees_eventDeclaration.orElse (agrees_constructorDeclaration.orElse
      agrees_methodDeclaration)))

/-! ### Types -/

theorem agrees_extendsClause : Agrees Closed Eq Closed extendsClause extendsClause :=
  ((agrees_named _ _).bind fun _ _ _ => agrees_typeReference).attempt

theorem agrees_implementsClause : Agrees Closed Eq Closed implementsClause implementsClause :=
  ((agrees_named _ _).bind fun _ _ _ =>
    Agrees.separatedEq rfl rfl agrees_typeReference).attempt

/-- Types are alike if they are so apart from all stretches of text. -/
abbrev SameTypeNode : TypeNode → TypeNode → Prop :=
  InvImage Eq TypeNode.withoutPlaces

theorem agrees_typeDeclarationWithin (limit : Nat) :
    Agrees Closed SameTypeNode Closed (typeDeclarationWithin limit)
      (typeDeclarationWithin limit) := by
  induction limit with
  | zero => exact Agrees.fail
  | succ limit hypothesis =>
    refine (Agrees.start.bind fun _ _ _ => agrees_modifiers.bind ?_).attempt
    rintro modifiers _ rfl
    refine (Agrees.oneOf _).attempt.bind ?_
    rintro kind _ rfl
    refine agrees_identifier.bind ?_
    rintro name _ rfl
    refine agrees_genericParameters.maybeEq.bind ?_
    rintro generics? _ rfl
    refine agrees_extendsClause.maybeEq.bind ?_
    rintro base? _ rfl
    refine agrees_implementsClause.maybeEq.bind ?_
    rintro interfaces? _ rfl
    have agreesType : Agrees Closed
        (InvImage Eq (Sum.map TypeNode.withoutPlaces MemberNode.withoutPlaces)) Closed
        (do return (.inl (← typeDeclarationWithin limit) : TypeNode ⊕ MemberNode))
        (do return .inl (← typeDeclarationWithin limit)) :=
      hypothesis.bind fun _ _ alike => Agrees.pure (congrArg Sum.inl alike)
    have agreesMember : Agrees Closed
        (InvImage Eq (Sum.map TypeNode.withoutPlaces MemberNode.withoutPlaces)) Closed
        (do return (.inr (← memberDeclaration) : TypeNode ⊕ MemberNode))
        (do return .inr (← memberDeclaration)) :=
      agrees_memberDeclaration.bind fun _ _ alike => Agrees.pure (congrArg Sum.inr alike)
    refine (Agrees.mark rfl rfl).bind fun _ _ _ => ?_
    refine (agreesType.orElse agreesMember).many.bind fun content others alike => ?_
    refine (Agrees.mark rfl rfl).bind fun _ _ _ => Agrees.edge.bind fun _ _ _ => Agrees.pure ?_
    simp only [InvImage, TypeNode.withoutPlaces, contentWithoutPlaces_eq, forall₂_image_iff.mp alike]
    rfl

theorem agrees_typeDeclaration :
    Agrees Closed SameTypeNode Closed typeDeclaration typeDeclaration :=
  Agrees.ofLength agrees_typeDeclarationWithin

/-! ### Listings -/

theorem agrees_namespaceDeclaration :
    Agrees Closed (InvImage Eq NamespaceNode.withoutPlaces) Closed namespaceDeclaration
      namespaceDeclaration := by
  refine ((agrees_named _ _).bind fun _ _ _ => agrees_dottedName.maybeEq.bind ?_).attempt
  rintro space? _ rfl
  refine (Agrees.mark rfl rfl).bind fun _ _ _ => ?_
  refine agrees_typeDeclaration.many.bind fun types others alike => ?_
  refine (Agrees.mark rfl rfl).bind fun _ _ _ => Agrees.pure ?_
  simp only [InvImage, NamespaceNode.withoutPlaces, forall₂_image_iff.mp alike]

theorem agrees_assemblyDeclaration :
    Agrees Closed Eq Closed assemblyDeclaration assemblyDeclaration :=
  ((agrees_named _ _).bind fun _ _ _ => agrees_dottedName).attempt

theorem agrees_listing :
    Agrees Closed (InvImage Eq ListingNode.withoutPlaces) Closed listing listing := by
  refine (agrees_assemblyDeclaration.bind ?_).attemptAt
  rintro assembly _ rfl
  refine agrees_namespaceDeclaration.many.bind fun blocks others alike => ?_
  refine Agrees.finish.attempt.bind fun _ _ _ => Agrees.pure ?_
  simp only [InvImage, ListingNode.withoutPlaces, forall₂_image_iff.mp alike]

/-! ### Whole texts -/

/-- No layout stands inside of a name. -/
def NamesTouch (tokens : List Token) : Prop :=
  ∃ last?, Passes none tokens last? []

theorem Passes.exists_append {last? next? : Option Lexeme} {tokens rest : List Token}
    (passes : Passes last? tokens next? rest) : ∃ front, tokens = front ++ rest := by
  induction passes with
  | done => exact ⟨[], rfl⟩
  | @step _ _ token _ _ _ _ hypothesis =>
    obtain ⟨front, split⟩ := hypothesis
    exact ⟨token :: front, congrArg (token :: ·) split⟩

/-- Only the last token is the finish. -/
theorem eq_nil_of_finish {edge : Nat} {gap text : List Char} {front back : List Token}
    {token : Token} (split : tokensBehind edge gap text = front ++ token :: back)
    (last : token.lexeme = .finish) : back = [] := by
  induction bound : text.length using Nat.strong_induction_on generalizing edge gap text front with
  | _ length hypothesis =>
    cases text with
    | nil =>
      rw [tokensBehind_nil] at split
      cases front with
      | nil => exact (List.cons.inj split).2.symm
      | cons head front => simp at split
    | cons first rest =>
      subst bound
      rw [tokensBehind_cons] at split
      cases front with
      | nil =>
        have head := congrArg Token.lexeme (List.cons.inj split).1
        rw [last] at head
        have written := written_split first rest
        rw [show (Lexeme.split first rest).1 = .finish from head] at written
        have shorter := length_split_le first rest
        rw [show (Lexeme.split first rest).2 = first :: rest from written] at shorter
        exact absurd shorter (Nat.not_succ_le_self _)
      | cons head front =>
        have shorter := Nat.le_trans (length_splitLayout_le (Lexeme.split first rest).2)
          (length_split_le first rest)
        exact hypothesis _ (Nat.lt_succ_of_le shorter) (List.cons.inj split).2 rfl

theorem reads_finish {tokens rest : List Token} {answer : Unit}
    (taken : Reads finish tokens answer rest) :
    rest = tokens ∧ ∀ token others, tokens = token :: others → token.lexeme = .finish := by
  refine ⟨rest_of_reads_finish taken, ?_⟩
  rintro token others rfl
  unfold Reads finish at taken
  by_contra unfinished
  simp [unfinished] at taken

theorem rest_of_reads_listing {tokens rest : List Token} {node : ListingNode}
    (taken : Reads listing tokens node rest) :
    ∀ token others, rest = token :: others → token.lexeme = .finish := by
  obtain ⟨_, _, _, taken⟩ := reads_bind.mp (reads_attemptAt.mp taken)
  obtain ⟨_, _, _, taken⟩ := reads_bind.mp taken
  obtain ⟨_, left, finished, taken⟩ := reads_bind.mp taken
  obtain ⟨-, rfl⟩ := reads_pure.mp taken
  obtain ⟨rfl, last⟩ := reads_finish (reads_attempt.mp finished)
  exact last

theorem readListing_of_reads {text : String} {node : ListingNode} {rest : List Token}
    (taken : Reads listing (tokensOf text.toList) node rest) : readListing text = .ok node := by
  unfold Reads at taken
  unfold readListing
  simp only [taken]

/-- The tokens of a listing are passed to the end. -/
theorem namesTouch_of_passes {text : List Char} {last? : Option Lexeme} {rest : List Token}
    (closed : Closed last?) (passes : Passes none (tokensOf text) last? rest)
    (last : ∀ token others, rest = token :: others → token.lexeme = .finish) :
    NamesTouch (tokensOf text) := by
  cases rest with
  | nil => exact ⟨last?, passes⟩
  | cons token others =>
    have finished := last token others rfl
    obtain ⟨front, split⟩ := passes.exists_append
    have ended := eq_nil_of_finish split finished
    subst ended
    refine ⟨some token.lexeme, passes.trans (.step (fun inside => ?_) .done)⟩
    rw [finished, isInName_eq_false closed rfl] at inside
    cases inside

/-- A listing is read alike when its layouts are replaced, and no layout stands inside of its
names. -/
theorem readListing_respaced {text : String} {gaps : List (List Char)} {node : ListingNode}
    (read : readListing text = .ok node) (relaid : Relaid none (tokensOf text.toList) gaps) :
    NamesTouch (tokensOf text.toList) ∧ ∃ other,
      readListing (String.ofList (respaced gaps (tokensOf text.toList))) = .ok other ∧
        other.withoutPlaces = node.withoutPlaces := by
  obtain ⟨rest, taken⟩ := reads_of_readListing read
  have agree := agrees_listing (rfl : Closed none) (sameTokens_respaced relaid)
  rw [show (listing (tokensOf text.toList)).value? = _ from taken] at agree
  generalize answered :
    (listing (tokensOf (respaced gaps (tokensOf text.toList)))).value? = answer at agree
  cases agree with
  | @taken _ other _ left last? alike closed passes same =>
    refine ⟨namesTouch_of_passes closed passes (rest_of_reads_listing taken), other, ?_, alike.symm⟩
    apply readListing_of_reads
    rw [String.toList_ofList]
    exact answered

/-- The outcome of a reading apart from where things stand. -/
def outcomeOf (read : Except ListingError Assembly) : Except ListingError Assembly :=
  (read.map Assembly.withoutSpans).mapError ListingError.withoutPlace

theorem outcomeOf_readAssembly {text : String} {node : ListingNode}
    (read : readListing text = .ok node) (file? : Option String) :
    outcomeOf (readAssembly text file?) =
      match node.withoutPlaces.fault? with
      | some fault => .error fault
      | none => .ok (node.withoutPlaces.assemblyFrom file?) := by
  rw [node.fault?_withoutPlaces, node.assemblyFrom_withoutPlaces]
  unfold readAssembly
  rw [read]
  cases faulty : node.fault? with
  | none => simp only [faulty]; rfl
  | some fault => simp only [faulty]; rfl

/-- **Layout is insignificant.** A listing in which layouts are replaced by others is a listing again
and has the same outcome. What may be replaced is every layout that is not within a name, and there
is none within a name, nor between the brackets of an array, where a comma in a comment counts. -/
theorem readAssembly_respaced {text : String} {gaps : List (List Char)}
    (accepted : (readListing text).isOk = true)
    (relaid : Relaid none (tokensOf text.toList) gaps) (file? : Option String) :
    NamesTouch (tokensOf text.toList) ∧
      (readListing (String.ofList (respaced gaps (tokensOf text.toList)))).isOk = true ∧
      outcomeOf (readAssembly (String.ofList (respaced gaps (tokensOf text.toList))) file?) =
        outcomeOf (readAssembly text file?) := by
  cases read : readListing text with
  | error error =>
    rw [read] at accepted
    cases accepted
  | ok node =>
    obtain ⟨touch, other, readToo, same⟩ := readListing_respaced read relaid
    refine ⟨touch, ?_, ?_⟩
    · rw [readToo]
      rfl
    · rw [outcomeOf_readAssembly read, outcomeOf_readAssembly readToo, same]

/-- The tokens of `assembly A.B namespace{}`. -/
def sampleTokens : List Token :=
  [⟨0, [], .word "assembly"⟩, ⟨8, [' '], .word "A"⟩, ⟨10, [], .mark '.'⟩, ⟨11, [], .word "B"⟩,
    ⟨12, [' '], .word "namespace"⟩, ⟨22, [], .mark '\x7b'⟩, ⟨23, [], .mark '\x7d'⟩,
    ⟨24, [], .finish⟩]

/-- Other layouts for them: a comment behind the first word, none inside of the name, a line end behind
it, a tab in front of the braces. -/
def sampleGaps : List (List Char) :=
  [[], ['/', '/', 'x', '\n'], [], [], ['\n'], ['\t'], [], [' ']]

theorem relaid_sampleGaps : Relaid none sampleTokens sampleGaps := by
  have comment : IsLayout ['/', '/', 'x', '\n'] :=
    @IsLayout.comment ['x'] [] '\n' (List.forall_mem_singleton.mpr rfl) rfl .nil
  have blank : ∀ char, isSpace char = true → IsLayout [char] := fun char space => .space space .nil
  have present : ∀ (char : Char) (rest : List Char), char :: rest ≠ [] := List.cons_ne_nil
  unfold sampleTokens sampleGaps
  refine .cons (Or.inl rfl) (.cons (Or.inr ⟨rfl, comment, fun _ => present _ _⟩) ?_)
  refine .cons (Or.inl rfl) (.cons (Or.inl rfl) ?_)
  refine .cons (Or.inr ⟨rfl, blank '\n' (by decide), fun _ => present _ _⟩) ?_
  refine .cons (Or.inr ⟨rfl, blank '\t' (by decide), fun _ => present _ _⟩) (.cons (Or.inl rfl) ?_)
  exact .cons (Or.inr ⟨rfl, blank ' ' (by decide), fun _ => present _ _⟩) .nil

theorem readAssembly_respaced_comment :
    (readListing "assembly A.B namespace\x7b\x7d").isOk = true ∧
      Relaid none (tokensOf "assembly A.B namespace\x7b\x7d".toList) sampleGaps ∧
      (readListing "assembly//x\nA.B\nnamespace\t\x7b\x7d ").isOk = true ∧
      outcomeOf (readAssembly "assembly//x\nA.B\nnamespace\t\x7b\x7d ") =
        outcomeOf (readAssembly "assembly A.B namespace\x7b\x7d") := by
  have accepted : (readListing "assembly A.B namespace\x7b\x7d").isOk = true := by decide +kernel
  have cut : tokensOf "assembly A.B namespace\x7b\x7d".toList = sampleTokens := by decide +kernel
  have text : String.ofList (respaced sampleGaps sampleTokens) =
      "assembly//x\nA.B\nnamespace\t\x7b\x7d " := by decide +kernel
  have relaid : Relaid none (tokensOf "assembly A.B namespace\x7b\x7d".toList) sampleGaps := by
    rw [cut]
    exact relaid_sampleGaps
  have outcome := readAssembly_respaced accepted relaid none
  rw [cut, text] at outcome
  exact ⟨accepted, relaid, outcome.2⟩

end ExternBindings.Listing
