/-
**The head of a type declaration.**

In front of its body a type has its modifiers, the word for its kind, its name, and what it extends
and implements. There is no brace in all of this, so that the body starts at the first one.

* `Trace.withoutBraces`, `IsPlain` — readings that pass no brace: names, references and the clauses
  of a head (`plain_identifier`, …, `plain_clauses`);
* `TypeHead` — a head as it is written; `TypeHead.IsOf` — it says what was read of the type;
* `exists_of_reads_typeDeclaration` — the tokens of a type are those of its head and, in braces,
  those of what is declared inside of it.
-/

import ExternBindings.Proofs.Listing.NoteScheme
import ExternBindings.Proofs.Listing.Respaced

namespace ExternBindings.Listing

open Reading

/-! ### Constructs without braces -/

/-- The lexeme opens or closes a body. -/
def Lexeme.isBrace (lexeme : Lexeme) : Bool :=
  lexeme = .mark '\x7b' ∨ lexeme = .mark '\x7d'

/-- The trace of tokens that are no braces, of which nothing is noted. -/
def Trace.withoutBraces : Trace Empty where
  along tokens _ rest :=
    ∃ taken, tokens = taken ++ rest ∧ ∀ token ∈ taken, token.lexeme.isBrace = false
  refl _ := ⟨[], rfl, List.forall_mem_nil _⟩
  trans := by
    rintro _ _ rest _ _ ⟨taken, rfl, plain⟩ ⟨more, rfl, plainToo⟩
    exact ⟨taken ++ more, (List.append_assoc _ _ _).symm,
      List.forall_mem_append.mpr ⟨plain, plainToo⟩⟩

theorem notesOnly_withoutBraces : Trace.withoutBraces.NotesOnly ['\x7b', '\x7d'] := by
  intro token rest apart
  refine ⟨[token], rfl, List.forall_mem_singleton.mpr (decide_eq_false ?_)⟩
  rintro (opening | closing)
  · exact apart _ List.mem_cons_self opening
  · exact apart _ (List.mem_cons_of_mem _ List.mem_cons_self) closing

/-- The reading passes no brace. -/
abbrev IsPlain {α : Type} (reading : Reading α) : Prop :=
  Silent Trace.withoutBraces reading

/-- What a plain reading takes. -/
theorem exists_plain_of_reads {α : Type} {reading : Reading α} (plain : IsPlain reading)
    {tokens rest : List Token} {value : α} (lawful : ∀ token ∈ tokens, token.lexeme.IsLawful)
    (reads : Reads reading tokens value rest) :
    ∃ taken, tokens = taken ++ rest ∧ ∀ token ∈ taken, token.lexeme.isBrace = false := by
  obtain ⟨⟨_, -, taken⟩, -⟩ := plain lawful reads
  exact taken

theorem plain_mark {char : Char} (apart : char ∉ ['\x7b', '\x7d']) : IsPlain (mark char) :=
  notesOnly_withoutBraces.mark apart

theorem plain_suffix : IsPlain suffix := by
  have comma : IsPlain (mark ',') := plain_mark (by decide)
  have layout : IsPlain layout := silent_of_stays _ fun reads => (reads_layout.mp reads).2
  have run : IsPlain commaRun := by
    refine Notes.orElse (layout.bindSilent fun before => comma.bindSilent fun _ => ?_)
      (Notes.pure rfl)
    exact ((silent_glued _).bindSilent fun _ => comma).manySilent.bindSilent fun _ => Notes.pure rfl
  refine Notes.orElse ?_ (Notes.orElse ?_ ?_)
  · refine Notes.attempt ((plain_mark (by decide)).bindSilent fun _ => run.bindSilent fun _ => ?_)
    exact layout.bindSilent fun _ => (plain_mark (by decide)).bindSilent fun _ => Notes.pure rfl
  · exact Notes.attempt ((plain_mark (by decide)).bindSilent fun _ => Notes.pure rfl)
  · exact Notes.attempt ((plain_mark (by decide)).bindSilent fun _ => Notes.pure rfl)

theorem referenceScheme_plain :
    ReferenceScheme Trace.withoutBraces (fun _ => []) (fun _ => []) fun _ => [] where
  mark char member := plain_mark
    ((by simp : ∀ char ∈ ['!', '<', ',', '>'], char ∉ ['\x7b', '\x7d']) char member)
  glued := silent_glued _
  start := silent_start _
  edge := silent_edge _
  identifier := silent_parameterIdentifier notesOnly_withoutBraces
  path := silent_typePath notesOnly_withoutBraces (by decide) (by decide)
  takesSuffix := plain_suffix
  parameter _ _ := rfl
  ofName _ := rfl
  instantiation _ _ := (List.flatMap_eq_nil_iff.mpr fun _ _ => rfl).symm
  apply _ _ := rfl

theorem plain_typeReference : IsPlain typeReference := by
  have within (limit : Nat) : IsPlain (typeUseWithin limit) := by
    induction limit with
    | zero => exact Notes.fail
    | succ limit hypothesis => exact referenceScheme_plain.step hypothesis
  have use : IsPlain typeUse := fun tokens _ _ lawful reads => within tokens.length lawful reads
  exact use.bindSilent fun _ => Notes.pure rfl

theorem plain_separated {α : Type} {item : Reading α} (plain : IsPlain item) :
    IsPlain (separated ',' item) :=
  plain.bindSilent fun _ =>
    ((plain_mark (by decide)).bindSilent fun _ => plain).manySilent.bindSilent fun _ =>
      Notes.pure rfl

theorem plain_identifier : IsPlain identifier :=
  Notes.attempt (silent_rawIdentifier notesOnly_withoutBraces)

theorem plain_genericParameters : IsPlain genericParameters :=
  Notes.attempt ((plain_mark (by decide)).bindSilent fun _ =>
    (plain_separated plain_identifier).bindSilent fun _ =>
      (plain_mark (by decide)).bindSilent fun _ => Notes.pure rfl)

theorem plain_extendsClause : IsPlain extendsClause :=
  Notes.attempt ((Notes.attempt (notesOnly_withoutBraces.keyword _)).bindSilent fun _ =>
    plain_typeReference)

theorem plain_implementsClause : IsPlain implementsClause :=
  Notes.attempt ((Notes.attempt (notesOnly_withoutBraces.keyword _)).bindSilent fun _ =>
    plain_separated plain_typeReference)

/-- What stands between the name of a type and its body. -/
theorem plain_clauses :
    IsPlain (do
      let _ ← maybe genericParameters
      let _ ← maybe extendsClause
      maybe implementsClause) :=
  plain_genericParameters.maybeSilent.bindSilent fun _ =>
    plain_extendsClause.maybeSilent.bindSilent fun _ => plain_implementsClause.maybeSilent

/-! ### Words -/

theorem exists_of_reads_oneOf {α : Type} {words : List (String × α)} {tokens rest : List Token}
    {value : α} (reads : Reads (oneOf words) tokens value rest) :
    ∃ token word, tokens = token :: rest ∧ token.lexeme = .word word ∧ (word, value) ∈ words := by
  obtain ⟨token, rfl, chosen⟩ := reads_accept.mp reads
  obtain ⟨entry, found, rfl⟩ := Option.map_eq_some_iff.mp chosen
  have spelled : token.lexeme = .word entry.1 := by simpa using List.find?_some found
  exact ⟨token, entry.1, rfl, spelled, List.mem_of_find?_eq_some found⟩

/-- The words that are read one after the other: by induction on their row. -/
theorem exists_of_reads_words {α : Type} {construct : Construct} {words : List (String × α)}
    {tokens rest : List Token} {values : List α}
    (reads : Reads (many (attempt construct (oneOf words))) tokens values rest) :
    ∃ (taken : List Token) (entries : List (String × α)), tokens = taken ++ rest ∧
      taken.map Token.lexeme = entries.map (fun entry => .word entry.1) ∧
      (∀ entry ∈ entries, entry ∈ words) ∧ entries.map Prod.snd = values := by
  have row := row_of_reads_many reads
  clear reads
  induction row with
  | done tokens => exact ⟨[], [], rfl, rfl, List.forall_mem_nil _, rfl⟩
  | @step _ _ _ value _ first _ hypothesis =>
    obtain ⟨token, word, rfl, found, member⟩ := exists_of_reads_oneOf (reads_attempt.mp first)
    obtain ⟨taken, entries, rfl, spelled, members, meanings⟩ := hypothesis
    refine ⟨token :: taken, (word, value) :: entries, rfl, ?_,
      List.forall_mem_cons.mpr ⟨member, members⟩, ?_⟩
    · rw [List.map_cons, List.map_cons, found, spelled]
    · rw [List.map_cons, meanings]

/-- An identifier is written as it is called. -/
theorem exists_of_reads_identifier {tokens rest : List Token} {name : String}
    (reads : Reads identifier tokens name rest) :
    ∃ taken, tokens = taken ++ rest ∧ taken.flatMap (·.lexeme.written) = name.toList := by
  obtain ⟨base, _, first, reads⟩ := reads_bind.mp (reads_attempt.mp reads)
  obtain ⟨marker?, _, second, reads⟩ := reads_bind.mp reads
  obtain ⟨rfl, rfl⟩ := reads_pure.mp reads
  obtain ⟨token, rfl, chosen⟩ := reads_accept.mp first
  have spelled : token.lexeme = .word base := by
    split at chosen
    · next text same => rw [same, Option.some.inj chosen]
    · cases chosen
  rcases reads_maybe.mp second with ⟨marker, rfl, touching⟩ | ⟨rfl, -, rfl⟩
  · obtain ⟨_, _, touch, marked⟩ := reads_bind.mp touching
    obtain ⟨rfl, -⟩ := reads_glued.mp touch
    obtain ⟨other, rfl, chosen⟩ := reads_accept.mp marked
    refine ⟨[token, other], rfl, ?_⟩
    split at chosen
    · next digits same =>
      cases chosen
      simp [spelled, same, Lexeme.written, arityMark]
    · cases chosen
  · refine ⟨[token], rfl, ?_⟩
    simp [spelled, Lexeme.written]

/-! ### Heads -/

/-- The words for the kinds of types. -/
def kindWords : List (String × TypeKind) :=
  [("class", .classType), ("interface", .interfaceType), ("enum", .enumType)]

/-- What stands in front of the body of a type: its modifiers and its kind, each as a word with its
meaning, then its name, and then the clauses behind it. -/
structure TypeHead where
  modifiers : List (String × Modifier)
  kind : String × TypeKind
  name : List Lexeme
  clauses : List Lexeme

namespace TypeHead

/-- The head as it is written. -/
def lexemes (head : TypeHead) : List Lexeme :=
  head.modifiers.map (fun entry => .word entry.1) ++
    .word head.kind.1 :: (head.name ++ head.clauses)

/-- The words of the head mean this, it holds this name, and no braces. -/
structure IsOf (head : TypeHead) (modifiers : Modifiers) (kind : TypeKind) (name : String) :
    Prop where
  modifierWords : ∀ entry ∈ head.modifiers, entry ∈ Modifier.words
  modifiers : head.modifiers.map Prod.snd = modifiers
  kindWord : head.kind ∈ kindWords
  kind : head.kind.2 = kind
  name : head.name.flatMap Lexeme.written = name.toList
  plain : ∀ lexeme ∈ head.name ++ head.clauses, lexeme.isBrace = false

end TypeHead

/-- The reading of something that is declared inside of a type. -/
def partWithin (limit : Nat) : Reading (TypeNode ⊕ MemberNode) :=
  (do return .inl (← typeDeclarationWithin limit)) <|> (do return .inr (← memberDeclaration))

/-- **The tokens of a type** are those of its head and, in braces, those of what is declared inside
of it. -/
theorem exists_of_reads_typeDeclaration {limit : Nat} {here there : List Token}
    {header : TypeHeader} {content : List (TypeNode ⊕ MemberNode)}
    (lawful : ∀ token ∈ here, token.lexeme.IsLawful)
    (reads : Reads (typeDeclarationWithin limit) here (.node header content) there) :
    ∃ (head : TypeHead) (inner : Nat) (front body : List Token) (opening closing : Token),
      here = front ++ opening :: body ∧
      front.map Token.lexeme = head.lexemes ∧
      head.IsOf header.modifiers header.kind header.name ∧ opening.lexeme = .mark '\x7b' ∧
      Reads (many (partWithin inner)) body content (closing :: there) ∧
      closing.lexeme = .mark '\x7d' ∧
      header.span = { start := startOf here, stop := edgeOf there } := by
  cases limit with
  | zero => cases reads
  | succ limit =>
    obtain ⟨start, _, atStart, reads⟩ := reads_bind.mp (reads_attempt.mp reads)
    obtain ⟨rfl, rfl⟩ := reads_start.mp atStart
    obtain ⟨modifiers, _, words, reads⟩ := reads_bind.mp reads
    obtain ⟨kind, _, kindWord, reads⟩ := reads_bind.mp reads
    obtain ⟨name, _, called, reads⟩ := reads_bind.mp reads
    obtain ⟨generics?, _, generics, reads⟩ := reads_bind.mp reads
    obtain ⟨base?, _, extending, reads⟩ := reads_bind.mp reads
    obtain ⟨interfaces?, _, implementing, reads⟩ := reads_bind.mp reads
    obtain ⟨_, body, opens, reads⟩ := reads_bind.mp reads
    obtain ⟨inside, _, declared, reads⟩ := reads_bind.mp reads
    obtain ⟨_, _, closes, reads⟩ := reads_bind.mp reads
    obtain ⟨stop, _, atStop, reads⟩ := reads_bind.mp reads
    obtain ⟨rfl, rfl⟩ := reads_edge.mp atStop
    obtain ⟨same, rfl⟩ := reads_pure.mp reads
    cases same
    obtain ⟨opening, rfl, opened⟩ := reads_mark.mp opens
    obtain ⟨closing, rfl, closed⟩ := reads_mark.mp closes
    obtain ⟨modifierTokens, entries, rfl, spelled, members, meanings⟩ := exists_of_reads_words words
    obtain ⟨kindToken, word, rfl, kindSpelled, kindMember⟩ :=
      exists_of_reads_oneOf (reads_attempt.mp kindWord)
    have lawfulName := (List.forall_mem_cons.mp (List.forall_mem_append.mp lawful).2).2
    obtain ⟨nameTokens, rfl, nameWritten⟩ := exists_of_reads_identifier called
    obtain ⟨nameTokensToo, split, namePlain⟩ :=
      exists_plain_of_reads plain_identifier lawfulName called
    obtain rfl := List.append_cancel_right split
    obtain ⟨clauses, rfl, clausesPlain⟩ := exists_plain_of_reads plain_clauses
      (List.forall_mem_append.mp lawfulName).2 (generics.bind (extending.bind implementing))
    refine ⟨{ modifiers := entries, kind := (word, kind), name := nameTokens.map Token.lexeme
              clauses := clauses.map Token.lexeme },
      limit, modifierTokens ++ kindToken :: (nameTokens ++ clauses), body, opening, closing, ?_, ?_,
      ⟨members, meanings, kindMember, rfl, ?_, ?_⟩, opened, declared, closed, rfl⟩
    · rw [List.append_assoc, List.cons_append, List.append_assoc]
    · simp [TypeHead.lexemes, spelled, kindSpelled]
    · rw [List.flatMap_map]
      exact nameWritten
    · rw [← List.map_append, List.forall_mem_map]
      exact List.forall_mem_append.mpr ⟨namePlain, clausesPlain⟩

end ExternBindings.Listing
