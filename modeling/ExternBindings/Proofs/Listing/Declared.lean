/-
**Declarations at their places.**

A declaration starts where its first modifier does, or at its keyword if it has none. Some end
behind their last token, and some where the next token starts, so that their spans may end with
layout.

* `EndsSpan`, `reaches_declaration` — how the span of a member comes about; `reaches_member`,
  `reaches_type` — the spans of members and types reach over what these are read from;
* `TypeDecl.IsDeclaredBy`, `exists_isDeclaredBy` — a type is written with a head and, in braces,
  with a body, which is filled by the spans of what is declared inside.
-/

import ExternBindings.Proofs.Listing.Bodies
import ExternBindings.Proofs.Listing.Heads
import ExternBindings.Proofs.Listing.SpanLists
import ExternBindings.Proofs.Listing.StandAlone

namespace ExternBindings

/-- The type is written with this head and this body: its span starts where the head does, and ends
behind the brace that closes the body. -/
structure TypeDecl.IsDeclaredBy (decl : TypeDecl) (text : List Char) (head : Listing.TypeHead)
    (body : Listing.Body) : Prop where
  written : ∃ written,
    Listing.IsStretch text { start := decl.span.start, stop := body.opening + 1 } written ∧
      (Listing.tokensFrom written).map Listing.Token.lexeme =
        head.lexemes ++ [.mark '\x7b', .finish]
  means : ∃ modifiers : Listing.Modifiers, head.IsOf modifiers decl.kind decl.name.name ∧
    decl.visibility = modifiers.visibility?.getD .assembly ∧
    (decl.isSealed = true ↔
      .sealed ∈ modifiers ∨ .static ∈ modifiers ∨ decl.kind = .enumType)
  filled : body.IsIn text
  stop : decl.span.stop = body.closing + 1

namespace Listing

open Reading

/-! ### Members -/

/-- The reading ends a declaration that starts at the place: its span reaches up to the end. -/
def EndsSpan (start : Nat) (reading : Reading MemberNode) : Prop :=
  ∀ ⦃tokens node rest⦄, (∀ token ∈ tokens, token.lexeme.IsLawful) →
    Reads reading tokens node rest → node.span.start = start ∧
      (node.span.stop = edgeOf rest ∨ node.span.stop = startOf rest) ∧ rest <:+ tokens

namespace EndsSpan

variable {start : Nat}

theorem after {α : Type} {first : Reading α} {next : α → Reading MemberNode} {property : α → Prop}
    (yields : Yields Lexeme.IsLawful first property) (ends : ∀ value, EndsSpan start (next value)) :
    EndsSpan start (first >>= next) := by
  intro tokens node rest lawful reads
  obtain ⟨value, left, reads, further⟩ := reads_bind.mp reads
  have shrunk := (yields lawful reads).2
  obtain ⟨starts, stops, shrunkToo⟩ :=
    ends value (fun token member => lawful token (shrunk.subset member)) further
  exact ⟨starts, stops, shrunkToo.trans shrunk⟩

/-- The declaration ends behind its last token. -/
theorem edge {node : Nat → MemberNode} (spans : ∀ stop, (node stop).span = { start, stop }) :
    EndsSpan start (do return node (← Reading.edge)) := by
  intro tokens member rest _ reads
  obtain ⟨stop, _, atStop, reads⟩ := reads_bind.mp reads
  obtain ⟨rfl, rfl⟩ := reads_edge.mp atStop
  obtain ⟨rfl, rfl⟩ := reads_pure.mp reads
  rw [spans]
  exact ⟨rfl, .inl rfl, List.suffix_refl _⟩

/-- The declaration ends where the reference at its end does. -/
theorem use {node : TypeUse → MemberNode}
    (spans : ∀ use, (node use).span = { start, stop := use.stop }) :
    EndsSpan start (do return node (← typeUse)) := by
  intro tokens member rest lawful reads
  obtain ⟨use, _, taken, reads⟩ := reads_bind.mp reads
  obtain ⟨rfl, rfl⟩ := reads_pure.mp reads
  have stop := stop_of_reads lawful taken
  refine ⟨by rw [spans], ?_, (yields_typeUse lawful taken).2⟩
  rw [spans, stop]
  split
  · exact .inl rfl
  · exact .inr rfl

end EndsSpan

/-- A declaration starts at its modifiers, or at its keyword if it has none, and takes that. -/
theorem reaches_declaration {construct keyword : Construct} {word : String}
    {behind : Nat → Modifiers → Reading MemberNode}
    (ends : ∀ start modifiers, EndsSpan start (behind start modifiers)) {here there : List Token}
    {node : MemberNode} (lawful : ∀ token ∈ here, token.lexeme.IsLawful)
    (reads : Reads (attempt construct do
      let start ← start
      let modifiers ← modifiers
      named keyword word
      behind start modifiers) here node there) : Reaches node.span here there := by
  obtain ⟨start, _, atStart, reads⟩ := reads_bind.mp (reads_attempt.mp reads)
  obtain ⟨rfl, rfl⟩ := reads_start.mp atStart
  obtain ⟨modifiers, _, words, reads⟩ := reads_bind.mp reads
  obtain ⟨_, rest, taken, further⟩ := reads_bind.mp reads
  have shrunk := (yields_modifiers lawful words).2
  obtain ⟨token, rfl, -⟩ := reads_accept.mp (reads_attempt.mp taken)
  have shorter := (List.suffix_cons token rest).trans shrunk
  obtain ⟨starts, stops, behind⟩ :=
    ends _ _ (fun other member => lawful other (shorter.subset member)) further
  refine ⟨starts, stops, behind.trans shorter, ?_⟩
  calc there.length
    _ ≤ rest.length := behind.length_le
    _ < (token :: rest).length := Nat.lt_succ_self _
    _ ≤ _ := shrunk.length_le

section Members

variable {here there : List Token} {node : MemberNode}
  (lawful : ∀ token ∈ here, token.lexeme.IsLawful)

include lawful

theorem reaches_field (reads : Reads fieldDeclaration here node there) :
    Reaches node.span here there :=
  reaches_declaration (fun _ _ => .after yields_identifier fun _ =>
    .after (Yields.mark ':') fun _ => .use fun _ => rfl) lawful reads

theorem reaches_property (reads : Reads propertyDeclaration here node there) :
    Reaches node.span here there :=
  reaches_declaration (fun _ _ => .after yields_dottedName fun _ =>
    .after (Yields.mark ':') fun _ => .after yields_typeReference fun _ =>
      .after yields_indexParameters.maybe fun _ => .after yields_accessorBlock fun _ =>
        .edge fun _ => rfl) lawful reads

theorem reaches_event (reads : Reads eventDeclaration here node there) :
    Reaches node.span here there :=
  reaches_declaration (fun _ _ => .after yields_dottedName fun _ =>
    .after (Yields.mark ':') fun _ => .after yields_typeReference fun _ =>
      .after yields_accessorBlock fun _ => .edge fun _ => rfl) lawful reads

theorem reaches_constructor (reads : Reads constructorDeclaration here node there) :
    Reaches node.span here there :=
  reaches_declaration (fun _ _ => .after yields_parameterList fun _ => .edge fun _ => rfl) lawful
    reads

theorem reaches_method (reads : Reads methodDeclaration here node there) :
    Reaches node.span here there :=
  reaches_declaration (fun _ _ => .after yields_dottedName fun _ =>
    .after yields_genericParameters.maybe fun _ => .after yields_parameterList fun _ =>
      .after (Yields.mark ':') fun _ => .use fun _ => rfl) lawful reads

/-- **The span of a member reaches over what it is read from.** -/
theorem reaches_member (reads : Reads memberDeclaration here node there) :
    Reaches node.span here there := by
  rcases reads_orElse.mp reads with reads | ⟨-, reads⟩
  · exact reaches_field lawful reads
  rcases reads_orElse.mp reads with reads | ⟨-, reads⟩
  · exact reaches_property lawful reads
  rcases reads_orElse.mp reads with reads | ⟨-, reads⟩
  · exact reaches_event lawful reads
  rcases reads_orElse.mp reads with reads | ⟨-, reads⟩
  · exact reaches_constructor lawful reads
  · exact reaches_method lawful reads

end Members

/-! ### Types -/

theorem yields_partWithin (limit : Nat) :
    Yields Lexeme.IsLawful (partWithin limit) fun _ => True :=
  ((yields_typeDeclarationWithin limit).bind fun _ _ => Yields.pure trivial).orElse
    (yields_memberDeclaration.bind fun _ _ => Yields.pure trivial)

section Reaching

variable {limit : Nat} {here there : List Token} {node : TypeNode} {part : TypeNode ⊕ MemberNode}
  (lawful : ∀ token ∈ here, token.lexeme.IsLawful)

include lawful

/-- **The span of a type reaches over what it is read from.** -/
theorem reaches_type (reads : Reads (typeDeclarationWithin limit) here node there) :
    Reaches node.span here there := by
  obtain ⟨header, content⟩ := node
  obtain ⟨head, inner, front, inside, opening, closing, rfl, -, -, -, declared, -, span⟩ :=
    exists_of_reads_typeDeclaration lawful reads
  have lawfulInside : ∀ token ∈ inside, token.lexeme.IsLawful := fun token member =>
    lawful token (List.mem_append_right front (List.mem_cons_of_mem opening member))
  have shrunk := ((yields_partWithin inner).many lawfulInside declared).2
  refine ⟨congrArg Span.start span, .inl (congrArg Span.stop span), ?_, ?_⟩
  · exact (List.suffix_cons closing there).trans (shrunk.trans
      ((List.suffix_cons opening inside).trans (List.suffix_append front _)))
  · have length := shrunk.length_le
    simp only [List.length_append, List.length_cons] at length ⊢
    omega

theorem reaches_typeDeclaration (reads : Reads typeDeclaration here node there) :
    Reaches node.span here there :=
  reaches_type lawful reads

theorem reaches_part (reads : Reads (partWithin limit) here part there) :
    Reaches (partSpan part) here there := by
  rcases reads_orElse.mp reads with reads | ⟨-, reads⟩
  · obtain ⟨node, _, taken, answer⟩ := reads_bind.mp reads
    obtain ⟨rfl, rfl⟩ := reads_pure.mp answer
    exact reaches_type lawful taken
  · obtain ⟨node, _, taken, answer⟩ := reads_bind.mp reads
    obtain ⟨rfl, rfl⟩ := reads_pure.mp answer
    exact reaches_member lawful taken

end Reaching

/-- **A type is written with a head and a body**, which is filled by the spans of what is declared
inside. -/
theorem exists_isDeclaredBy {text : List Char} {limit : Nat} {here there : List Token}
    {header : TypeHeader} {content : List (TypeNode ⊕ MemberNode)}
    (within : here <:+ tokensOf text) (present : there ≠ [])
    (reads : Reads (typeDeclarationWithin limit) here (.node header content) there)
    {name : QualifiedName} (named : name.name = header.name) (members : List MemberNode) :
    ∃ head body, (header.decl name members).IsDeclaredBy text head body ∧
      body.spans = content.map partSpan ∧ header.span.start ≤ body.opening := by
  obtain ⟨head, inner, front, inside, opening, closing, rfl, spelled, isOf, opened, declared,
    closed, span⟩ := exists_of_reads_typeDeclaration (isLawful_of_suffix within) reads
  have withinOpening := (List.suffix_append front (opening :: inside)).trans within
  have withinInside := (List.suffix_cons opening inside).trans withinOpening
  obtain ⟨shrunk, filled⟩ :=
    isIn_of_reads_many reaches_part withinOpening opened declared closed
  have left : inside ≠ [] := fun none => List.cons_ne_nil _ _ (List.suffix_nil.mp (none ▸ shrunk))
  obtain ⟨written, stretch, lexemes⟩ := exists_written within left (by rw [opened]; decide)
  have edge : edgeOf inside = opening.start + 1 := by
    rw [(isStretch_token withinOpening).2 left, opened]
    rfl
  have edgeThere : edgeOf there = closing.start + 1 := by
    rw [(isStretch_token (shrunk.trans withinInside)).2 present, closed]
    rfl
  rw [edge] at stretch
  rw [spelled, opened] at lexemes
  refine ⟨head, _, ⟨⟨written, ?_, lexemes⟩, ⟨_, named ▸ isOf, rfl, ?_⟩, filled, ?_⟩, rfl, ?_⟩
  · exact (congrArg Span.start span) ▸ stretch
  · exact decide_eq_true_iff
  · exact (congrArg Span.stop span).trans edgeThere
  · rw [span]
    exact startOf_le_startOf within (List.suffix_append front _) (List.cons_ne_nil _ _)

end Listing

end ExternBindings
