/-
**Spans are nested and ordered like the declarations.**

The span of a type reaches from its first modifier to the brace that closes it. What it declares
stands in its body, one thing behind the other, with nothing but layout between.

* `TypeTree.HasOrderedSpans` — how the spans of a type stand in its text;
  `hasOrderedSpans_of_isDeclaredBy` — it is enough that they fill its body;
* `isReadIn_of_holds` — every type of an assembly is read somewhere in its text;
* `exists_bodies` — the types of its namespaces fill bodies that follow one another;
* `readAssembly_hasOrderedSpans` — the spans of every assembly that was read are ordered.
-/

import ExternBindings.Proofs.Listing.Declared

namespace ExternBindings

/-! ### Types in their text -/

/-- The span of the type is a stretch of the text, from its head to the brace that closes its body.
The body is filled by the spans of what the type declares. These stand inside of its own and are
apart from one another, and those of each kind are in the order of the text. An accessor has the
span of the member that keeps it. -/
structure TypeTree.HasOrderedSpans (tree : TypeTree) (text : List Char) : Prop where
  stretch : ∃ written, Listing.IsStretch text tree.decl.span written
  declared : ∃ head body, tree.decl.IsDeclaredBy text head body ∧
    body.spans.Perm tree.spanLists.flatten
  inside : ∀ span ∈ tree.spanLists.flatten, tree.decl.span.start < span.start ∧
    span.start < span.stop ∧ span.stop < tree.decl.span.stop
  apart : tree.spanLists.flatten.Pairwise Span.IsDisjointFrom
  ordered : ∀ spans ∈ tree.spanLists, (spans.map Span.start).Pairwise (· < ·)
  accessors : ∀ (position : Nat) (method : Method), tree.decl.methods[position]? = some method →
    method.isAccessor = true →
      ∃ slot ∈ tree.decl.slots, slot.position = position ∧ method.span = slot.span
  slots : ∀ slot ∈ tree.decl.slots, ∃ method, tree.decl.methods[slot.position]? = some method ∧
    method.isAccessor = true ∧ method.span = slot.span

/-- The spans of each type of the assembly, at any depth, are in order. The types at the top follow
one another, in bodies that do. -/
structure Assembly.HasOrderedSpans (assembly : Assembly) (text : List Char) : Prop where
  types : ∀ owner? tree, assembly.Holds owner? tree → tree.HasOrderedSpans text
  bodies : ∃ bodies : List Listing.Body, (∀ body ∈ bodies, body.IsIn text) ∧
    bodies.Pairwise (fun first second => first.closing < second.opening) ∧
    bodies.flatMap Listing.Body.spans = assembly.types.map fun tree => tree.decl.span
  ordered : (assembly.types.map fun tree => tree.decl.span).Pairwise Span.Precedes

namespace Listing

open Reading

/-! ### The order of spans -/

/-- The spans of a type are in order if those of what it declares fill its body. -/
theorem hasOrderedSpans_of_isDeclaredBy {text : List Char} {tree : TypeTree} {head : TypeHead}
    {body : Body} (declared : tree.decl.IsDeclaredBy text head body)
    (starts : tree.decl.span.start ≤ body.opening) (perm : body.spans.Perm tree.spanLists.flatten)
    (sublist : ∀ spans ∈ tree.spanLists, spans.Sublist body.spans)
    (keeps : tree.decl.KeepsAccessors) : tree.HasOrderedSpans text := by
  obtain ⟨written, stretch, -⟩ := declared.written
  have fills := declared.filled.fills
  have pairwise := fills.pairwise
  have stop := declared.stop
  refine ⟨?stretch, ⟨head, body, declared, perm⟩, fun span member => ?inside, ?apart,
    fun spans member => ?ordered, fun position method found serves => ?accessors,
    fun slot member => ?slots⟩
  case stretch =>
    have ordered : tree.decl.span.start ≤ body.closing + 1 := by
      have inside := fills.le
      omega
    have whole := stretch.exists_between declared.filled.closes ordered
    rwa [← stop] at whole
  case inside =>
    obtain ⟨behind, present, within⟩ := fills.bounds span (perm.mem_iff.mpr member)
    omega
  case apart =>
    refine (perm.pairwise_iff fun apart => apart.symm).mp ?_
    exact pairwise.imp Span.Precedes.isDisjointFrom
  case ordered =>
    refine List.pairwise_map.mpr ((pairwise.sublist (sublist spans member)).imp ?_)
    exact fun precedes => Nat.lt_of_lt_of_le precedes.1 precedes.2
  case accessors =>
    obtain ⟨kind, role⟩ := Method.isAccessor_iff.mp serves
    obtain ⟨slot, member, rfl⟩ :=
      List.mem_map.mp ((keeps.mem_positions_iff position).mpr ⟨method, kind, found, role⟩)
    obtain ⟨other, foundToo, served⟩ := keeps.served slot member
    obtain rfl := Option.some.inj (found.symm.trans foundToo)
    exact ⟨slot, member, rfl, served.span⟩
  case slots =>
    obtain ⟨method, found, served⟩ := keeps.served slot member
    exact ⟨method, found, Method.isAccessor_iff.mpr ⟨_, served.role⟩, served.span⟩

/-! ### Listings -/

/-- The tokens of a namespace end with those of its types, in braces. -/
theorem exists_of_reads_namespaceDeclaration {here there : List Token} {block : NamespaceNode}
    (lawful : ∀ token ∈ here, token.lexeme.IsLawful)
    (reads : Reads namespaceDeclaration here block there) :
    ∃ (inside : List Token) (opening closing : Token), opening :: inside <:+ here ∧
      opening.lexeme = .mark '\x7b' ∧
      Reads (many typeDeclaration) inside block.types (closing :: there) ∧
      closing.lexeme = .mark '\x7d' := by
  obtain ⟨_, afterKeyword, keyword, named⟩ := reads_bind.mp (reads_attempt.mp reads)
  obtain ⟨space?, _, called, braced⟩ := reads_bind.mp named
  obtain ⟨_, inside, opens, filled⟩ := reads_bind.mp braced
  obtain ⟨types, _, declared, ends⟩ := reads_bind.mp filled
  obtain ⟨_, _, closes, answer⟩ := reads_bind.mp ends
  obtain ⟨rfl, rfl⟩ := reads_pure.mp answer
  obtain ⟨opening, rfl, opened⟩ := reads_mark.mp opens
  obtain ⟨closing, rfl, closed⟩ := reads_mark.mp closes
  have shrunk := (yields_named _ _ lawful keyword).2
  have shrunkToo := (yields_dottedName.maybe
    (fun token member => lawful token (shrunk.subset member)) called).2
  exact ⟨inside, opening, closing, shrunkToo.trans shrunk, opened, declared, closed⟩

/-- The namespaces of a listing are read one after the other. -/
theorem exists_row_of_readListing {text : String} {node : ListingNode}
    (listed : readListing text = .ok node) :
    ∃ tokens rest, tokens <:+ tokensOf text.toList ∧
      Row namespaceDeclaration tokens node.namespaces rest := by
  obtain ⟨_, reads⟩ := reads_of_readListing listed
  obtain ⟨assembly, tokens, first, reads⟩ := reads_bind.mp (reads_attemptAt.mp reads)
  obtain ⟨namespaces, rest, blocks, reads⟩ := reads_bind.mp reads
  obtain ⟨_, _, -, answer⟩ := reads_bind.mp reads
  obtain ⟨rfl, rfl⟩ := reads_pure.mp answer
  have yields : Yields Lexeme.IsLawful assemblyDeclaration fun _ => True :=
    Yields.attempt ((yields_named _ _).bind fun _ _ => yields_dottedName.mono fun _ _ => trivial)
  exact ⟨tokens, rest, (yields isLawful_of_mem_tokensBehind first).2, row_of_reads_many blocks⟩

/-- The tree comes from a declaration that is read somewhere in the text. -/
def IsReadIn (text : List Char) (tree : TypeTree) : Prop :=
  ∃ (node : TypeNode) (place : String → QualifiedName) (limit : Nat) (here there : List Token),
    here <:+ tokensOf text ∧ there ≠ [] ∧ Reads (typeDeclarationWithin limit) here node there ∧
      tree = node.tree place ∧ ∀ own, (place own).name = own

/-- The declarations of a namespace are read somewhere in the text. -/
theorem exists_reads_of_mem_types {text : String} {listing : ListingNode}
    (listed : readListing text = .ok listing) {block : NamespaceNode}
    (blockMember : block ∈ listing.namespaces) {node : TypeNode} (nodeMember : node ∈ block.types) :
    ∃ limit here there, here <:+ tokensOf text.toList ∧ there ≠ [] ∧
      Reads (typeDeclarationWithin limit) here node there := by
  obtain ⟨tokens, _, within, row⟩ := exists_row_of_readListing listed
  obtain ⟨_, _, behind, taken, -⟩ := (row.exists_of_mem yields_namespaceDeclaration
    (isLawful_of_suffix within)).2 block blockMember
  have withinToo := behind.trans within
  obtain ⟨inside, opening, _, inBlock, -, declared, -⟩ :=
    exists_of_reads_namespaceDeclaration (isLawful_of_suffix withinToo) taken
  have withinBlock := ((List.suffix_cons opening inside).trans inBlock).trans withinToo
  obtain ⟨here, there, withinHere, present, reads⟩ := exists_of_mem_of_reads_many
    yields_typeDeclaration declared withinBlock (List.cons_ne_nil _ _) nodeMember
  exact ⟨_, here, there, withinHere, present, reads⟩

/-- The declarations inside of one are read within it. -/
theorem exists_reads_of_mem_content {text : List Char} {limit : Nat} {here there : List Token}
    {header : TypeHeader} {content : List (TypeNode ⊕ MemberNode)} {node : TypeNode}
    (within : here <:+ tokensOf text)
    (reads : Reads (typeDeclarationWithin limit) here (.node header content) there)
    (inContent : .inl node ∈ content) :
    ∃ limit here there, here <:+ tokensOf text ∧ there ≠ [] ∧
      Reads (typeDeclarationWithin limit) here node there := by
  obtain ⟨_, inner, front, inside, opening, _, rfl, -, -, -, declared, -⟩ :=
    exists_of_reads_typeDeclaration (isLawful_of_suffix within) reads
  have withinInside := ((List.suffix_cons opening inside).trans
    (List.suffix_append front _)).trans within
  obtain ⟨innerHere, innerThere, withinHere, left, taken⟩ := exists_of_mem_of_reads_many
    (yields_partWithin inner) declared withinInside (List.cons_ne_nil _ _) inContent
  rcases reads_orElse.mp taken with taken | ⟨-, taken⟩
  · obtain ⟨_, _, taken, answer⟩ := reads_bind.mp taken
    obtain ⟨same, rfl⟩ := reads_pure.mp answer
    cases same
    exact ⟨inner, innerHere, _, withinHere, left, taken⟩
  · obtain ⟨_, _, -, answer⟩ := reads_bind.mp taken
    cases (reads_pure.mp answer).1

/-- **Every type of an assembly is read somewhere in its text.** -/
theorem isReadIn_of_holds {text : String} {file? : Option String} {assembly : Assembly}
    (read : readAssembly text file? = .ok assembly) {owner? : Option TypeDecl} {tree : TypeTree}
    (holds : assembly.Holds owner? tree) : IsReadIn text.toList tree := by
  obtain ⟨node, place, ⟨limit, here, there, within, present, reads⟩, same, named⟩ :
      ∃ node place, (∃ limit here there, here <:+ tokensOf text.toList ∧ there ≠ [] ∧
        Reads (typeDeclarationWithin limit) here node there) ∧
          tree = TypeNode.tree place node ∧ ∀ own, (place own).name = own := by
    refine exists_node_of_holds read ?top ?inside holds
    case top =>
      exact fun listing listed _ block blockMember node nodeMember =>
        exists_reads_of_mem_types listed blockMember nodeMember
    case inside =>
      rintro header content node ⟨limit, here, there, within, -, reads⟩ inContent
      exact exists_reads_of_mem_content within reads inContent
  exact ⟨node, place, limit, here, there, within, present, reads, same, named⟩

/-- **The spans of every type of an assembly that was read are in order.** -/
theorem hasOrderedSpans_of_holds {text : String} {file? : Option String} {assembly : Assembly}
    (read : readAssembly text file? = .ok assembly) {owner? : Option TypeDecl} {tree : TypeTree}
    (holds : assembly.Holds owner? tree) : tree.HasOrderedSpans text.toList := by
  have keeps := (areFilled_of_holds read holds).keepsAccessors
  obtain ⟨⟨header, content⟩, place, limit, here, there, within, present, reads, rfl, named⟩ :=
    isReadIn_of_holds read holds
  obtain ⟨head, body, declared, spans, starts⟩ :=
    exists_isDeclaredBy within present reads (named header.name) (content.filterMap Sum.getRight?)
  refine hasOrderedSpans_of_isDeclaredBy declared starts ?_ (fun list member => ?_) keeps
  · rw [spans]
    exact perm_spanLists place header content
  · rw [spans]
    exact sublist_spanLists place header content member

/-- The types of namespaces that follow one another fill bodies that do: by induction on the row of
the namespaces. -/
theorem exists_bodies {text : List Char} {tokens rest : List Token} {blocks : List NamespaceNode}
    (row : Row namespaceDeclaration tokens blocks rest) (within : tokens <:+ tokensOf text) :
    ∃ bodies : List Body,
      (∀ body ∈ bodies, body.IsIn text ∧
        ∃ token others, token :: others <:+ tokens ∧ body.opening = token.start) ∧
      bodies.Pairwise (fun first second => first.closing < second.opening) ∧
      bodies.flatMap Body.spans = blocks.flatMap fun block => block.types.map TypeNode.span := by
  induction row with
  | done tokens => exact ⟨[], List.forall_mem_nil _, .nil, rfl⟩
  | @step tokens middle rest block blocks reads _ hypothesis =>
    have lawful := isLawful_of_suffix within
    have shrunk := (yields_namespaceDeclaration lawful reads).2
    obtain ⟨bodies, standing, ordered, spans⟩ := hypothesis (shrunk.trans within)
    obtain ⟨inside, opening, closing, behind, opened, declared, closed⟩ :=
      exists_of_reads_namespaceDeclaration lawful reads
    obtain ⟨ends, filled⟩ := isIn_of_reads_many reaches_typeDeclaration (behind.trans within) opened
      declared closed
    have closingWithin : closing :: middle <:+ tokensOf text :=
      (ends.trans (List.suffix_cons opening inside)).trans (behind.trans within)
    refine ⟨_ :: bodies, List.forall_mem_cons.mpr ⟨⟨filled, opening, inside, behind, rfl⟩, ?_⟩,
      .cons (fun other member => ?_) ordered, ?_⟩
    · intro other member
      obtain ⟨isIn, token, others, inMiddle, start⟩ := standing other member
      exact ⟨isIn, token, others, inMiddle.trans shrunk, start⟩
    · obtain ⟨-, token, others, inMiddle, start⟩ := standing other member
      calc closing.start
        _ < edgeOf (token :: others) := startOf_lt_edgeOf closingWithin
          (inMiddle.trans (List.suffix_cons closing middle))
          (Nat.lt_succ_of_le inMiddle.length_le) (List.cons_ne_nil _ _)
        _ ≤ token.start := edgeOf_le_startOf _
        _ = other.opening := start.symm
    · rw [List.flatMap_cons, List.flatMap_cons, spans]

/-- Spans in bodies that follow one another precede one another. -/
theorem pairwise_flatMap_spans {text : List Char} {bodies : List Body}
    (filled : ∀ body ∈ bodies, body.IsIn text)
    (ordered : bodies.Pairwise fun first second => first.closing < second.opening) :
    (bodies.flatMap Body.spans).Pairwise Span.Precedes := by
  refine List.pairwise_flatMap.mpr ⟨fun body member => (filled body member).fills.pairwise, ?_⟩
  refine ordered.imp_of_mem fun member memberToo behind span inFirst other inSecond => ?_
  obtain ⟨-, present, within⟩ := (filled _ member).fills.bounds span inFirst
  obtain ⟨withinToo, -⟩ := (filled _ memberToo).fills.bounds other inSecond
  exact ⟨present, by omega⟩

/-- **Spans are nested and ordered like the declarations**, in every assembly that was read. -/
theorem readAssembly_hasOrderedSpans {text : String} {file? : Option String} {assembly : Assembly}
    (read : readAssembly text file? = .ok assembly) : assembly.HasOrderedSpans text.toList := by
  obtain ⟨listing, listed, -, rfl⟩ := readAssembly_eq_ok_iff.mp read
  obtain ⟨tokens, rest, within, row⟩ := exists_row_of_readListing listed
  obtain ⟨bodies, standing, ordered, spans⟩ := exists_bodies row within
  have filled := fun body member => (standing body member).1
  have types : bodies.flatMap Body.spans =
      (listing.assemblyFrom file?).types.map fun tree => tree.decl.span := by
    rw [spans]
    show _ = (listing.namespaces.flatMap NamespaceNode.trees).map _
    rw [List.map_flatMap]
    refine congrArg (List.flatMap · _) (funext fun block => ?_)
    rw [NamespaceNode.trees, List.map_map]
    exact List.map_congr_left fun node _ => (decl_span_tree _ node).symm
  exact ⟨fun _ _ => hasOrderedSpans_of_holds read, ⟨bodies, filled, ordered, types⟩,
    types ▸ pairwise_flatMap_spans filled ordered⟩

/-- A type with comments that hold braces and characters of two bytes, with a type inside of it and
one behind it. A comment stands where its field ends. -/
def commentedText : String :=
  "assembly a namespace N \x7b // \x7d\n sealed public class A // é\n \x7b field x : I " ++
    "// é\x7d\n property P : X \x7b get; set; \x7d class B \x7b // \n \x7d ctor() \x7d " ++
    "interface C \x7b\x7d \x7d"

theorem commentedText_facts :
    (readAssembly commentedText).isOk = true ∧
      (assemblyOf commentedText).types.map (fun tree => tree.decl.span) = [⟨31, 136⟩, ⟨137, 151⟩] ∧
      (assemblyOf commentedText).types.map TypeTree.spanLists =
        [[[⟨62, 82⟩], [⟨82, 110⟩], [], [⟨128, 134⟩], [⟨111, 127⟩]], [[], [], [], [], []]] := by
  rw [readAssembly_eq, assemblyOf_eq]
  unfold commentedText
  simp only [String.toList_append]
  repeat rw [String.toList_ofList]
  decide +kernel

/-- The spans of types with comments in them. -/
theorem readAssembly_hasOrderedSpans_commented :
    ∃ assembly, readAssembly commentedText = .ok assembly ∧
      assembly.types.map (fun tree => tree.decl.span) = [⟨31, 136⟩, ⟨137, 151⟩] ∧
      assembly.types.map TypeTree.spanLists =
        [[[⟨62, 82⟩], [⟨82, 110⟩], [], [⟨128, 134⟩], [⟨111, 127⟩]], [[], [], [], [], []]] ∧
      assembly.HasOrderedSpans commentedText.toList := by
  obtain ⟨answered, types, spans⟩ := commentedText_facts
  have read := readAssembly_assemblyOf answered
  exact ⟨_, read, types, spans, readAssembly_hasOrderedSpans read⟩

end Listing

end ExternBindings
