/-
**The fault of a listing is the first one in the text.**

A listing that can be read at all is an assembly unless one of its accessors offends. The accessors
stand in the text in the order in which they are looked at, so that the one that is reported starts
in front of all others that offend.

* `takes_accessors` — the accessors of a listing are read at places of its text, one behind the other;
* `exists_declaration` — the stretch of an accessor holds one accessor declaration and nothing else;
* `ListingNode.IsFirstFault`, `readAssembly_faults` — what is reported of a listing, and when.
-/

import ExternBindings.Proofs.Listing.Accessors
import ExternBindings.Proofs.Listing.NoteScheme
import ExternBindings.Proofs.Listing.Excerpt

namespace ExternBindings.Listing

open Reading

/-! ### Accessors at places of the text -/

/-- The accessor is read where the tokens `here` start, up to where `there` starts. -/
def AccessorNode.StandsAt (node : AccessorNode) (here there : List Token) : Prop :=
  Reads accessor here node there

/-- Accessors are noted, and nothing else. -/
def accessorNotes : NoteScheme AccessorNode where
  accessor node := [node]
  reference _ := []
  parameter _ := []

theorem isTaken_accessorNotes : accessorNotes.IsTaken AccessorNode.StandsAt where
  accessor := (yields_accessor.notes fun _ reads => reads).mono fun _ _ => id
  use := yields_typeUse.silent
  parameter := yields_parameter.silent

/-- The accessors of a member, if it has any. -/
def MemberNode.accessors (node : MemberNode) : List AccessorNode :=
  node.accessorBlock?.toList.flatMap AccessorBlock.accessors

theorem member_accessorNotes (node : MemberNode) : accessorNotes.member node = node.accessors := by
  obtain ⟨modifiers, body, span⟩ := node
  cases body <;>
    simp [NoteScheme.member, MemberNode.accessors, MemberNode.accessorBlock?, accessorNotes]

theorem header_accessorNotes (header : TypeHeader) : accessorNotes.header header = [] := by
  unfold NoteScheme.header accessorNotes
  cases header.base? <;> simp

mutual

theorem type_accessorNotes : ∀ node : TypeNode,
    accessorNotes.type node = node.members.flatMap MemberNode.accessors
  | .node header content => by
    rw [NoteScheme.type, header_accessorNotes, List.nil_append, inside_accessorNotes content,
      TypeNode.members]

theorem inside_accessorNotes : ∀ content : List (TypeNode ⊕ MemberNode),
    accessorNotes.inside content = (membersIn content).flatMap MemberNode.accessors
  | [] => rfl
  | .inl node :: rest => by
    rw [NoteScheme.inside, type_accessorNotes node, inside_accessorNotes rest, membersIn,
      List.flatMap_append]
  | .inr node :: rest => by
    rw [NoteScheme.inside, member_accessorNotes node, inside_accessorNotes rest, membersIn,
      List.flatMap_cons]

end

/-- The accessors of a listing, in the order of the text. -/
def ListingNode.accessors (node : ListingNode) : List AccessorNode :=
  node.accessorBlocks.flatMap AccessorBlock.accessors

theorem listing_accessorNotes (node : ListingNode) : accessorNotes.listing node = node.accessors := by
  unfold NoteScheme.listing ListingNode.accessors ListingNode.accessorBlocks
  rw [funext type_accessorNotes, List.filterMap_eq_flatMap_toList, List.flatMap_assoc,
    List.flatMap_assoc]
  simp only [List.flatMap_assoc]
  rfl

/-- **The accessors of a listing stand one behind the other in its text.** -/
theorem takes_accessors : NoteScheme.Takes AccessorNode.StandsAt listing ListingNode.accessors :=
  isTaken_accessorNotes.listing.mono fun node _ taken => (listing_accessorNotes node).symm.trans taken

/-! ### The declaration of an accessor -/

/-- The stretch of an accessor reaches from its first token to behind its last one. -/
theorem span_of_reads {here there : List Token} {node : AccessorNode}
    (reads : Reads accessor here node there) :
    node.span = { start := startOf here, stop := edgeOf there } := by
  obtain ⟨start, _, atStart, reads⟩ := reads_bind.mp (reads_attempt.mp reads)
  obtain ⟨rfl, rfl⟩ := reads_start.mp atStart
  obtain ⟨word, _, -, reads⟩ := reads_bind.mp reads
  obtain ⟨modifiers, _, -, reads⟩ := reads_bind.mp reads
  obtain ⟨_, _, -, reads⟩ := reads_bind.mp reads
  obtain ⟨stop, _, atStop, reads⟩ := reads_bind.mp reads
  obtain ⟨rfl, rfl⟩ := reads_edge.mp atStop
  obtain ⟨rfl, rfl⟩ := reads_pure.mp reads
  rfl

theorem advances_accessor : Advances Lexeme.IsLawful accessor := by
  refine Advances.attempt (Advances.bindRight Yields.start fun start => ?_)
  refine (Advances.attempt Advances.accept).bind (Yields.attempt (Yields.oneOf _)) fun word =>
    (yields_modifiers.bind fun modifiers _ => (Yields.mark ';').bind fun _ _ => ?_ :
      Yields Lexeme.IsLawful _ fun _ => True)
  exact Yields.edge.bind fun stop _ => Yields.pure trivial

/-- The text is one accessor declaration, from its first byte to its last. -/
def AccessorNode.IsDeclaredBy (node : AccessorNode) (written : List Char) : Prop :=
  ∃ other rest, Reads accessor (tokensFrom written) other rest ∧
    other.withoutPlace = node.withoutPlace ∧ other.span = { start := 0, stop := byteSize written }

/-- **The stretch of an accessor holds its declaration and nothing else.** -/
theorem exists_declaration {text : List Char} {here there : List Token} {node : AccessorNode}
    (within : here <:+ tokensOf text) (reads : Reads accessor here node there) :
    ∃ written, IsStretch text node.span written ∧ node.IsDeclaredBy written := by
  have cut : here <:+ tokensBehind 0 (splitLayout text).1 (splitLayout text).2 := within
  obtain ⟨written, _, -, -, stretch, -, again⟩ := isExcerptedBy_accessor.exists_excerpt cut reads
  rw [splitLayout_append] at stretch
  obtain ⟨other, alike, readsToo⟩ := again isAllLayout_nil
  rw [List.append_nil] at readsToo
  refine ⟨written, span_of_reads reads ▸ stretch, other, _, readsToo, alike.symm, ?_⟩
  rw [span_of_reads readsToo, show startOf (tokensFrom written) = 0 from startOf_tokensBehind 0 [] _]
  rfl

/-! ### What is reported -/

/-- The error is that of an accessor that offends. All others that do start behind it, and the label
points at its declaration. -/
structure ListingNode.IsFirstFault (node : ListingNode) (text : List Char) (accessor : AccessorNode)
    (error : ListingError) : Prop where
  offends : ∃ block ∈ node.accessorBlocks, block.Offends accessor error
  first : ∀ block ∈ node.accessorBlocks, ∀ other otherError, block.Offends other otherError →
    other = accessor ∨ accessor.span.start < other.span.start
  label : ∃ label, error.report.labels = [label] ∧ label.start = accessor.span.start ∧
    label.start + label.length = accessor.span.stop
  declared : ∃ written, IsStretch text accessor.span written ∧ accessor.IsDeclaredBy written

theorem AccessorBlock.Offends.labels {block : AccessorBlock} {accessor : AccessorNode}
    {error : ListingError} (offends : block.Offends accessor error) :
    ∃ label, error.report.labels = [label] ∧ label.start = accessor.span.start ∧
      label.length = accessor.span.length := by
  cases offends with
  | invalid => exact ⟨_, rfl, rfl, rfl⟩
  | duplicate => exact ⟨_, rfl, rfl, rfl⟩

/-- **The fault of a listing is the first one in its text.** -/
theorem isFirstFault_of_fault? {text : String} {node : ListingNode}
    (listed : readListing text = .ok node) {error : ListingError} (faulty : node.fault? = some error) :
    ∃ accessor, node.IsFirstFault text.toList accessor error := by
  obtain ⟨rest, reads⟩ := reads_of_readListing listed
  obtain ⟨⟨_, rfl, trail⟩, -⟩ := takes_accessors isLawful_of_mem_tokensBehind reads
  obtain ⟨block, member, accessor, offends, front, back, order, later⟩ := exists_first_offence faulty
  rw [show node.accessors = front ++ accessor :: back from order] at trail
  obtain ⟨here, there, within, standing, behind, trail⟩ := trail.exists_of_split
  have lawful : ∀ token ∈ here, token.lexeme.IsLawful :=
    fun token member => isLawful_of_mem_tokensBehind token (within.subset member)
  have spans := span_of_reads standing
  have written := exists_declaration within standing
  refine ⟨accessor, ⟨block, member, offends⟩, fun other otherMember offender _ offence => ?_, ?_,
    written⟩
  · refine (later other otherMember offender _ offence).imp_right fun behindIt => ?_
    obtain ⟨place, next, inside, standingToo⟩ := trail.exists_of_mem behindIt
    have placeWithin : place <:+ here := inside.trans behind
    have shorter := Nat.lt_of_le_of_lt inside.length_le (advances_accessor lawful standing)
    have advances := advances_accessor
      (fun token member => lawful token (placeWithin.subset member)) standingToo
    have present := List.ne_nil_of_length_pos (Nat.zero_lt_of_lt advances)
    rw [spans, span_of_reads standingToo]
    exact Nat.lt_of_lt_of_le (startOf_lt_edgeOf within placeWithin shorter present)
      (edgeOf_le_startOf place)
  · obtain ⟨label, labels, starts, length⟩ := offends.labels
    obtain ⟨letters, ⟨_, _, _, first, last⟩, -⟩ := written
    refine ⟨label, labels, starts, ?_⟩
    rw [starts, length, Span.length]
    omega

/-- **A listing is an assembly unless an accessor offends.** It is then the first one in the text that
is reported. -/
theorem readAssembly_faults {text : String} {node : ListingNode}
    (listed : readListing text = .ok node) (file? : Option String) :
    ((readAssembly text file?).isOk = true ↔ ∀ block ∈ node.accessorBlocks, block.IsProper) ∧
      ∀ error, readAssembly text file? = .error error →
        ∃ accessor, node.IsFirstFault text.toList accessor error := by
  rw [← ListingNode.fault?_eq_none_iff]
  unfold readAssembly
  rw [listed]
  cases faulty : node.fault? with
  | none =>
    simp only [faulty]
    exact ⟨iff_of_true rfl trivial, fun error failed => nomatch failed⟩
  | some fault =>
    simp only [faulty]
    refine ⟨iff_of_false Bool.false_ne_true (Option.some_ne_none _), fun error failed => ?_⟩
    cases failed
    exact isFirstFault_of_fault? listed faulty

/-- An accessor that is there already, inside of a type inside of another one, with a comment in its
declaration; and one behind it that does not fit. -/
def faultText : String :=
  "assembly a namespace \x7bclass A\x7bevent E : X \x7badd;\x7d class B\x7bproperty I.P : X " ++
    "\x7bget;get // c\n private;\x7d\x7d event F : X \x7bget;\x7d\x7d\x7d"

theorem faultText_facts :
    (readListing faultText).isOk = true ∧
      (match readAssembly faultText with
        | .error error =>
          (error.report.message, error.report.labels.map fun label => (label.start, label.length))
        | .ok _ => ("", [])) = ("Duplicate get accessor on `I.P`", [(79, 18)]) := by
  unfold readAssembly readListing faultText
  simp only [String.toList_append]
  repeat rw [String.toList_ofList]
  decide +kernel

/-- The accessor that is there already is reported, and points at its own declaration. -/
theorem readAssembly_faults_nested :
    ∃ node error, readListing faultText = .ok node ∧ readAssembly faultText = .error error ∧
      error.report.message = "Duplicate get accessor on `I.P`" ∧
      (error.report.labels.map fun label => (label.start, label.length)) = [(79, 18)] ∧
      (∃ block ∈ node.accessorBlocks, ¬ block.IsProper) ∧
      ∃ accessor, node.IsFirstFault faultText.toList accessor error := by
  obtain ⟨answered, reported⟩ := faultText_facts
  cases listed : readListing faultText with
  | error error =>
    rw [listed] at answered
    cases answered
  | ok node =>
    have faults := readAssembly_faults listed none
    cases read : readAssembly faultText with
    | ok assembly =>
      rw [read] at reported
      cases congrArg Prod.snd reported
    | error error =>
      rw [read] at reported faults
      refine ⟨node, error, rfl, rfl, congrArg Prod.fst reported, congrArg Prod.snd reported, ?_,
        faults.2 error rfl⟩
      by_contra proper
      have all : ∀ block ∈ node.accessorBlocks, block.IsProper := by
        intro block member
        by_contra improper
        exact proper ⟨block, member, improper⟩
      cases faults.1.mpr all

end ExternBindings.Listing
