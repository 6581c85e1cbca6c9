/-
**The accessors that a member may have.**

A property can be got and set, an event can be added to and removed from, and each of this in one way
only.

* `AccessorBlock.IsProper` — every word fits the member and none is repeated; `AccessorBlock.Offends`
  — an accessor that breaks this rule, with the error that it makes;
* `fault?_eq_none_iff`, `exists_of_fault?_eq_some` — a member without a fault has proper accessors,
  and in front of the one that is reported all are proper;
* `ListingNode.accessorBlocks` — the accessors of all properties and events of a listing, at any
  depth of nesting, member by member in the order of the text; `exists_first_offence` — the fault
  of a listing is that of an accessor in front of all others that offend.
-/

import ExternBindings.Listing.Meaning

namespace ExternBindings.Listing

/-! ### Accessors of one member -/

/-- The words that a member of this kind may have accessors for. -/
def AccessorOwner.words : AccessorOwner → List AccessorWord
  | property => [.get, .set]
  | event => [.add, .remove]

theorem isNone_kindFor?_iff {owner : AccessorOwner} {word : AccessorWord} :
    (word.kindFor? owner).isNone = true ↔ word ∉ owner.words := by
  cases owner <;> cases word <;> decide

theorem accessorFault?_cons (owner : AccessorOwner) (member : String) (seen : List AccessorWord)
    (accessor : AccessorNode) (rest : List AccessorNode) :
    accessorFault? owner member seen (accessor :: rest) =
      if accessor.word ∈ owner.words then
        if accessor.word ∈ seen then
          some (.duplicateAccessor member accessor.word accessor.span)
        else accessorFault? owner member (accessor.word :: seen) rest
      else some (.invalidAccessor accessor.word owner accessor.span) := by
  simp only [accessorFault?, isNone_kindFor?_iff, ite_not]

theorem accessorFault?_eq_none_iff {owner : AccessorOwner} {member : String}
    {seen : List AccessorWord} {accessors : List AccessorNode} :
    accessorFault? owner member seen accessors = none ↔
      (∀ accessor ∈ accessors, accessor.word ∈ owner.words) ∧
        (∀ accessor ∈ accessors, accessor.word ∉ seen) ∧
          (accessors.map AccessorNode.word).Nodup := by
  induction accessors generalizing seen with
  | nil => simp [accessorFault?]
  | cons accessor rest hypothesis =>
    rw [accessorFault?_cons]
    by_cases fits : accessor.word ∈ owner.words
    · by_cases repeated : accessor.word ∈ seen
      · simp [fits, repeated]
      · rw [if_pos fits, if_neg repeated, hypothesis, List.forall_mem_cons, List.forall_mem_cons,
          List.map_cons, List.nodup_cons]
        simp only [List.mem_cons, not_or, List.mem_map, not_exists, not_and]
        constructor
        · rintro ⟨fit, fresh, nodup⟩
          exact ⟨⟨fits, fit⟩, ⟨repeated, fun other within => (fresh other within).2⟩,
            fun other within => (fresh other within).1, nodup⟩
        · rintro ⟨⟨-, fit⟩, ⟨-, unseen⟩, different, nodup⟩
          exact ⟨fit, fun other within => ⟨different other within, unseen other within⟩, nodup⟩
    · simp [fits]

/-- The accessor that is reported, with the proper ones in front of it. -/
theorem exists_of_accessorFault?_eq_some {owner : AccessorOwner} {member : String}
    {seen : List AccessorWord} {accessors : List AccessorNode} {error : ListingError}
    (faulty : accessorFault? owner member seen accessors = some error) :
    ∃ earlier accessor later, accessors = earlier ++ accessor :: later ∧
      accessorFault? owner member seen earlier = none ∧
      (accessor.word ∉ owner.words ∧
          error = .invalidAccessor accessor.word owner accessor.span ∨
        accessor.word ∈ owner.words ∧ accessor.word ∈ earlier.map AccessorNode.word ++ seen ∧
          error = .duplicateAccessor member accessor.word accessor.span) := by
  induction accessors generalizing seen with
  | nil => cases faulty
  | cons accessor rest hypothesis =>
    rw [accessorFault?_cons] at faulty
    split at faulty
    · next fits =>
      split at faulty
      · next repeated =>
        cases faulty
        exact ⟨[], accessor, rest, rfl, rfl, Or.inr ⟨fits, repeated, rfl⟩⟩
      · next fresh =>
        obtain ⟨earlier, found, later, split, proper, offence⟩ := hypothesis faulty
        refine ⟨accessor :: earlier, found, later, congrArg (accessor :: ·) split, ?_, ?_⟩
        · rw [accessorFault?_cons, if_pos fits, if_neg fresh, proper]
        · exact offence.imp_right fun both =>
            ⟨both.1, List.perm_middle.mem_iff.mp both.2.1, both.2.2⟩
    · next strange =>
      cases faulty
      exact ⟨[], accessor, rest, rfl, rfl, Or.inl ⟨strange, rfl⟩⟩

/-- The accessors of a property or event, with the kind and the name of the member. -/
structure AccessorBlock where
  owner : AccessorOwner
  member : String
  accessors : List AccessorNode

namespace AccessorBlock

/-- Every accessor fits the member, and no two have the same word. -/
structure IsProper (block : AccessorBlock) : Prop where
  fits : ∀ accessor ∈ block.accessors, accessor.word ∈ block.owner.words
  nodup : (block.accessors.map AccessorNode.word).Nodup

/-- The accessor does not fit the member or, if it does, an earlier one has the same word already. -/
inductive Offends (block : AccessorBlock) (accessor : AccessorNode) : ListingError → Prop
  | invalid {earlier later : List AccessorNode} :
      block.accessors = earlier ++ accessor :: later → accessor.word ∉ block.owner.words →
        Offends block accessor (.invalidAccessor accessor.word block.owner accessor.span)
  | duplicate {earlier later : List AccessorNode} :
      block.accessors = earlier ++ accessor :: later → accessor.word ∈ block.owner.words →
        accessor.word ∈ earlier.map AccessorNode.word →
          Offends block accessor (.duplicateAccessor block.member accessor.word accessor.span)

/-- The first accessor of the member that it cannot have, or has already. -/
def fault? (block : AccessorBlock) : Option ListingError :=
  accessorFault? block.owner block.member [] block.accessors

variable {block : AccessorBlock} {accessor other : AccessorNode} {error otherError : ListingError}

theorem fault?_eq_none_iff : block.fault? = none ↔ block.IsProper := by
  unfold fault?
  rw [accessorFault?_eq_none_iff]
  constructor
  · rintro ⟨fits, -, nodup⟩
    exact ⟨fits, nodup⟩
  · rintro ⟨fits, nodup⟩
    exact ⟨fits, fun _ _ => List.not_mem_nil, nodup⟩

/-- **The accessor that is reported offends, and those in front of it do not.** -/
theorem exists_of_fault?_eq_some (faulty : block.fault? = some error) :
    ∃ earlier accessor later, block.accessors = earlier ++ accessor :: later ∧
      IsProper { block with accessors := earlier } ∧ block.Offends accessor error := by
  obtain ⟨earlier, accessor, later, split, proper, offence⟩ :=
    exists_of_accessorFault?_eq_some faulty
  have unfaulty : fault? { block with accessors := earlier } = none := proper
  refine ⟨earlier, accessor, later, split, fault?_eq_none_iff.mp unfaulty, ?_⟩
  rcases offence with ⟨strange, rfl⟩ | ⟨fits, repeated, rfl⟩
  · exact Offends.invalid split strange
  · rw [List.append_nil] at repeated
    exact Offends.duplicate split fits repeated

theorem IsProper.not_offends (proper : block.IsProper) : ¬ block.Offends accessor error := by
  rintro (⟨split, strange⟩ | ⟨split, -, repeated⟩)
  · exact strange (proper.fits accessor (split ▸ List.mem_append_cons_self))
  · have nodup := proper.nodup
    rw [split, List.map_append, List.map_cons, List.nodup_append] at nodup
    exact nodup.2.2 _ repeated _ List.mem_cons_self rfl

theorem Offends.exists_split (offends : block.Offends accessor error) :
    ∃ earlier later, block.accessors = earlier ++ accessor :: later := by
  cases offends with
  | invalid split | duplicate split => exact ⟨_, _, split⟩

/-- Behind proper accessors, the next one and those behind it are all that can offend. -/
theorem Offends.eq_or_mem {earlier later : List AccessorNode}
    (offends : block.Offends other otherError)
    (split : block.accessors = earlier ++ accessor :: later)
    (proper : IsProper { block with accessors := earlier }) : other = accessor ∨ other ∈ later := by
  -- the split at the offending accessor, against the one behind the proper accessors
  have compare {front back : List AccessorNode} (other? : block.accessors = front ++ other :: back) :
      (other = accessor ∨ other ∈ later) ∨ ∃ middle, earlier = front ++ other :: middle := by
    rw [split, List.append_eq_append_iff] at other?
    rcases other? with ⟨middle, -, rest⟩ | ⟨middle, front, rest⟩
    · rcases List.cons_eq_append_iff.mp rest with ⟨-, same⟩ | ⟨middle, -, rfl⟩
      · exact Or.inl (Or.inl (List.cons.inj same).1)
      · exact Or.inl (Or.inr List.mem_append_cons_self)
    · rcases List.cons_eq_append_iff.mp rest with ⟨-, same⟩ | ⟨middle, rfl, -⟩
      · exact Or.inl (Or.inl (List.cons.inj same).1.symm)
      · exact Or.inr ⟨_, front⟩
  cases offends with
  | invalid splitToo strange =>
    refine (compare splitToo).resolve_right ?_
    rintro ⟨middle, inside⟩
    exact proper.not_offends (Offends.invalid inside strange)
  | duplicate splitToo fits repeated =>
    refine (compare splitToo).resolve_right ?_
    rintro ⟨middle, inside⟩
    exact proper.not_offends (Offends.duplicate inside fits repeated)

end AccessorBlock

/-! ### Accessors of a listing -/

/-- The accessors of a member that has any. -/
def MemberNode.accessorBlock? (member : MemberNode) : Option AccessorBlock :=
  match member.body with
  | .property name _ _ accessors => some { owner := .property, member := name, accessors }
  | .event name _ accessors => some { owner := .event, member := name, accessors }
  | .field .. | .constructor .. | .method .. => none

mutual

/-- The members of a type, those of types inside of it included, in the order of the text. -/
def TypeNode.members : TypeNode → List MemberNode
  | .node _ content => membersIn content

/-- The members among what is declared inside of a type, in the order of the text. -/
def membersIn : List (TypeNode ⊕ MemberNode) → List MemberNode
  | [] => []
  | .inl type :: rest => type.members ++ membersIn rest
  | .inr member :: rest => member :: membersIn rest

end

/-- The accessors of all properties and events of a listing, in the order of the text. -/
def ListingNode.accessorBlocks (node : ListingNode) : List AccessorBlock :=
  (node.namespaces.flatMap fun block => block.types.flatMap TypeNode.members).filterMap
    MemberNode.accessorBlock?

theorem MemberNode.fault?_eq (member : MemberNode) :
    member.fault? = member.accessorBlock?.bind AccessorBlock.fault? := by
  obtain ⟨modifiers, body, span⟩ := member
  cases body <;> rfl

mutual

theorem TypeNode.fault?_eq : ∀ type : TypeNode,
    type.fault? = type.members.findSome? MemberNode.fault?
  | .node _ content => by
    rw [TypeNode.fault?, TypeNode.members]
    exact faultIn?_eq content

theorem faultIn?_eq : ∀ content : List (TypeNode ⊕ MemberNode),
    faultIn? content = (membersIn content).findSome? MemberNode.fault?
  | [] => rfl
  | .inl type :: rest => by
    rw [faultIn?, membersIn, List.findSome?_append, type.fault?_eq, faultIn?_eq rest]
  | .inr member :: rest => by
    rw [faultIn?, membersIn, List.findSome?_cons, faultIn?_eq rest]
    cases member.fault? <;> rfl

end

theorem faultIn?_eq_none_iff {content : List (TypeNode ⊕ MemberNode)} :
    faultIn? content = none ↔
      ∀ part ∈ content, part.elim TypeNode.fault? MemberNode.fault? = none := by
  induction content with
  | nil => simp [faultIn?]
  | cons part rest hypothesis => cases part <;> simp [faultIn?, hypothesis]

theorem findSome?_flatMap {α β γ : Type} (find : β → Option γ) (parts : α → List β)
    (items : List α) :
    (items.flatMap parts).findSome? find = items.findSome? fun item => (parts item).findSome? find := by
  simp only [← List.head?_filterMap, List.filterMap_flatMap, List.head?_flatMap]

/-- **The fault of a listing is the first one that any of its members has.** -/
theorem ListingNode.fault?_eq (node : ListingNode) :
    node.fault? = node.accessorBlocks.findSome? AccessorBlock.fault? := by
  unfold ListingNode.fault? ListingNode.accessorBlocks
  rw [← List.head?_filterMap (l := List.filterMap _ _), List.filterMap_filterMap, List.head?_filterMap]
  simp only [← MemberNode.fault?_eq, findSome?_flatMap, ← TypeNode.fault?_eq]

theorem ListingNode.fault?_eq_none_iff {node : ListingNode} :
    node.fault? = none ↔ ∀ block ∈ node.accessorBlocks, block.IsProper := by
  simp only [ListingNode.fault?_eq, List.findSome?_eq_none_iff, AccessorBlock.fault?_eq_none_iff]

theorem readAssembly_eq_ok_iff {text : String} {file? : Option String} {assembly : Assembly} :
    readAssembly text file? = .ok assembly ↔
      ∃ node, readListing text = .ok node ∧ node.fault? = none ∧ assembly = node.assemblyFrom file? := by
  unfold readAssembly
  cases readListing text with
  | error error => simp
  | ok node => cases faulty : node.fault? <;> simp [faulty, eq_comm]

/-- **The fault of a listing is that of an accessor which offends**, and whatever else offends stands
behind it. -/
theorem exists_first_offence {node : ListingNode} {error : ListingError}
    (faulty : node.fault? = some error) :
    ∃ block ∈ node.accessorBlocks, ∃ accessor, block.Offends accessor error ∧
      ∃ front back, node.accessorBlocks.flatMap AccessorBlock.accessors = front ++ accessor :: back ∧
        ∀ other ∈ node.accessorBlocks, ∀ offender otherError, other.Offends offender otherError →
          offender = accessor ∨ offender ∈ back := by
  rw [ListingNode.fault?_eq, List.findSome?_eq_some_iff] at faulty
  obtain ⟨before, block, after, split, faulty, unfaulty⟩ := faulty
  obtain ⟨earlier, accessor, later, inside, proper, offends⟩ :=
    AccessorBlock.exists_of_fault?_eq_some faulty
  refine ⟨block, split ▸ List.mem_append_cons_self, accessor, offends,
    before.flatMap AccessorBlock.accessors ++ earlier,
    later ++ after.flatMap AccessorBlock.accessors, ?_, fun other member offender _ offence => ?_⟩
  · simp [split, inside]
  · rw [split, List.mem_append, List.mem_cons] at member
    rcases member with member | rfl | member
    · have properToo := AccessorBlock.fault?_eq_none_iff.mp (unfaulty other member)
      exact absurd offence properToo.not_offends
    · exact (offence.eq_or_mem inside proper).imp_right (List.mem_append_left _)
    · obtain ⟨front, back, splitToo⟩ := offence.exists_split
      have here : offender ∈ other.accessors := splitToo ▸ List.mem_append_cons_self
      exact Or.inr (List.mem_append_right _ (List.mem_flatMap_of_mem member here))

end ExternBindings.Listing
