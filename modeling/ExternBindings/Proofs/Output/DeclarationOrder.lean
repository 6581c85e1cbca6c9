/-
**The order in which methods are declared.**

Whatever order a type declares its methods in, they draft the same forms. The order of the drafts
shows where it has to: ancestral forms keep it, and where several methods have the signature that
the function is declared with, the last of them gives the words in front of it.

* `groupsOf_perm` — groups of the same drafts in another order (`FunctionGroup.Matches`);
* `Catalog.drafts_reordered` — the drafts of a type whose methods are declared in another order;
* `Catalog.mem_groups_iff` — the functions of a type, with those of its companion, are the groups of
  the methods that are static and the groups of those that are not;
* `Catalog.functions_match` — **in whatever order methods are declared, the functions match.** Whether
  there is a companion does not depend on the order either, if nothing that the type inherits from
  or implements inherits from it in turn.

Without these conditions the order shows (`Catalog.exists_order_shown`).
-/

import ExternBindings.Proofs.Listing.Characters
import ExternBindings.Proofs.Output.NormalForm
import ExternBindings.Proofs.Output.FunctionTable
import ExternBindings.Proofs.Output.Resembling
import ExternBindings.Proofs.World.Reordered

namespace ExternBindings

/-! ### Forms in order -/

section Forms

variable {forms formsToo : List FunctionForm}

/-- What the place of a form depends on where none is ancestral. -/
def FunctionForm.rank (form : FunctionForm) : Nat × String :=
  (form.arity, form.text)

/-- Sorted forms have the same ranks, one after the other, in whatever order they were given. -/
theorem map_rank_sortBy (perm : forms.Perm formsToo) :
    (sortBy FunctionForm.mayPrecede forms).map FunctionForm.rank =
      (sortBy FunctionForm.mayPrecede formsToo).map FunctionForm.rank := by
  have ascending (forms : List FunctionForm) :
      ((sortBy FunctionForm.mayPrecede forms).map FunctionForm.rank).Pairwise fun first second =>
        second.1 < first.1 ∨ first.1 = second.1 ∧ first.2 ≤ second.2 :=
    List.pairwise_map.mpr
      ((pairwise_sortBy forms).imp fun may => FunctionForm.mayPrecede_iff.mp may)
  have moved : (sortBy FunctionForm.mayPrecede forms).Perm
      (sortBy FunctionForm.mayPrecede formsToo) :=
    (sortBy_perm _ _).trans (perm.trans (sortBy_perm _ _).symm)
  refine List.Perm.eq_of_pairwise ?_ (ascending forms) (ascending formsToo) (moved.map _)
  rintro ⟨arity, text⟩ ⟨arityToo, textToo⟩ - - (more | ⟨same, weak⟩) (less | ⟨sameToo, weakToo⟩)
  · omega
  · omega
  · omega
  · exact Prod.ext same (String.le_antisymm weak weakToo)

/-- Which signatures are kept depends on the signatures alone where none is ancestral. -/
theorem map_text_distinctOverloads {principal : String}
    (own : ∀ form ∈ forms, form.isAncestral = false)
    (ownToo : ∀ form ∈ formsToo, form.isAncestral = false)
    (same : forms.map FunctionForm.text = formsToo.map FunctionForm.text) (seen : List String) :
    (distinctOverloads principal seen forms).map FunctionForm.text =
      (distinctOverloads principal seen formsToo).map FunctionForm.text := by
  induction forms generalizing formsToo seen with
  | nil =>
    obtain rfl := List.map_eq_nil_iff.mp same.symm
    rfl
  | cons head rest hypothesis =>
    cases formsToo with
    | nil => cases same
    | cons headToo restToo =>
      rw [List.map_cons, List.map_cons, List.cons.injEq] at same
      rw [List.forall_mem_cons] at own ownToo
      rw [distinctOverloads, distinctOverloads, own.1, ownToo.1, same.1]
      split
      · rw [List.map_cons, List.map_cons, same.1, hypothesis own.2 ownToo.2 same.2]
      · exact hypothesis own.2 ownToo.2 same.2 seen

end Forms

/-! ### Groups of the same forms -/

namespace FunctionGroup

/-- None of the forms is ancestral. -/
def IsOwn (group : FunctionGroup) : Prop :=
  ∀ form ∈ group.forms, form.isAncestral = false

/-- The groups have the same name, and where no form is ancestral they have the same overloads, and
principal forms of the same rank. -/
structure Matches (group groupToo : FunctionGroup) : Prop where
  name : group.name = groupToo.name
  isOwn : group.IsOwn ↔ groupToo.IsOwn
  overloads : group.IsOwn →
    group.overloads.map FunctionForm.text = groupToo.overloads.map FunctionForm.text
  principal : group.IsOwn →
    group.principal?.map FunctionForm.rank = groupToo.principal?.map FunctionForm.rank

/-- A group has an ancestral form if one was drafted. -/
theorem isOwn_ofDraft_iff {name : String} {forms : List FunctionForm} :
    (ofDraft name forms).IsOwn ↔ ∀ form ∈ forms, form.isAncestral = false := by
  constructor
  · intro own form member
    rw [← Bool.not_eq_true]
    intro ancestral
    obtain ⟨kept, keptMember, keptAncestral, -⟩ :=
      exists_isAncestral_mem_ofDraft name member ancestral
    rw [own kept keptMember] at keptAncestral
    cases keptAncestral
  · exact fun own form member => own form (mem_of_mem_ofDraft member)

/-- **The same forms in another order give groups that match.** -/
theorem matches_ofDraft (name : String) {forms formsToo : List FunctionForm}
    (perm : forms.Perm formsToo) : (ofDraft name forms).Matches (ofDraft name formsToo) := by
  have ownToo : (∀ form ∈ forms, form.isAncestral = false) ↔
      ∀ form ∈ formsToo, form.isAncestral = false := by
    simp only [perm.mem_iff]
  cases forms with
  | nil =>
    obtain rfl := perm.nil_eq
    exact ⟨rfl, Iff.rfl, fun _ => rfl, fun _ => rfl⟩
  | cons head tail =>
    obtain ⟨front, principal, ordered⟩ := exists_inOrder_eq_concat (List.cons_ne_nil head tail)
    have present : formsToo ≠ [] := fun empty => by
      rw [empty] at perm
      cases perm.eq_nil
    obtain ⟨frontToo, principalToo, orderedToo⟩ := exists_inOrder_eq_concat present
    -- where no form is ancestral, both are sorted, and equal ranks come in equal places
    have ranks (own : ∀ form ∈ head :: tail, form.isAncestral = false) :
        front.map FunctionForm.rank = frontToo.map FunctionForm.rank ∧
          principal.rank = principalToo.rank := by
      have sorted {forms : List FunctionForm} (own : ∀ form ∈ forms, form.isAncestral = false) :
          inOrder forms = sortBy FunctionForm.mayPrecede forms := by
        unfold inOrder
        rw [if_neg (by simpa using own)]
      have same := map_rank_sortBy perm
      rw [← sorted own, ← sorted (ownToo.mp own), ordered, orderedToo, List.map_append,
        List.map_append] at same
      obtain ⟨fronts, lasts⟩ := List.append_inj' same rfl
      exact ⟨fronts, List.cons.inj lasts |>.1⟩
    have textOf (form : FunctionForm) : form.text = form.rank.2 := rfl
    refine ⟨by rw [name_ofDraft, name_ofDraft], ?_, fun own => ?_, fun own => ?_⟩
    · rw [isOwn_ofDraft_iff, isOwn_ofDraft_iff]
      exact ownToo
    · have own := isOwn_ofDraft_iff.mp own
      obtain ⟨fronts, last⟩ := ranks own
      rw [overloads_ofDraft ordered, overloads_ofDraft orderedToo, textOf principal, last]
      refine map_text_distinctOverloads (fun form member => own form ?_)
        (fun form member => ownToo.mp own form ?_) ?_ []
      · rw [← mem_inOrder, ordered]
        exact List.mem_append_left _ member
      · rw [← mem_inOrder, orderedToo]
        exact List.mem_append_left _ member
      · have texts := congrArg (List.map Prod.snd) fronts
        rwa [List.map_map, List.map_map] at texts
    · rw [principal?_ofDraft ordered, principal?_ofDraft orderedToo, Option.map_some,
        Option.map_some, (ranks (isOwn_ofDraft_iff.mp own)).2]

/-- Groups that match are written alike if their principal forms have the same words in front. -/
theorem Matches.text_eq {group groupToo : FunctionGroup} (alike : group.Matches groupToo)
    (own : group.IsOwn)
    (words : group.principal?.map (fun form => form.attributes.text) =
      groupToo.principal?.map fun form => form.attributes.text) :
    group.text = groupToo.text := by
  have overloads := congrArg (List.map fun text => line ["  @:overload(function", text, " \x7b\x7d)"])
    (alike.overloads own)
  rw [List.map_map, List.map_map] at overloads
  have ranks := alike.principal own
  unfold FunctionGroup.text
  cases first : group.principal? with
  | none =>
    rw [first, Option.map_none, eq_comm, Option.map_eq_none_iff] at ranks
    rw [ranks]
  | some principal =>
    rw [first] at ranks words
    obtain ⟨principalToo, second, rank⟩ := Option.map_eq_some_iff.mp ranks.symm
    rw [second, Option.map_some, Option.map_some, Option.some.injEq] at words
    have text : principal.text = principalToo.text := congrArg Prod.snd rank.symm
    rw [second]
    dsimp only
    rw [alike.name, words, text]
    exact congrArg (fun texts => "\n" ++ Text.join "" texts ++ line ["  ",
      principalToo.attributes.text, "function ", groupToo.name, principalToo.text, ";"]) overloads

end FunctionGroup

/-! ### Groups of the same drafts -/

theorem sortedDistinct_eq_of_perm {texts textsToo : List String} (perm : texts.Perm textsToo) :
    sortedDistinct texts = sortedDistinct textsToo := by
  have distinct (texts : List String) : (sortedDistinct texts).Nodup :=
    (sortedDistinct_pairwise texts).imp fun before => String.ne_of_lt before
  have same : (sortedDistinct texts).Perm (sortedDistinct textsToo) := by
    rw [List.perm_ext_iff_of_nodup (distinct texts) (distinct textsToo)]
    simp only [mem_sortedDistinct, perm.mem_iff, implies_true]
  refine same.eq_of_pairwise ?_ (sortedDistinct_pairwise texts) (sortedDistinct_pairwise textsToo)
  exact fun first second _ _ before after => absurd (String.lt_trans before after) (String.lt_irrefl _)

theorem mem_groupsOf_iff {drafts : List FormDraft} {group : FunctionGroup} :
    group ∈ groupsOf drafts ↔ (∃ draft ∈ drafts, draft.name = group.name) ∧
      group = FunctionGroup.ofDraft group.name
        ((drafts.filter fun draft => draft.name = group.name).flatMap FormDraft.forms) := by
  unfold groupsOf
  simp only [List.mem_map, mem_sortedDistinct]
  constructor
  · rintro ⟨name, ⟨draft, member, named⟩, rfl⟩
    rw [name_ofDraft]
    exact ⟨⟨draft, member, named⟩, rfl⟩
  · rintro ⟨present, same⟩
    exact ⟨group.name, present, same.symm⟩

/-- The drafts with one name are all static, or none of them is. -/
def AreUniform (drafts : List FormDraft) : Prop :=
  ∀ draft ∈ drafts, ∀ other ∈ drafts, draft.name = other.name → draft.isStatic = other.isStatic

/-- Where all drafts with one name are of one kind, the groups of drafts of that kind are those with
the name of one. -/
theorem AreUniform.mem_groupsOf_filter_iff {drafts : List FormDraft} (uniform : AreUniform drafts)
    (chosen : Bool → Bool) {group : FunctionGroup} :
    group ∈ groupsOf (drafts.filter fun draft => chosen draft.isStatic) ↔
      group ∈ groupsOf drafts ∧
        ∃ draft ∈ drafts, draft.name = group.name ∧ chosen draft.isStatic = true := by
  rw [mem_groupsOf_iff, mem_groupsOf_iff]
  have kept : (∃ draft ∈ drafts, draft.name = group.name ∧ chosen draft.isStatic = true) →
      ((drafts.filter fun draft => chosen draft.isStatic).filter fun draft =>
        draft.name = group.name) = drafts.filter fun draft => draft.name = group.name := by
    rintro ⟨draft, member, named, isChosen⟩
    rw [List.filter_filter]
    refine List.filter_congr fun other otherMember => ?_
    by_cases same : other.name = group.name
    · rw [uniform other otherMember draft member (same.trans named.symm), isChosen, Bool.and_true]
    · rw [decide_eq_false same, Bool.false_and]
  constructor
  · rintro ⟨⟨draft, member, named⟩, written⟩
    obtain ⟨member, isChosen⟩ := List.mem_filter.mp member
    rw [kept ⟨draft, member, named, isChosen⟩] at written
    exact ⟨⟨⟨draft, member, named⟩, written⟩, draft, member, named, isChosen⟩
  · rintro ⟨⟨-, written⟩, draft, member, named, isChosen⟩
    refine ⟨⟨draft, List.mem_filter.mpr ⟨member, isChosen⟩, named⟩, ?_⟩
    rw [kept ⟨draft, member, named, isChosen⟩]
    exact written

namespace Catalog

variable {catalog : Catalog} {site : Site} {index : TypeIndex} {decl : TypeDecl}

/-- The forms that tie with the principal one, drafted by methods of its kind, have the same words in
front. -/
def TiesAgree (catalog : Catalog) (site : Site) (index : TypeIndex) (group : FunctionGroup) : Prop :=
  ∀ principal ∈ group.principal?, ∀ draft ∈ catalog.drafts site index, draft.name = group.name →
    draft.isStatic = principal.source.isStaticMember →
      ∀ form ∈ draft.forms, form.rank = principal.rank →
        form.attributes.text = principal.attributes.text

/-- The groups match, and where no form is ancestral and ties agree they are written alike. -/
structure MatchesIn (catalog : Catalog) (site : Site) (index : TypeIndex)
    (group groupToo : FunctionGroup) : Prop where
  alike : group.Matches groupToo
  text : group.IsOwn → catalog.TiesAgree site index group → group.text = groupToo.text

/-- A form of its own goes with the drafts of its kind. -/
theorem isStatic_eq_of_mem_forms {draft : FormDraft} (member : draft ∈ catalog.drafts site index)
    {form : FunctionForm} (inForms : form ∈ draft.forms) (own : form.isAncestral = false) :
    draft.isStatic = form.source.isStaticMember := by
  obtain ⟨decl, -, method, -, drafted⟩ := mem_drafts_iff.mp member
  have isDraftOf := isDraftOf_of_draft? drafted
  rcases isDraftOf.sources form inForms with ancestral | rfl
  · rw [own] at ancestral
    cases ancestral
  · exact isDraftOf.isStatic

/-- Where ties agree, groups of the same drafts have the same words in front of their principal
forms. -/
theorem words_eq_of_tiesAgree {drafts : List FormDraft} (within : drafts ⊆ catalog.drafts site index)
    (uniform : AreUniform drafts) {group groupToo : FunctionGroup} (alike : group.Matches groupToo)
    (drafted : ∀ form, form ∈ group.forms ∨ form ∈ groupToo.forms →
      ∃ draft ∈ drafts, draft.name = group.name ∧ form ∈ draft.forms)
    (own : group.IsOwn) (agree : catalog.TiesAgree site index group) :
    group.principal?.map (fun form => form.attributes.text) =
      groupToo.principal?.map fun form => form.attributes.text := by
  have ranks := alike.principal own
  cases first : group.principal? with
  | none =>
    rw [first, Option.map_none, eq_comm, Option.map_eq_none_iff] at ranks
    rw [ranks, Option.map_none]
  | some principal =>
    rw [first] at ranks
    obtain ⟨principalToo, second, rank⟩ := Option.map_eq_some_iff.mp ranks.symm
    have member : principal ∈ group.forms := List.mem_of_getLast? first
    obtain ⟨draft, draftMember, named, inDraft⟩ := drafted principal (Or.inl member)
    obtain ⟨draftToo, draftTooMember, namedToo, inDraftToo⟩ :=
      drafted principalToo (Or.inr (List.mem_of_getLast? second))
    have kind := isStatic_eq_of_mem_forms (within draftMember) inDraft (own principal member)
    have sameKind := uniform draftToo draftTooMember draft draftMember (namedToo.trans named.symm)
    rw [second, Option.map_some, Option.map_some, agree principal first draftToo
      (within draftTooMember) namedToo (sameKind.trans kind) principalToo inDraftToo rank]

/-- **Groups of the same drafts in another order match.** -/
theorem forall₂_groupsOf {drafts draftsToo : List FormDraft} (perm : drafts.Perm draftsToo)
    (within : drafts ⊆ catalog.drafts site index) (uniform : AreUniform drafts) :
    List.Forall₂ (catalog.MatchesIn site index) (groupsOf drafts) (groupsOf draftsToo) := by
  unfold groupsOf
  rw [← sortedDistinct_eq_of_perm (perm.map FormDraft.name), List.forall₂_map_left_iff,
    List.forall₂_map_right_iff, List.forall₂_same]
  intro name _
  have forms : ((drafts.filter fun draft => draft.name = name).flatMap FormDraft.forms).Perm
      ((draftsToo.filter fun draft => draft.name = name).flatMap FormDraft.forms) :=
    (perm.filter _).flatMap_right _
  have alike := FunctionGroup.matches_ofDraft name forms
  refine ⟨alike, fun own agree => alike.text_eq own ?_⟩
  refine words_eq_of_tiesAgree within uniform alike (fun form member => ?_) own agree
  have gathered : form ∈ (drafts.filter fun draft => draft.name = name).flatMap FormDraft.forms :=
    member.elim mem_of_mem_ofDraft fun member => forms.mem_iff.mpr (mem_of_mem_ofDraft member)
  obtain ⟨draft, draftMember, inForms⟩ := List.mem_flatMap.mp gathered
  obtain ⟨draftMember, named⟩ := List.mem_filter.mp draftMember
  exact ⟨draft, draftMember, (of_decide_eq_true named).trans (name_ofDraft name _).symm, inForms⟩

/-! ### Functions of a type -/

theorem areUniform_filter (drafts : List FormDraft) (isStatic : Bool) :
    AreUniform (drafts.filter fun draft => draft.isStatic == isStatic) := by
  intro draft member other otherMember _
  rw [eq_of_beq (List.mem_filter.mp member).2, eq_of_beq (List.mem_filter.mp otherMember).2]

theorem areUniform_of_not_collides (apart : ¬ catalog.Collides site index) :
    AreUniform (catalog.drafts site index) := by
  intro draft member other otherMember same
  cases static : draft.isStatic <;> cases staticToo : other.isStatic
  · rfl
  · exact absurd ⟨other, otherMember, staticToo, Or.inr ⟨draft, member, static, same⟩⟩ apart
  · exact absurd ⟨draft, member, static, Or.inr ⟨other, otherMember, staticToo, same.symm⟩⟩ apart
  · rfl

/-- **The functions of a type and of its companion are the groups of the static methods and those of
the others**, whether they are apart or not. -/
theorem mem_groups_iff {group : FunctionGroup} :
    group ∈ (catalog.functionsOf site index).groups ↔ ∃ isStatic,
      group ∈ groupsOf ((catalog.drafts site index).filter fun draft =>
        draft.isStatic == isStatic) := by
  unfold FunctionTable.groups
  rcases functionsOf_cases catalog site index with ⟨-, table⟩ | ⟨apart, table⟩
  · rw [table, Option.getD_some, List.mem_append, Bool.exists_bool]
    simp only [beq_false, beq_true]
  · rw [table, Option.getD_none, List.append_nil]
    have uniform := areUniform_of_not_collides apart
    constructor
    · intro member
      obtain ⟨⟨draft, draftMember, named⟩, -⟩ := mem_groupsOf_iff.mp member
      exact ⟨draft.isStatic, (uniform.mem_groupsOf_filter_iff (· == draft.isStatic)).mpr
        ⟨member, draft, draftMember, named, BEq.rfl⟩⟩
    · rintro ⟨isStatic, member⟩
      exact ((uniform.mem_groupsOf_filter_iff (· == isStatic)).mp member).1

/-! ### Drafts of a type -/

/-- The catalog in which one type lists its methods in another order. -/
def reordered (catalog : Catalog) (index : TypeIndex) (order : List Nat) : Catalog :=
  { catalog with world := catalog.world.reordered index order }

/-- Every name is as it was at every site. -/
theorem namesAlike_reordered (catalog : Catalog) (index : TypeIndex) (order : List Nat) :
    (catalog.reordered index order).NamesAlike catalog fun _ => True where
  system _ := trivial
  nameAt _ site arguments? := by
    unfold nameAt reordered
    simp only [World.flatName_reordered]

section Reordered

variable {order : List Nat} (found : catalog.world.decl? index = some decl)
  (isOrder : order.Perm (List.range decl.methods.length))

include found isOrder

/-- **A type drafts the same forms in whatever order it declares its methods.** -/
theorem drafts_reordered (site : Site) :
    ((catalog.reordered index order).drafts site index).Perm (catalog.drafts site index) := by
  have isReordered := World.isReordered_reordered found isOrder
  have moved : (catalog.reordered index order).world.decl? index = some (decl.reordered order) :=
    World.decl?_reordered order found
  have signatures : (catalog.reordered index order).signature = catalog.signature := by
    funext site method
    exact (catalog.namesAlike_reordered index order).signature site fun _ _ _ _ => trivial
  have drafted : (catalog.reordered index order).draft? site index (decl.reordered order) =
      catalog.draft? site index decl := by
    funext method
    unfold draft?
    rw [show (catalog.reordered index order).world.treatment index method =
      catalog.world.treatment index method from
        isReordered.treatment_eq (World.notMem_ancestors index) method, signatures]
    rfl
  unfold drafts
  rw [moved, found, Option.elim_some, Option.elim_some, drafted]
  exact (itemsAt_perm isOrder).filterMap _

/-- Whether there is a companion does not depend on the order, if nothing that the type inherits from
or implements inherits from it in turn. -/
theorem collides_reordered_iff (site : Site)
    (apart : ∀ owner ∈ catalog.world.ancestors index ++ catalog.world.allContracts index,
      index ∉ catalog.world.ancestors owner) :
    (catalog.reordered index order).Collides site index ↔ catalog.Collides site index := by
  have isReordered := World.isReordered_reordered found isOrder
  have names : ∀ name, name ∈ (catalog.reordered index order).world.callableNames index ↔
      name ∈ catalog.world.callableNames index :=
    fun name => isReordered.mem_callableNames_iff apart
  unfold Collides
  simp only [names, (drafts_reordered found isOrder site).mem_iff]

/-- **In whatever order a type declares its methods, its functions match.** They have the same names,
and where no form is ancestral the same overloads and the same signature, and the same words in
front if ties agree. They are shared out alike between the declaration and the companion, if nothing
that the type inherits from or implements inherits from it in turn. -/
theorem functions_match (site : Site) :
    (∀ group ∈ (catalog.functionsOf site index).groups,
      ∃ groupToo ∈ ((catalog.reordered index order).functionsOf site index).groups,
        catalog.MatchesIn site index group groupToo) ∧
    (∀ groupToo ∈ ((catalog.reordered index order).functionsOf site index).groups,
      ∃ group ∈ (catalog.functionsOf site index).groups,
        catalog.MatchesIn site index group groupToo) ∧
    ((∀ owner ∈ catalog.world.ancestors index ++ catalog.world.allContracts index,
        index ∉ catalog.world.ancestors owner) →
      List.Forall₂ (catalog.MatchesIn site index) (catalog.functionsOf site index).primary
          ((catalog.reordered index order).functionsOf site index).primary ∧
        Option.Rel (List.Forall₂ (catalog.MatchesIn site index))
          (catalog.functionsOf site index).companion?
          ((catalog.reordered index order).functionsOf site index).companion?) := by
  have perm := (drafts_reordered found isOrder site).symm
  have kind (isStatic : Bool) : List.Forall₂ (catalog.MatchesIn site index)
      (groupsOf ((catalog.drafts site index).filter fun draft => draft.isStatic == isStatic))
      (groupsOf (((catalog.reordered index order).drafts site index).filter fun draft =>
        draft.isStatic == isStatic)) :=
    forall₂_groupsOf (perm.filter _) (fun _ member => (List.mem_filter.mp member).1)
      (areUniform_filter _ isStatic)
  refine ⟨fun group member => ?_, fun groupToo member => ?_, fun apart => ?_⟩
  · obtain ⟨isStatic, member⟩ := mem_groups_iff.mp member
    obtain ⟨groupToo, memberToo, alike⟩ := exists_mem_of_forall₂ (kind isStatic) member
    exact ⟨groupToo, mem_groups_iff.mpr ⟨isStatic, memberToo⟩, alike⟩
  · obtain ⟨isStatic, member⟩ := mem_groups_iff.mp member
    obtain ⟨group, memberToo, alike⟩ := exists_mem_of_forall₂ (kind isStatic).flip member
    exact ⟨group, mem_groups_iff.mpr ⟨isStatic, memberToo⟩, alike⟩
  · have collides_iff := collides_reordered_iff found isOrder site apart
    rcases functionsOf_cases catalog site index with ⟨collides, table⟩ | ⟨together, table⟩
    · rcases functionsOf_cases (catalog.reordered index order) site index with
        ⟨-, tableToo⟩ | ⟨other, -⟩
      · rw [table, tableToo]
        exact ⟨by simpa using kind false, .some (by simpa using kind true)⟩
      · exact absurd (collides_iff.mpr collides) other
    · rcases functionsOf_cases (catalog.reordered index order) site index with
        ⟨other, -⟩ | ⟨-, tableToo⟩
      · exact absurd (collides_iff.mp other) together
      · rw [table, tableToo]
        exact ⟨forall₂_groupsOf perm (List.Subset.refl _) (areUniform_of_not_collides together),
          .none⟩

end Reordered

/-! ### Orders that show -/

instance (group : FunctionGroup) : Decidable group.IsOwn :=
  inferInstanceAs (Decidable (∀ form ∈ group.forms, _))

instance (catalog : Catalog) (site : Site) (index : TypeIndex) (group : FunctionGroup) :
    Decidable (catalog.TiesAgree site index group) :=
  inferInstanceAs (Decidable (∀ principal ∈ group.principal?, _))

/-- A class that implements an interface twice, once for everyone; classes that inherit from each
other, one of which has a static method beside one of its own; and a class with overloads. -/
def orderTexts : List String :=
  ["assembly a namespace \x7b public interface I \x7b public method M(): X \x7d " ++
      "public class A implements I \x7b public method M(): X method I.M(): X \x7d \x7d",
    "assembly b namespace \x7b " ++
      "public class B extends C \x7b method S(): X public static method S(): X \x7d " ++
      "public class C extends B \x7b public method S(): X \x7d \x7d",
    "assembly c namespace \x7b " ++
      "public class D \x7b public method N(x: X): X public method N(): X \x7d \x7d"]

/-- The types of the listings. -/
def orderCatalog : Catalog :=
  Catalog.ofAssemblies (orderTexts.map Listing.assemblyOf) {}

/-- A site in the namespace of the listings. -/
def orderSite : Site :=
  Site.ofFile { space := "", name := "A" }

/-- The functions of a type that declares its two methods the other way around. -/
def swappedFunctions (index : TypeIndex) : FunctionTable :=
  (orderCatalog.reordered index [1, 0]).functionsOf orderSite index

theorem orderCatalog_facts :
    (∀ text ∈ orderTexts, (Listing.readAssembly text).isOk = true) ∧
      (∀ index ∈ [1, 2, 4], (orderCatalog.world.decl? index).any (fun decl =>
        decide (decl.methods.length = 2)) = true) ∧
      ((∀ group ∈ (orderCatalog.functionsOf orderSite 1).primary, group.IsOwn) ∧
        (orderCatalog.functionsOf orderSite 1).primary.map FunctionGroup.text =
          ["\n  function M() : X;\n"] ∧
        (swappedFunctions 1).primary.map FunctionGroup.text =
          ["\n  public function M() : X;\n"]) ∧
      ((orderCatalog.functionsOf orderSite 2).companion?.isSome = true ∧
        (swappedFunctions 2).companion?.isSome = false) ∧
      (∀ owner ∈ orderCatalog.world.ancestors 4 ++ orderCatalog.world.allContracts 4,
        4 ∉ orderCatalog.world.ancestors owner) ∧
      ∀ group ∈ (orderCatalog.functionsOf orderSite 4).primary,
        group.IsOwn ∧ orderCatalog.TiesAgree orderSite 4 group := by
  unfold swappedFunctions orderCatalog
  rw [Listing.forall_isOk_iff, Listing.map_assemblyOf_eq]
  unfold orderTexts
  simp only [List.map_cons, List.map_nil, String.toList_append]
  repeat rw [String.toList_ofList]
  decide +kernel

/-- The declaration at an index, with an order of its two methods. -/
theorem exists_order {index : TypeIndex} (counted : (orderCatalog.world.decl? index).any (fun decl =>
    decide (decl.methods.length = 2)) = true) :
    ∃ decl, orderCatalog.world.decl? index = some decl ∧
      [1, 0].Perm (List.range decl.methods.length) := by
  obtain ⟨decl, found, two⟩ := (Option.any_eq_true _ _).mp counted
  refine ⟨decl, found, ?_⟩
  rw [of_decide_eq_true two]
  exact List.Perm.swap 0 1 []

/-- Overloads are written alike in whatever order they are declared. -/
theorem functions_match_overloads :
    (∃ decl, orderCatalog.world.decl? 4 = some decl ∧
      [1, 0].Perm (List.range decl.methods.length)) ∧
    (orderCatalog.functionsOf orderSite 4).primary.map FunctionGroup.text =
      (swappedFunctions 4).primary.map FunctionGroup.text := by
  obtain ⟨-, counted, -, -, apart, agree⟩ := orderCatalog_facts
  obtain ⟨decl, found, isOrder⟩ := exists_order (counted 4 (by decide))
  refine ⟨⟨decl, found, isOrder⟩, ?_⟩
  obtain ⟨alike, -⟩ := (functions_match found isOrder orderSite).2.2 apart
  rw [← List.forall₂_eq_eq_eq, List.forall₂_map_left_iff, List.forall₂_map_right_iff]
  have both := (List.forall₂_and_left _ _).mpr ⟨agree, alike⟩
  exact both.imp fun group groupToo ⟨⟨own, ties⟩, same⟩ => same.text own ties

/-- The order of methods may show: in the words in front of a function, where methods with different
words have the same signature, and in whether there is a companion, where types inherit from each
other. -/
theorem exists_order_shown :
    (∀ text ∈ orderTexts, (Listing.readAssembly text).isOk = true) ∧
      (∃ decl, orderCatalog.world.decl? 1 = some decl ∧
        [1, 0].Perm (List.range decl.methods.length) ∧
          (∀ group ∈ (orderCatalog.functionsOf orderSite 1).primary, group.IsOwn) ∧
            (orderCatalog.functionsOf orderSite 1).primary.map FunctionGroup.text =
              ["\n  function M() : X;\n"] ∧
            (swappedFunctions 1).primary.map FunctionGroup.text =
              ["\n  public function M() : X;\n"]) ∧
      ∃ decl, orderCatalog.world.decl? 2 = some decl ∧
        [1, 0].Perm (List.range decl.methods.length) ∧
          (orderCatalog.functionsOf orderSite 2).companion?.isSome = true ∧
            (swappedFunctions 2).companion?.isSome = false := by
  obtain ⟨answered, counted, ⟨own, written, swapped⟩, ⟨apart, together⟩, -⟩ := orderCatalog_facts
  obtain ⟨decl, found, isOrder⟩ := exists_order (counted 1 (by decide))
  obtain ⟨declToo, foundToo, isOrderToo⟩ := exists_order (counted 2 (by decide))
  exact ⟨answered, ⟨decl, found, isOrder, own, written, swapped⟩, declToo, foundToo, isOrderToo,
    apart, together⟩

end Catalog

end ExternBindings
