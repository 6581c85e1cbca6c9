/-
**What becomes of the forms that methods draft.**

Forms that are drafted for one name are gathered in a group, where each signature is written once.

* `mem_of_mem_ofDraft`, `exists_mem_ofDraft` — a group has only drafted forms, and for each of them
  one with the same text;
* `Catalog.draft?_cases` — what a method drafts. So its draft has the method's name and kind, and each
  form in it is for the method (`Catalog.IsFormFor`): its own, or that of the ancestor beside it;
* `Catalog.exists_draft` — every method drafts a form unless it is skipped or left to an ancestor;
* `Catalog.Origin` — what a form of a type is for: a method of the type, or one of an ancestor that
  such a method is declared beside (`Catalog.origin_of_hasForm`);
* `Catalog.functionsOf_cases` — there is a companion exactly if names collide (`Catalog.Collides`),
  and it takes all static methods;
* `Catalog.exists_hasForm_primary`, `Catalog.exists_hasForm_groups` — the text of a drafted form
  stands in the functions of its type, and in those of the declaration itself if the method is
  called on values. There it stands only beside forms of such methods
  (`Catalog.exists_draft_of_hasForm_primary`).
-/

import ExternBindings.Output.FunctionGroup
import ExternBindings.Proofs.World.Treatment

namespace ExternBindings

/-! ### Groups -/

/-- Overloads are left out and never moved. -/
theorem distinctOverloads_sublist {principal : String} :
    ∀ {forms : List FunctionForm} {seen : List String},
      (distinctOverloads principal seen forms).Sublist forms
  | [], _ => List.Sublist.refl _
  | head :: rest, seen => by
    rw [distinctOverloads]
    split
    · exact distinctOverloads_sublist.cons_cons head
    · exact distinctOverloads_sublist.cons head

/-- An overload is left out only for the principal form, unless it is ancestral, for one that was
kept before, or for one that is kept. -/
theorem exists_mem_distinctOverloads (principal : String) {form : FunctionForm} :
    ∀ {forms : List FunctionForm} (seen : List String), form ∈ forms →
      (form.isAncestral = false ∧ form.text = principal) ∨ form.text ∈ seen ∨
        ∃ kept ∈ distinctOverloads principal seen forms, kept.text = form.text
  | head :: rest, seen, member => by
    rw [distinctOverloads]
    by_cases keeps :
        ((head.isAncestral || head.text ≠ principal) && !seen.contains head.text) = true
    · rw [if_pos keeps]
      rcases List.mem_cons.mp member with rfl | member
      · exact Or.inr (Or.inr ⟨form, List.mem_cons_self, rfl⟩)
      · rcases exists_mem_distinctOverloads principal (head.text :: seen) member with
          same | before | ⟨kept, keptMember, same⟩
        · exact Or.inl same
        · rcases List.mem_cons.mp before with same | before
          · exact Or.inr (Or.inr ⟨head, List.mem_cons_self, same.symm⟩)
          · exact Or.inr (Or.inl before)
        · exact Or.inr (Or.inr ⟨kept, List.mem_cons_of_mem _ keptMember, same⟩)
    · rw [if_neg keeps]
      rcases List.mem_cons.mp member with rfl | member
      · by_cases seenBefore : form.text ∈ seen
        · exact Or.inr (Or.inl seenBefore)
        · refine Or.inl ?_
          simpa [seenBefore] using keeps
      · exact exists_mem_distinctOverloads principal seen member

/-- **A group is its last form in order, behind the overloads that say something new.** -/
theorem ofDraft_eq {name : String} {forms front : List FunctionForm} {principal : FunctionForm}
    (ordered : inOrder forms = front ++ [principal]) :
    FunctionGroup.ofDraft name forms =
      { name, forms := distinctOverloads principal.text [] front ++ [principal] } := by
  unfold FunctionGroup.ofDraft
  simp only [ordered, List.getLast?_concat, List.dropLast_concat]

/-- Forms in order have a last one, if there is a form at all. -/
theorem exists_inOrder_eq_concat {forms : List FunctionForm} (present : forms ≠ []) :
    ∃ front principal, inOrder forms = front ++ [principal] := by
  obtain ⟨form, member⟩ := List.exists_mem_of_ne_nil forms present
  rcases List.eq_nil_or_concat (inOrder forms) with empty | ⟨front, principal, ordered⟩
  · rw [← mem_inOrder, empty] at member
    cases member
  · exact ⟨front, principal, by rw [ordered, List.concat_eq_append]⟩

@[simp]
theorem name_ofDraft (name : String) (forms : List FunctionForm) :
    (FunctionGroup.ofDraft name forms).name = name := by
  unfold FunctionGroup.ofDraft
  dsimp only
  split <;> rfl

/-- A group leaves its forms in order. -/
theorem forms_ofDraft_sublist (name : String) (forms : List FunctionForm) :
    (FunctionGroup.ofDraft name forms).forms.Sublist (inOrder forms) := by
  cases forms with
  | nil => exact List.nil_sublist _
  | cons head tail =>
    obtain ⟨front, principal, ordered⟩ := exists_inOrder_eq_concat (List.cons_ne_nil head tail)
    rw [ofDraft_eq ordered, ordered]
    exact distinctOverloads_sublist.append_right [principal]

/-- A group has only drafted forms. -/
theorem mem_of_mem_ofDraft {name : String} {forms : List FunctionForm} {form : FunctionForm}
    (member : form ∈ (FunctionGroup.ofDraft name forms).forms) : form ∈ forms :=
  mem_inOrder.mp ((forms_ofDraft_sublist name forms).subset member)

/-- **The text of every drafted form stands in its group.** -/
theorem exists_mem_ofDraft (name : String) {forms : List FunctionForm} {form : FunctionForm}
    (member : form ∈ forms) :
    ∃ kept ∈ (FunctionGroup.ofDraft name forms).forms, kept.text = form.text := by
  obtain ⟨front, principal, ordered⟩ := exists_inOrder_eq_concat (List.ne_nil_of_mem member)
  rw [ofDraft_eq ordered]
  rw [← mem_inOrder, ordered] at member
  have isLast := List.mem_append_right (distinctOverloads principal.text [] front)
    (List.mem_singleton_self principal)
  rcases List.mem_append.mp member with overload | same
  · rcases exists_mem_distinctOverloads principal.text [] overload with
      ⟨-, same⟩ | before | ⟨kept, keptMember, same⟩
    · exact ⟨principal, isLast, same.symm⟩
    · cases before
    · exact ⟨kept, List.mem_append_left _ keptMember, same⟩
  · rw [List.mem_singleton.mp same]
    exact ⟨principal, isLast, rfl⟩

/-- One of the groups has the name, and the form is one of its forms. -/
def HasForm (groups : List FunctionGroup) (name : String) (form : FunctionForm) : Prop :=
  ∃ group ∈ groups, group.name = name ∧ form ∈ group.forms

theorem HasForm.mono {part whole : List FunctionGroup} {name : String} {form : FunctionForm}
    (has : HasForm part name form) (within : part ⊆ whole) : HasForm whole name form := by
  obtain ⟨group, member, parts⟩ := has
  exact ⟨group, within member, parts⟩

theorem exists_draft_of_hasForm {drafts : List FormDraft} {name : String} {form : FunctionForm}
    (has : HasForm (groupsOf drafts) name form) :
    ∃ draft ∈ drafts, draft.name = name ∧ form ∈ draft.forms := by
  obtain ⟨group, groupMember, named, formMember⟩ := has
  obtain ⟨key, -, rfl⟩ := List.mem_map.mp groupMember
  have sameName : key = name := (name_ofDraft key _).symm.trans named
  obtain ⟨draft, draftMember, inDraft⟩ := List.mem_flatMap.mp (mem_of_mem_ofDraft formMember)
  obtain ⟨draftMember, draftName⟩ := List.mem_filter.mp draftMember
  exact ⟨draft, draftMember, (of_decide_eq_true draftName).trans sameName, inDraft⟩

/-- The text of every form of a draft stands in the group of the draft's name. -/
theorem exists_hasForm {drafts : List FormDraft} {draft : FormDraft} (member : draft ∈ drafts)
    {form : FunctionForm} (formMember : form ∈ draft.forms) :
    ∃ kept, HasForm (groupsOf drafts) draft.name kept ∧ kept.text = form.text := by
  have gathered : form ∈ (drafts.filter fun other => other.name = draft.name).flatMap
      FormDraft.forms :=
    List.mem_flatMap.mpr ⟨draft, List.mem_filter.mpr ⟨member, by simp⟩, formMember⟩
  obtain ⟨kept, keptMember, same⟩ := exists_mem_ofDraft draft.name gathered
  refine ⟨kept, ⟨_, List.mem_map.mpr ⟨draft.name, ?_, rfl⟩, name_ofDraft _ _, keptMember⟩, same⟩
  exact mem_sortedDistinct.mpr (List.mem_map_of_mem member)

/-! ### Drafts of a type -/

/-- The functions of the declaration and of its companion. -/
def FunctionTable.groups (table : FunctionTable) : List FunctionGroup :=
  table.primary ++ table.companion?.getD []

namespace Catalog

variable {catalog : Catalog} {site : Site} {index : TypeIndex}

/-- Methods that are called on values, and constructors, are declared under the name they have. -/
theorem functionName_eq_unqualifiedName (decl : TypeDecl) {method : Method}
    (onValues : method.isInstanceMember = true) :
    decl.functionName method = method.unqualifiedName := by
  obtain ⟨notStatic, notConstructor⟩ := Method.isInstanceMember_iff.mp onValues
  unfold TypeDecl.functionName
  rw [notConstructor, notStatic]
  rfl

theorem functionName_eq_constructorName (decl : TypeDecl) {method : Method}
    (constructs : method.isConstructor = true) :
    decl.functionName method = constructorName := by
  unfold TypeDecl.functionName
  rw [constructs]
  rfl

/-- What the draft of a method is: it goes under the name of the method and among its like, has a
form with the method's signature, and no other form but an ancestral one. -/
structure IsDraftOf (catalog : Catalog) (site : Site) (decl : TypeDecl) (method : Method)
    (draft : FormDraft) : Prop where
  name : draft.name = decl.functionName method
  isStatic : draft.isStatic = method.isStaticMember
  own : ∃ form ∈ draft.forms, form.text = (catalog.signature site method).text
  sources : ∀ form ∈ draft.forms, form.isAncestral = true ∨ form.source = method

/-- The form is for the method of the type: its own, or that of the ancestor's method that it is
declared beside. -/
structure IsFormFor (catalog : Catalog) (site : Site) (index : TypeIndex) (method : Method)
    (form : FunctionForm) : Prop where
  written : form.signature = catalog.signature site form.source
  source : form.isAncestral = false ∧ form.source = method ∨
    form.isAncestral = true ∧ ∃ inherited,
      catalog.world.treatment index method = .redeclared inherited ∧
        form.source = inherited.method

/-- The form for a static method is its own. -/
theorem IsFormFor.own {method : Method} {form : FunctionForm}
    (isFormFor : catalog.IsFormFor site index method form) (static : method.isStaticMember = true) :
    form.isAncestral = false ∧ form.source = method := by
  obtain ⟨-, own | ⟨-, inherited, became, -⟩⟩ := isFormFor
  · exact own
  · have onValues := (World.treatment_eq_redeclared_iff.mp became).2.1
    rw [Method.isStaticMember_eq_false_iff.mpr (Or.inl onValues)] at static
    cases static

/-- The form of the method itself. -/
def ownForm (catalog : Catalog) (site : Site) (decl : TypeDecl) (method : Method)
    (isOverride : Bool) : FunctionForm :=
  { attributes := decl.attributes method isOverride, signature := catalog.signature site method,
    source := method, isAncestral := false }

/-- The form of the inherited method that the method is declared beside. It has the attributes of the
method. -/
def ancestralForm (catalog : Catalog) (site : Site) (decl : TypeDecl) (method : Method)
    (inherited : InheritedMethod) : FunctionForm :=
  { attributes := decl.attributes method true, signature := catalog.signature site inherited.method,
    source := inherited.method, isAncestral := true }

/-- **What a method drafts**: its own form, behind that of the inherited method that it is declared
beside, if there is one. -/
theorem draft?_cases {decl : TypeDecl} {method : Method} {draft : FormDraft}
    (drafted : catalog.draft? site index decl method = some draft) :
    draft.name = decl.functionName method ∧ draft.isStatic = method.isStaticMember ∧
      (catalog.world.treatment index method = .declared ∧
          draft.forms = [catalog.ownForm site decl method false] ∨
        ∃ inherited, catalog.world.treatment index method = .redeclared inherited ∧
          draft.forms = [catalog.ancestralForm site decl method inherited,
            catalog.ownForm site decl method true]) := by
  unfold draft? at drafted
  split at drafted
  · cases drafted
  · cases drafted
  · next became =>
    obtain rfl := Option.some.inj drafted
    exact ⟨rfl, rfl, Or.inl ⟨became, rfl⟩⟩
  · next inherited became =>
    obtain rfl := Option.some.inj drafted
    exact ⟨rfl, rfl, Or.inr ⟨inherited, became, rfl⟩⟩

/-- What becomes of a method that drafts something, and what its draft is made of. -/
theorem of_draft? {decl : TypeDecl} {method : Method} {draft : FormDraft}
    (drafted : catalog.draft? site index decl method = some draft) :
    catalog.world.treatment index method ≠ .skipped ∧
      catalog.world.treatment index method ≠ .inherited ∧
      draft.name = decl.functionName method ∧ draft.isStatic = method.isStaticMember ∧
      (∃ form ∈ draft.forms, form.isAncestral = false) ∧
      ∀ form ∈ draft.forms, catalog.IsFormFor site index method form := by
  obtain ⟨name, isStatic, ⟨became, forms⟩ | ⟨inherited, became, forms⟩⟩ := draft?_cases drafted
  · rw [forms]
    refine ⟨by simp [became], by simp [became], name, isStatic,
      ⟨_, List.mem_singleton_self _, rfl⟩, fun form member => ?_⟩
    rw [List.mem_singleton.mp member]
    exact ⟨rfl, Or.inl ⟨rfl, rfl⟩⟩
  · rw [forms]
    refine ⟨by simp [became], by simp [became], name, isStatic,
      ⟨_, List.mem_cons_of_mem _ (List.mem_singleton_self _), rfl⟩, fun form member => ?_⟩
    rcases List.mem_cons.mp member with rfl | member
    · exact ⟨rfl, Or.inr ⟨rfl, inherited, became, rfl⟩⟩
    · rw [List.mem_singleton.mp member]
      exact ⟨rfl, Or.inl ⟨rfl, rfl⟩⟩

theorem isDraftOf_of_draft? {decl : TypeDecl} {method : Method} {draft : FormDraft}
    (drafted : catalog.draft? site index decl method = some draft) :
    catalog.IsDraftOf site decl method draft := by
  obtain ⟨-, -, name, isStatic, ⟨own, ownMember, isOwn⟩, forms⟩ := of_draft? drafted
  refine ⟨name, isStatic, ⟨own, ownMember, ?_⟩, fun form member => ?_⟩
  · obtain ⟨written, ⟨-, source⟩ | ⟨ancestral, -⟩⟩ := forms own ownMember
    · unfold FunctionForm.text
      rw [written, source]
    · rw [isOwn] at ancestral
      cases ancestral
  · obtain ⟨-, ⟨-, source⟩ | ⟨ancestral, -⟩⟩ := forms form member
    · exact Or.inr source
    · exact Or.inl ancestral

theorem mem_drafts_iff {draft : FormDraft} :
    draft ∈ catalog.drafts site index ↔
      ∃ decl, catalog.world.decl? index = some decl ∧
        ∃ method ∈ decl.methods, catalog.draft? site index decl method = some draft := by
  unfold drafts
  cases catalog.world.decl? index <;> simp

theorem exists_draft?_eq_some (site : Site) (decl : TypeDecl) {method : Method}
    (notSkipped : catalog.world.treatment index method ≠ .skipped)
    (notInherited : catalog.world.treatment index method ≠ .inherited) :
    ∃ draft, catalog.draft? site index decl method = some draft := by
  unfold draft?
  cases treatment : catalog.world.treatment index method with
  | skipped => exact absurd treatment notSkipped
  | inherited => exact absurd treatment notInherited
  | declared => exact ⟨_, rfl⟩
  | redeclared inherited => exact ⟨_, rfl⟩

/-- **A method drafts a form unless it is skipped or left to an ancestor.** -/
theorem exists_draft (site : Site) {decl : TypeDecl} {method : Method}
    (found : catalog.world.decl? index = some decl) (declared : method ∈ decl.methods)
    (notSkipped : catalog.world.treatment index method ≠ .skipped)
    (notInherited : catalog.world.treatment index method ≠ .inherited) :
    ∃ draft ∈ catalog.drafts site index, catalog.IsDraftOf site decl method draft := by
  obtain ⟨draft, drafted⟩ := exists_draft?_eq_some site decl notSkipped notInherited
  exact ⟨draft, mem_drafts_iff.mpr ⟨decl, found, method, declared, drafted⟩,
    isDraftOf_of_draft? drafted⟩

/-- What a form in the functions of a type is for. -/
inductive Origin (catalog : Catalog) (site : Site) (index : TypeIndex) (form : FunctionForm) : Prop
  /-- a method of the type -/
  | own (isOwn : form.isAncestral = false)
      (declared : form.source ∈ catalog.world.methods index)
      (notSkipped : catalog.world.treatment index form.source ≠ .skipped)
      (notInherited : catalog.world.treatment index form.source ≠ .inherited)
      (written : form.signature = catalog.signature site form.source)
  /-- a method of an ancestor that a method of the type is declared beside -/
  | beside (isAncestral : form.isAncestral = true) (method : Method)
      (declared : method ∈ catalog.world.methods index) (inherited : InheritedMethod)
      (became : catalog.world.treatment index method = .redeclared inherited)
      (source : form.source = inherited.method)
      (written : form.signature = catalog.signature site form.source)

theorem origin_of_mem_draft {decl : TypeDecl} {method : Method} {draft : FormDraft}
    {form : FunctionForm} (found : catalog.world.decl? index = some decl)
    (declared : method ∈ decl.methods)
    (drafted : catalog.draft? site index decl method = some draft) (member : form ∈ draft.forms) :
    catalog.Origin site index form := by
  have inType : method ∈ catalog.world.methods index :=
    World.mem_methods_iff.mpr ⟨decl, found, declared⟩
  obtain ⟨notSkipped, notInherited, -, -, -, forms⟩ := of_draft? drafted
  obtain ⟨written, ⟨isOwn, rfl⟩ | ⟨ancestral, inherited, became, source⟩⟩ := forms form member
  · exact .own isOwn inType notSkipped notInherited written
  · exact .beside ancestral method inType inherited became source written

/-! ### Functions of a type -/

/-- The draft of a static method has a name that is taken: a method that can be called on a value
has it, or the draft of a method that is not static. -/
def Collides (catalog : Catalog) (site : Site) (index : TypeIndex) : Prop :=
  ∃ draft ∈ catalog.drafts site index, draft.isStatic = true ∧
    (draft.name ∈ catalog.world.callableNames index ∨
      ∃ other ∈ catalog.drafts site index, other.isStatic = false ∧ other.name = draft.name)

/-- **Only where names collide is there a companion**, and it takes all static methods. -/
theorem functionsOf_cases (catalog : Catalog) (site : Site) (index : TypeIndex) :
    (catalog.Collides site index ∧ catalog.functionsOf site index =
      { primary := groupsOf ((catalog.drafts site index).filter fun draft => !draft.isStatic)
        companion? := some (groupsOf ((catalog.drafts site index).filter FormDraft.isStatic)) }) ∨
    (¬ catalog.Collides site index ∧ catalog.functionsOf site index =
      { primary := groupsOf (catalog.drafts site index), companion? := none }) := by
  have collides_iff : (((catalog.drafts site index).filter FormDraft.isStatic).any fun draft =>
      (catalog.world.callableNames index ++ ((catalog.drafts site index).filter fun draft =>
        !draft.isStatic).map FormDraft.name).contains draft.name) = true ↔
      catalog.Collides site index := by
    unfold Collides
    simp only [List.any_eq_true, List.mem_filter, List.contains_iff_mem, List.mem_append,
      List.mem_map, Bool.not_eq_true', and_assoc]
  unfold functionsOf
  dsimp only
  by_cases collides : catalog.Collides site index
  · exact Or.inl ⟨collides, if_pos (collides_iff.mpr collides)⟩
  · exact Or.inr ⟨collides, if_neg fun taken => collides (collides_iff.mp taken)⟩

/-- The forms in the functions of a type are drafted ones. -/
theorem exists_draft_of_hasForm_groups {name : String} {form : FunctionForm}
    (has : HasForm (catalog.functionsOf site index).groups name form) :
    ∃ draft ∈ catalog.drafts site index, draft.name = name ∧ form ∈ draft.forms := by
  obtain ⟨group, groupMember, parts⟩ := has
  unfold FunctionTable.groups at groupMember
  rcases functionsOf_cases catalog site index with ⟨-, table⟩ | ⟨-, table⟩
  · rw [table] at groupMember
    rcases List.mem_append.mp groupMember with inPrimary | inCompanion
    · obtain ⟨draft, member, inDraft⟩ := exists_draft_of_hasForm ⟨group, inPrimary, parts⟩
      exact ⟨draft, (List.mem_filter.mp member).1, inDraft⟩
    · obtain ⟨draft, member, inDraft⟩ := exists_draft_of_hasForm ⟨group, inCompanion, parts⟩
      exact ⟨draft, (List.mem_filter.mp member).1, inDraft⟩
  · rw [table, Option.getD_none, List.append_nil] at groupMember
    exact exists_draft_of_hasForm ⟨group, groupMember, parts⟩

/-- **Every form in the functions of a type is for a method of the type or of an ancestor.** -/
theorem origin_of_hasForm {name : String} {form : FunctionForm}
    (has : HasForm (catalog.functionsOf site index).groups name form) :
    catalog.Origin site index form := by
  obtain ⟨draft, member, -, inForms⟩ := exists_draft_of_hasForm_groups has
  obtain ⟨decl, found, method, declared, drafted⟩ := mem_drafts_iff.mp member
  exact origin_of_mem_draft found declared drafted inForms

theorem exists_hasForm_primary {draft : FormDraft} (member : draft ∈ catalog.drafts site index)
    (onValues : draft.isStatic = false) {form : FunctionForm} (formMember : form ∈ draft.forms) :
    ∃ kept, HasForm (catalog.functionsOf site index).primary draft.name kept ∧
      kept.text = form.text := by
  rcases functionsOf_cases catalog site index with ⟨-, table⟩ | ⟨-, table⟩
  · rw [table]
    exact exists_hasForm (List.mem_filter.mpr ⟨member, by rw [onValues]; rfl⟩) formMember
  · rw [table]
    exact exists_hasForm member formMember

theorem exists_hasForm_groups {draft : FormDraft} (member : draft ∈ catalog.drafts site index)
    {form : FunctionForm} (formMember : form ∈ draft.forms) :
    ∃ kept, HasForm (catalog.functionsOf site index).groups draft.name kept ∧
      kept.text = form.text := by
  cases static : draft.isStatic with
  | false =>
    obtain ⟨kept, has, same⟩ := exists_hasForm_primary member static formMember
    exact ⟨kept, has.mono (List.subset_append_left _ _), same⟩
  | true =>
    unfold FunctionTable.groups
    rcases functionsOf_cases catalog site index with ⟨-, table⟩ | ⟨-, table⟩
    · obtain ⟨kept, has, same⟩ :=
        exists_hasForm (List.mem_filter.mpr ⟨member, static⟩) formMember
      rw [table]
      exact ⟨kept, has.mono (List.subset_append_right _ _), same⟩
    · obtain ⟨kept, has, same⟩ := exists_hasForm member formMember
      rw [table]
      exact ⟨kept, has.mono (List.subset_append_left _ _), same⟩

/-- **Beside forms that are called on values the declaration has no static ones.** Where a static
method has the same name, the static methods are in the companion. -/
theorem exists_draft_of_hasForm_primary {draft : FormDraft}
    (member : draft ∈ catalog.drafts site index) (onValues : draft.isStatic = false)
    {form : FunctionForm} (has : HasForm (catalog.functionsOf site index).primary draft.name form) :
    ∃ other ∈ catalog.drafts site index,
      other.isStatic = false ∧ other.name = draft.name ∧ form ∈ other.forms := by
  rcases functionsOf_cases catalog site index with ⟨-, table⟩ | ⟨apart, table⟩
  · rw [table] at has
    obtain ⟨other, otherMember, parts⟩ := exists_draft_of_hasForm has
    obtain ⟨otherMember, notStatic⟩ := List.mem_filter.mp otherMember
    exact ⟨other, otherMember, by simpa using notStatic, parts⟩
  · rw [table] at has
    obtain ⟨other, otherMember, sameName, inForms⟩ := exists_draft_of_hasForm has
    refine ⟨other, otherMember, Bool.eq_false_iff.mpr fun static => apart ?_, sameName, inForms⟩
    exact ⟨other, otherMember, static, Or.inr ⟨draft, member, onValues, sameName.symm⟩⟩

end Catalog

end ExternBindings
