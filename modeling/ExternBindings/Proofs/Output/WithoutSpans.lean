/-
**Generated declarations apart from where their methods stand.**

A form of a function keeps the method that it comes from, and with it a stretch of text, which shows
nowhere in what is written.

* `groupsOf_withoutSpans` — forms are gathered and put in order alike without it;
* `Declaration.text_withoutSpans`, `Declaration.hasCompanion_withoutSpans` — and written alike.
-/

import ExternBindings.Output.Declaration
import ExternBindings.Proofs.Metadata.WithoutSpans

namespace ExternBindings

/-- The form with the stretch of text of its method put aside. -/
def FunctionForm.withoutSpan (form : FunctionForm) : FunctionForm :=
  { form with source := form.source.withoutSpan }

/-- The draft with all stretches of text put aside. -/
def FormDraft.withoutSpans (draft : FormDraft) : FormDraft :=
  { draft with forms := draft.forms.map FunctionForm.withoutSpan }

/-- The group with all stretches of text put aside. -/
def FunctionGroup.withoutSpans (group : FunctionGroup) : FunctionGroup :=
  { group with forms := group.forms.map FunctionForm.withoutSpan }

/-- The functions with all stretches of text put aside. -/
def FunctionTable.withoutSpans (table : FunctionTable) : FunctionTable :=
  { primary := table.primary.map FunctionGroup.withoutSpans
    companion? := table.companion?.map (List.map FunctionGroup.withoutSpans) }

/-- The class or interface with all stretches of text put aside. -/
def ClassDeclaration.withoutSpans (declaration : ClassDeclaration) : ClassDeclaration :=
  { declaration with methods := declaration.methods.withoutSpans }

/-- The declaration with all stretches of text put aside. -/
def Declaration.withoutSpans : Declaration → Declaration
  | enumeration declaration => enumeration declaration
  | classLike declaration => classLike declaration.withoutSpans

/-! ### Forms in order -/

theorem insertBy_map {α β : Type} {mayPrecede : β → β → Bool} {image : α → β} (item : α)
    (items : List α) :
    insertBy mayPrecede (image item) (items.map image) =
      (insertBy (fun first second => mayPrecede (image first) (image second)) item items).map
        image := by
  induction items with
  | nil => rfl
  | cons head tail hypothesis =>
    rw [List.map_cons, insertBy, insertBy]
    split
    · rw [List.map_cons, List.map_cons]
    · rw [List.map_cons, hypothesis]

theorem sortBy_map {α β : Type} {mayPrecede : β → β → Bool} {image : α → β} (items : List α) :
    sortBy mayPrecede (items.map image) =
      (sortBy (fun first second => mayPrecede (image first) (image second)) items).map image := by
  induction items with
  | nil => rfl
  | cons head tail hypothesis =>
    show insertBy mayPrecede (image head) (sortBy mayPrecede (tail.map image)) = _
    rw [hypothesis, insertBy_map]
    rfl

theorem inOrder_withoutSpan (forms : List FunctionForm) :
    inOrder (forms.map FunctionForm.withoutSpan) =
      (inOrder forms).map FunctionForm.withoutSpan := by
  unfold inOrder
  rw [List.any_map, List.filter_map, List.filter_map, sortBy_map]
  show (if forms.any FunctionForm.isAncestral = true then _ else _) = _
  split
  · rw [List.map_append]
    rfl
  · rfl

theorem distinctOverloads_withoutSpan (principal : String) (seen : List String) :
    ∀ forms : List FunctionForm,
      distinctOverloads principal seen (forms.map FunctionForm.withoutSpan) =
        (distinctOverloads principal seen forms).map FunctionForm.withoutSpan
  | [] => rfl
  | form :: rest => by
    rw [List.map_cons, distinctOverloads, distinctOverloads,
      distinctOverloads_withoutSpan principal _ rest, distinctOverloads_withoutSpan principal _ rest]
    show (if (form.isAncestral || form.text ≠ principal) && !seen.contains form.text then _ else _) = _
    split
    · rfl
    · rfl

theorem FunctionGroup.ofDraft_withoutSpans (name : String) (forms : List FunctionForm) :
    FunctionGroup.ofDraft name (forms.map FunctionForm.withoutSpan) =
      (FunctionGroup.ofDraft name forms).withoutSpans := by
  unfold FunctionGroup.ofDraft
  simp only [inOrder_withoutSpan, List.getLast?_map]
  cases (inOrder forms).getLast? with
  | none => rfl
  | some principal =>
    simp only [Option.map_some, ← List.map_dropLast, distinctOverloads_withoutSpan,
      FunctionGroup.withoutSpans, List.map_append, List.map_cons, List.map_nil]
    rfl

/-- **Forms are gathered alike without stretches of text.** -/
theorem groupsOf_withoutSpans (drafts : List FormDraft) :
    groupsOf (drafts.map FormDraft.withoutSpans) =
      (groupsOf drafts).map FunctionGroup.withoutSpans := by
  unfold groupsOf
  rw [List.map_map, List.map_map]
  show (sortedDistinct (drafts.map FormDraft.name)).map _ = _
  refine List.map_congr_left fun name _ => ?_
  rw [Function.comp_apply, ← FunctionGroup.ofDraft_withoutSpans, List.filter_map, List.flatMap_map,
    List.map_flatMap]
  rfl

/-! ### What is written -/

theorem FunctionGroup.text_withoutSpans (group : FunctionGroup) :
    group.withoutSpans.text = group.text := by
  unfold FunctionGroup.text principal? overloads withoutSpans
  rw [List.getLast?_map, ← List.map_dropLast, List.map_map]
  cases group.forms.getLast? with
  | none => rfl
  | some principal => rfl

theorem map_text_withoutSpans (groups : List FunctionGroup) :
    (groups.map FunctionGroup.withoutSpans).map FunctionGroup.text = groups.map FunctionGroup.text := by
  rw [List.map_map]
  exact List.map_congr_left fun group _ => group.text_withoutSpans

theorem ClassDeclaration.text_withoutSpans (declaration : ClassDeclaration) :
    declaration.withoutSpans.text = declaration.text := by
  have own : declaration.withoutSpans.ownText = declaration.ownText := by
    have primary := map_text_withoutSpans declaration.methods.primary
    unfold ownText membersText
    simp only [withoutSpans, FunctionTable.withoutSpans, primary]
    rfl
  have companion : ∀ functions : List FunctionGroup,
      declaration.withoutSpans.companionText (functions.map FunctionGroup.withoutSpans) =
        declaration.companionText functions := by
    intro functions
    unfold companionText
    rw [map_text_withoutSpans]
    rfl
  unfold ClassDeclaration.text
  rw [own]
  show _ ++ (declaration.methods.companion?.map (List.map FunctionGroup.withoutSpans)).elim "" _ = _
  cases declaration.methods.companion? with
  | none => rfl
  | some functions =>
    rw [Option.map_some, Option.elim_some, Option.elim_some, companion]

/-- **What is written does not show where methods stand.** -/
theorem Declaration.text_withoutSpans (declaration : Declaration) :
    declaration.withoutSpans.text = declaration.text := by
  cases declaration with
  | enumeration => rfl
  | classLike declaration => exact declaration.text_withoutSpans

theorem Declaration.hasCompanion_withoutSpans (declaration : Declaration) :
    declaration.withoutSpans.hasCompanion = declaration.hasCompanion := by
  cases declaration with
  | enumeration => rfl
  | classLike declaration => exact Option.isSome_map

end ExternBindings
