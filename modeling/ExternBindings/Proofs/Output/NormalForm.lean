/-
**The normal form of a function group.**

Whatever forms were drafted for a name, their group has every signature in one place. It does not
change when its own forms are drafted once more.

* `FunctionForm.Precedes` — the order of forms where none is ancestral. It is the strict part of the
  one that forms are sorted by (`FunctionForm.precedes_of_mayPrecede`);
* `pairwise_inOrder`, `inOrder_eq_self` — what it is for forms to be in order, and that nothing moves
  among forms that are;
* `nodup_distinctOverloads`, `distinctOverloads_eq_self` — the same for overloads that say something
  new;
* `FunctionGroup.isNormalFormOf_ofDraft` — **a group is the normal form of the draft**
  (`FunctionGroup.IsNormalFormOf`).
-/

import Mathlib.Data.List.Sort
import ExternBindings.Proofs.Output.FunctionForms

namespace ExternBindings

/-! ### Sorting -/

theorem insertBy_eq_orderedInsert {α : Type} (mayPrecede : α → α → Bool) (item : α)
    (items : List α) :
    insertBy mayPrecede item items =
      items.orderedInsert (fun first second => mayPrecede first second = true) item := by
  induction items with
  | nil => rfl
  | cons head tail hypothesis => rw [insertBy, List.orderedInsert_cons, hypothesis]

theorem sortBy_eq_insertionSort {α : Type} (mayPrecede : α → α → Bool) (items : List α) :
    sortBy mayPrecede items =
      items.insertionSort fun first second => mayPrecede first second = true := by
  induction items with
  | nil => rfl
  | cons head tail hypothesis =>
    rw [List.insertionSort_cons, ← hypothesis, ← insertBy_eq_orderedInsert]
    rfl

theorem sortBy_eq_self {α : Type} {mayPrecede : α → α → Bool} {items : List α}
    (sorted : items.Pairwise fun first second => mayPrecede first second = true) :
    sortBy mayPrecede items = items := by
  rw [sortBy_eq_insertionSort]
  exact sorted.insertionSort_eq

/-! ### The order of forms -/

section Order

variable {first second third : FunctionForm}

/-- The form has more parameters than the other one, or as many and a text that comes first. -/
def FunctionForm.Precedes (first second : FunctionForm) : Prop :=
  second.arity < first.arity ∨ first.arity = second.arity ∧ first.text < second.text

theorem FunctionForm.mayPrecede_iff :
    first.mayPrecede second = true ↔
      second.arity < first.arity ∨ first.arity = second.arity ∧ first.text ≤ second.text := by
  unfold FunctionForm.mayPrecede
  simp only [Bool.or_eq_true, Bool.and_eq_true, decide_eq_true_eq]

/-- Forms with different texts may stand in one order only. -/
theorem FunctionForm.precedes_of_mayPrecede (may : first.mayPrecede second = true)
    (differs : first.text ≠ second.text) : first.Precedes second := by
  rcases mayPrecede_iff.mp may with more | ⟨same, weak⟩
  · exact Or.inl more
  · exact Or.inr ⟨same, String.not_le.mp fun back => differs (String.le_antisymm weak back)⟩

theorem FunctionForm.mayPrecede_total (first second : FunctionForm) :
    first.mayPrecede second = true ∨ second.mayPrecede first = true := by
  rw [mayPrecede_iff, mayPrecede_iff]
  rcases Nat.lt_trichotomy first.arity second.arity with fewer | same | more
  · exact Or.inr (Or.inl fewer)
  · rcases String.le_total first.text second.text with weak | weak
    · exact Or.inl (Or.inr ⟨same, weak⟩)
    · exact Or.inr (Or.inr ⟨same.symm, weak⟩)
  · exact Or.inl (Or.inl more)

theorem FunctionForm.mayPrecede_trans (may : first.mayPrecede second = true)
    (mayToo : second.mayPrecede third = true) : first.mayPrecede third = true := by
  rw [mayPrecede_iff] at may mayToo ⊢
  rcases may with more | ⟨same, weak⟩
  · rcases mayToo with moreToo | ⟨sameToo, -⟩
    · exact Or.inl (moreToo.trans more)
    · exact Or.inl (sameToo ▸ more)
  · rcases mayToo with moreToo | ⟨sameToo, weakToo⟩
    · exact Or.inl (same ▸ moreToo)
    · exact Or.inr ⟨same.trans sameToo, String.le_trans weak weakToo⟩

theorem pairwise_sortBy (forms : List FunctionForm) :
    (sortBy FunctionForm.mayPrecede forms).Pairwise fun first second =>
      first.mayPrecede second = true := by
  have total : Std.Total fun first second : FunctionForm => first.mayPrecede second = true :=
    ⟨FunctionForm.mayPrecede_total⟩
  have transitive : IsTrans FunctionForm fun first second => first.mayPrecede second = true :=
    ⟨fun _ _ _ => FunctionForm.mayPrecede_trans⟩
  rw [sortBy_eq_insertionSort]
  exact List.pairwise_insertionSort _ forms

/-- The first form may stand in front of the second one where some forms are ancestral. -/
def FunctionForm.LeavesFirst (first second : FunctionForm) : Prop :=
  second.isAncestral = true → first.isAncestral = true

end Order

/-- Ancestral forms that stand in front are what two filters give. -/
theorem filter_append_filter_not {forms : List FunctionForm}
    (ahead : forms.Pairwise FunctionForm.LeavesFirst) :
    forms.filter FunctionForm.isAncestral ++ (forms.filter fun form => !form.isAncestral) =
      forms := by
  induction forms with
  | nil => rfl
  | cons head tail hypothesis =>
    obtain ⟨leaves, ahead⟩ := List.pairwise_cons.mp ahead
    cases ancestral : head.isAncestral with
    | true => simp [ancestral, hypothesis ahead]
    | false =>
      have own : ∀ form ∈ tail, form.isAncestral = false := fun form member => by
        rw [← Bool.not_eq_true]
        intro formAncestral
        rw [leaves form member formAncestral] at ancestral
        cases ancestral
      have none : tail.filter FunctionForm.isAncestral = [] :=
        List.filter_eq_nil_iff.mpr fun form member => by simp [own form member]
      have all : (tail.filter fun form => !form.isAncestral) = tail :=
        List.filter_eq_self.mpr fun form member => by simp [own form member]
      simp [ancestral, none, all]

/-- **Putting forms in order** puts ancestral ones in front and sorts where there is none. -/
theorem pairwise_inOrder (forms : List FunctionForm) :
    ((∃ form ∈ forms, form.isAncestral = true) →
      (inOrder forms).Pairwise FunctionForm.LeavesFirst) ∧
    ((∀ form ∈ forms, form.isAncestral = false) →
      (inOrder forms).Pairwise fun first second => first.mayPrecede second = true) := by
  unfold inOrder
  constructor
  · intro ancestral
    rw [if_pos (List.any_eq_true.mpr ancestral)]
    refine List.pairwise_append.mpr ⟨?_, ?_, fun first member _ _ _ => ?_⟩
    · exact List.pairwise_of_forall_mem_list fun first member _ _ _ => (List.mem_filter.mp member).2
    · refine List.pairwise_of_forall_mem_list fun _ _ second member isAncestral => ?_
      simp [isAncestral] at member
    · exact (List.mem_filter.mp member).2
  · intro own
    rw [if_neg]
    · exact pairwise_sortBy forms
    · simpa using own

/-- Beside an ancestral form, neither ancestral forms nor the others change places among
themselves. -/
theorem filter_inOrder {forms : List FunctionForm}
    (ancestral : ∃ form ∈ forms, form.isAncestral = true) :
    (inOrder forms).filter FunctionForm.isAncestral = forms.filter FunctionForm.isAncestral ∧
      ((inOrder forms).filter fun form => !form.isAncestral) =
        forms.filter fun form => !form.isAncestral := by
  unfold inOrder
  rw [if_pos (List.any_eq_true.mpr ancestral), List.filter_append, List.filter_append]
  simp only [List.filter_filter, Bool.and_self, Bool.and_not_self, Bool.not_and_self,
    List.filter_false, List.append_nil, List.nil_append, and_self]

/-- **Forms that are in order are left where they are.** -/
theorem inOrder_eq_self {forms : List FunctionForm}
    (ahead : (∃ form ∈ forms, form.isAncestral = true) →
      forms.Pairwise FunctionForm.LeavesFirst)
    (sorted : (∀ form ∈ forms, form.isAncestral = false) →
      forms.Pairwise fun first second => first.mayPrecede second = true) :
    inOrder forms = forms := by
  unfold inOrder
  by_cases ancestral : ∃ form ∈ forms, form.isAncestral = true
  · rw [if_pos (List.any_eq_true.mpr ancestral)]
    exact filter_append_filter_not (ahead ancestral)
  · have own : ∀ form ∈ forms, form.isAncestral = false := by simpa using ancestral
    rw [if_neg fun any => ancestral (List.any_eq_true.mp any)]
    exact sortBy_eq_self (sorted own)

/-! ### Overloads that say something new -/

section Overloads

variable {principal : String} {seen : List String} {forms : List FunctionForm}
  {form : FunctionForm}

/-- What is kept of the overloads was not seen before, and is new beside the principal form unless it
is ancestral. -/
theorem of_mem_distinctOverloads (member : form ∈ distinctOverloads principal seen forms) :
    (form.isAncestral = true ∨ form.text ≠ principal) ∧ form.text ∉ seen := by
  induction forms generalizing seen with
  | nil => cases member
  | cons head rest hypothesis =>
    rw [distinctOverloads] at member
    split at member
    · next keeps =>
      rcases List.mem_cons.mp member with rfl | member
      · simpa using keeps
      · obtain ⟨isNew, fresh⟩ := hypothesis member
        exact ⟨isNew, fun before => fresh (List.mem_cons_of_mem _ before)⟩
    · exact hypothesis member

/-- **Each signature is kept once.** -/
theorem nodup_distinctOverloads (principal : String) (seen : List String)
    (forms : List FunctionForm) :
    ((distinctOverloads principal seen forms).map FunctionForm.text).Nodup := by
  induction forms generalizing seen with
  | nil => exact List.nodup_nil
  | cons head rest hypothesis =>
    rw [distinctOverloads]
    split
    · refine List.nodup_cons.mpr ⟨fun again => ?_, hypothesis _⟩
      obtain ⟨other, member, same⟩ := List.mem_map.mp again
      exact (of_mem_distinctOverloads member).2 (same ▸ List.mem_cons_self)
    · exact hypothesis _

/-- Overloads that all say something new are all kept. -/
theorem distinctOverloads_eq_self
    (isNew : ∀ form ∈ forms, form.isAncestral = true ∨ form.text ≠ principal)
    (fresh : ∀ form ∈ forms, form.text ∉ seen)
    (distinct : (forms.map FunctionForm.text).Nodup) :
    distinctOverloads principal seen forms = forms := by
  induction forms generalizing seen with
  | nil => rfl
  | cons head rest hypothesis =>
    rw [List.forall_mem_cons] at isNew fresh
    rw [List.map_cons, List.nodup_cons] at distinct
    have keeps :
        ((head.isAncestral || head.text ≠ principal) && !seen.contains head.text) = true := by
      simpa using ⟨isNew.1, fresh.1⟩
    rw [distinctOverloads, if_pos keeps, hypothesis isNew.2 (fun form member => ?_) distinct.2]
    intro before
    rcases List.mem_cons.mp before with same | before
    · exact distinct.1 (List.mem_map.mpr ⟨form, member, same⟩)
    · exact fresh.2 form member before

/-- What is kept of some overloads is kept of more of them. -/
theorem prefix_distinctOverloads (principal : String) (seen : List String)
    (first second : List FunctionForm) :
    distinctOverloads principal seen first <+: distinctOverloads principal seen (first ++ second) := by
  induction first generalizing seen with
  | nil => exact List.nil_prefix
  | cons head rest hypothesis =>
    rw [List.cons_append, distinctOverloads, distinctOverloads]
    split
    · exact List.prefix_cons_inj head |>.mpr (hypothesis _)
    · exact hypothesis _

end Overloads

/-! ### The normal form -/

section Group

variable {name : String} {forms front : List FunctionForm} {form principal : FunctionForm}

theorem principal?_ofDraft (ordered : inOrder forms = front ++ [principal]) :
    (FunctionGroup.ofDraft name forms).principal? = some principal := by
  rw [ofDraft_eq ordered]
  exact List.getLast?_concat

theorem overloads_ofDraft (ordered : inOrder forms = front ++ [principal]) :
    (FunctionGroup.ofDraft name forms).overloads = distinctOverloads principal.text [] front := by
  rw [ofDraft_eq ordered]
  exact List.dropLast_concat

/-- **An ancestral signature stays an ancestral one.** Ancestral forms stand in front, so that no
other form with the same text is kept in the place of one. -/
theorem exists_isAncestral_mem_ofDraft (name : String) (member : form ∈ forms)
    (isAncestral : form.isAncestral = true) :
    ∃ kept ∈ (FunctionGroup.ofDraft name forms).forms,
      kept.isAncestral = true ∧ kept.text = form.text := by
  obtain ⟨front, principal, ordered⟩ := exists_inOrder_eq_concat (List.ne_nil_of_mem member)
  have ahead := (pairwise_inOrder forms).1 ⟨form, member, isAncestral⟩
  rw [ordered] at ahead
  rw [← mem_inOrder, ordered] at member
  rw [ofDraft_eq ordered]
  rcases List.mem_append.mp member with overload | same
  · have inFront : form ∈ front.filter FunctionForm.isAncestral :=
      List.mem_filter.mpr ⟨overload, isAncestral⟩
    rcases exists_mem_distinctOverloads principal.text [] inFront with
      ⟨own, -⟩ | before | ⟨kept, keptMember, same⟩
    · rw [own] at isAncestral
      cases isAncestral
    · cases before
    · -- the ancestral overloads come first, so what is kept of them is kept of all
      have keptToo := (prefix_distinctOverloads principal.text [] _
        (front.filter fun form => !form.isAncestral)).subset keptMember
      rw [filter_append_filter_not (List.pairwise_append.mp ahead).1] at keptToo
      refine ⟨kept, List.mem_append_left _ keptToo, ?_, same⟩
      exact (List.mem_filter.mp (distinctOverloads_sublist.subset keptMember)).2
  · obtain rfl := List.mem_singleton.mp same
    exact ⟨form, List.mem_append_right _ same, isAncestral, rfl⟩

/-- Where no form is ancestral, the forms of a group have different texts. -/
theorem nodup_texts_ofDraft (name : String)
    (own : ∀ form ∈ forms, form.isAncestral = false) :
    ((FunctionGroup.ofDraft name forms).forms.map FunctionForm.text).Nodup := by
  cases forms with
  | nil => exact List.nodup_nil
  | cons head tail =>
    obtain ⟨front, principal, ordered⟩ := exists_inOrder_eq_concat (List.cons_ne_nil head tail)
    rw [ofDraft_eq ordered, List.map_append, List.map_singleton]
    refine List.nodup_append.mpr
      ⟨nodup_distinctOverloads _ _ _, List.nodup_singleton _, fun text member other same => ?_⟩
    obtain ⟨form, formMember, rfl⟩ := List.mem_map.mp member
    have drafted : form ∈ inOrder (head :: tail) := by
      rw [ordered]
      exact List.mem_append_left _ (distinctOverloads_sublist.subset formMember)
    rw [List.mem_singleton.mp same]
    rcases (of_mem_distinctOverloads formMember).1 with ancestral | differs
    · rw [own form (mem_inOrder.mp drafted)] at ancestral
      cases ancestral
    · exact differs

/-- The forms of a group are in order already. -/
theorem inOrder_forms_ofDraft (name : String) (forms : List FunctionForm) :
    inOrder (FunctionGroup.ofDraft name forms).forms = (FunctionGroup.ofDraft name forms).forms := by
  obtain ⟨ahead, sorted⟩ := pairwise_inOrder forms
  refine inOrder_eq_self ?_ ?_
  · rintro ⟨form, member, isAncestral⟩
    exact (ahead ⟨form, mem_of_mem_ofDraft member, isAncestral⟩).sublist
      (forms_ofDraft_sublist name forms)
  · intro own
    refine (sorted fun form member => ?_).sublist (forms_ofDraft_sublist name forms)
    rw [← Bool.not_eq_true]
    intro isAncestral
    obtain ⟨kept, keptMember, keptAncestral, -⟩ :=
      exists_isAncestral_mem_ofDraft name member isAncestral
    rw [own kept keptMember] at keptAncestral
    cases keptAncestral

/-- **A group has the signatures of its draft.** -/
theorem mem_texts_ofDraft (name : String) {text : String} :
    text ∈ (FunctionGroup.ofDraft name forms).forms.map FunctionForm.text ↔
      text ∈ forms.map FunctionForm.text := by
  simp only [List.mem_map]
  constructor
  · rintro ⟨form, member, rfl⟩
    exact ⟨form, mem_of_mem_ofDraft member, rfl⟩
  · rintro ⟨form, member, rfl⟩
    exact exists_mem_ofDraft name member

/-- Where no form is ancestral, the forms of a group stand in their strict order. -/
theorem pairwise_precedes_ofDraft (name : String)
    (own : ∀ form ∈ forms, form.isAncestral = false) :
    (FunctionGroup.ofDraft name forms).forms.Pairwise FunctionForm.Precedes := by
  have sorted := ((pairwise_inOrder forms).2 own).sublist (forms_ofDraft_sublist name forms)
  have differ := List.pairwise_map.mp (nodup_texts_ofDraft name own)
  exact (sorted.and differ).imp fun both => FunctionForm.precedes_of_mayPrecede both.1 both.2

/-- The ancestral forms of a group stand in front, and neither they nor the others change places
among themselves. -/
theorem ancestral_ahead_ofDraft (name : String)
    (ancestral : ∃ form ∈ forms, form.isAncestral = true) :
    (FunctionGroup.ofDraft name forms).forms =
        (FunctionGroup.ofDraft name forms).forms.filter FunctionForm.isAncestral ++
          ((FunctionGroup.ofDraft name forms).forms.filter fun form => !form.isAncestral) ∧
      ((FunctionGroup.ofDraft name forms).forms.filter FunctionForm.isAncestral).Sublist forms ∧
      ((FunctionGroup.ofDraft name forms).forms.filter fun form => !form.isAncestral).Sublist
        forms := by
  have within := forms_ofDraft_sublist name forms
  have ahead := ((pairwise_inOrder forms).1 ancestral).sublist within
  obtain ⟨ancestralKept, ownKept⟩ := filter_inOrder ancestral
  refine ⟨(filter_append_filter_not ahead).symm, ?_, ?_⟩
  · have kept := within.filter FunctionForm.isAncestral
    rw [ancestralKept] at kept
    exact kept.trans List.filter_sublist
  · have kept := within.filter fun form => !form.isAncestral
    rw [ownKept] at kept
    exact kept.trans List.filter_sublist

/-- **A group does not change when its forms are drafted once more.** -/
theorem ofDraft_forms_ofDraft (name : String) (ordered : inOrder forms = front ++ [principal]) :
    FunctionGroup.ofDraft name (FunctionGroup.ofDraft name forms).forms =
      FunctionGroup.ofDraft name forms := by
  have again := inOrder_forms_ofDraft name forms
  have written : (FunctionGroup.ofDraft name forms).forms =
      distinctOverloads principal.text [] front ++ [principal] := by rw [ofDraft_eq ordered]
  rw [written] at again ⊢
  rw [ofDraft_eq again, ofDraft_eq ordered, distinctOverloads_eq_self]
  · exact fun form member => (of_mem_distinctOverloads member).1
  · exact fun form member => List.not_mem_nil
  · exact nodup_distinctOverloads _ _ _

namespace FunctionGroup

/-- The group has the signatures of the drafted forms, each in its place. -/
structure IsNormalFormOf (group : FunctionGroup) (forms : List FunctionForm) : Prop where
  /-- every form of the group is a drafted one -/
  drafted : group.forms ⊆ forms
  /-- the group has the signatures of the draft and no others -/
  texts : ∀ text, text ∈ group.forms.map FunctionForm.text ↔ text ∈ forms.map FunctionForm.text
  /-- no two overloads have the same signature -/
  distinct : (group.overloads.map FunctionForm.text).Nodup
  /-- there is a principal form, and only ancestral overloads may have its signature -/
  principal : ∃ principal, group.principal? = some principal ∧
    ∀ form ∈ group.overloads, form.isAncestral = false → form.text ≠ principal.text
  /-- without an ancestral form, those with more parameters stand in front, then those whose text
  comes first -/
  sorted : (∀ form ∈ forms, form.isAncestral = false) →
    group.forms.Pairwise FunctionForm.Precedes
  /-- ancestral forms stand in front, and both they and the others keep the order of the draft -/
  ahead : (∃ form ∈ forms, form.isAncestral = true) →
    group.forms = group.forms.filter FunctionForm.isAncestral ++
        (group.forms.filter fun form => !form.isAncestral) ∧
      (group.forms.filter FunctionForm.isAncestral).Sublist forms ∧
      (group.forms.filter fun form => !form.isAncestral).Sublist forms
  /-- drafted once more, the forms of the group give the same group -/
  settled : FunctionGroup.ofDraft group.name group.forms = group

/-- **A group is the normal form of its draft.** -/
theorem isNormalFormOf_ofDraft (name : String) (present : forms ≠ []) :
    (ofDraft name forms).IsNormalFormOf forms := by
  obtain ⟨front, principal, ordered⟩ := exists_inOrder_eq_concat present
  constructor
  · exact fun form member => mem_of_mem_ofDraft member
  · exact fun text => mem_texts_ofDraft name
  · rw [overloads_ofDraft ordered]
    exact nodup_distinctOverloads _ _ _
  · refine ⟨principal, principal?_ofDraft ordered, fun form member own => ?_⟩
    rw [overloads_ofDraft ordered] at member
    exact (of_mem_distinctOverloads member).1.resolve_left (by rw [own]; exact Bool.false_ne_true)
  · exact pairwise_precedes_ofDraft name
  · exact ancestral_ahead_ofDraft name
  · rw [name_ofDraft]
    exact ofDraft_forms_ofDraft name ordered

/-! ### A draft of both kinds -/

/-- A form of a function with parameters of these names. -/
def formWith (parameters : List String) (isAncestral : Bool) : FunctionForm :=
  { attributes := { isPublic := true, isStatic := false, isOverride := isAncestral }
    signature :=
      { parameters := parameters.map fun name => (name, .named "Int"), returns := .named "Void" }
    source := { name := "M", parameters := parameters.map fun name => { name, type := .primitive .int32 } }
    isAncestral }

/-- Forms that are drafted more than once, some of them for an ancestor. -/
def mixedForms : List FunctionForm :=
  [formWith ["x"] false, formWith [] true, formWith [] false, formWith [] true,
    formWith ["x"] false, formWith [] false]

/-- An ancestral form may have the signature of the principal one. -/
theorem isNormalFormOf_ofDraft_mixed :
    mixedForms ≠ [] ∧ (ofDraft "M" mixedForms).IsNormalFormOf mixedForms :=
  ⟨List.cons_ne_nil _ _, isNormalFormOf_ofDraft "M" (List.cons_ne_nil _ _)⟩

example : (ofDraft "M" mixedForms).forms.map (fun form => (form.isAncestral, form.text)) =
    [(true, "() : Void"), (false, "(x:Int) : Void"), (false, "() : Void")] := by
  decide +kernel

end FunctionGroup

end Group

end ExternBindings
