/-
**The spans of what a type declares.**

What is declared inside of a type stands in one list, in the order of the text, and goes from there
into the lists of its fields, properties, events and methods and of the types inside of it.

* `TypeTree.spanLists` — the spans in these lists, without those of accessors;
* `spanLists_eq` — each of them goes through what is declared and takes the spans of one kind;
* `sublist_spanLists`, `perm_spanLists` — so each is in the order of the text, and together they
  have the span of everything that is declared.
-/

import ExternBindings.Proofs.Listing.AccessorSlots
import Mathlib.Data.List.Flatten
import Mathlib.Data.List.Perm.Basic

namespace ExternBindings

/-- The spans of what a type declares, kind by kind: its fields, properties and events, its methods
other than accessors, with its constructors among them, and the types inside of it. -/
def TypeTree.spanLists (tree : TypeTree) : List (List Span) :=
  [tree.decl.fields.map Field.span, tree.decl.properties.map Property.span,
    tree.decl.events.map Event.span,
    (tree.decl.methods.filter fun method => !method.isAccessor).map Method.span,
    tree.inner.map fun inner => inner.decl.span]

namespace Listing

/-- The span of a type. -/
def TypeNode.span : TypeNode → Span
  | .node header _ => header.span

/-- The span of something that is declared inside of a type. -/
def partSpan : TypeNode ⊕ MemberNode → Span :=
  Sum.elim TypeNode.span MemberNode.span

theorem decl_span_tree (place : String → QualifiedName) (node : TypeNode) :
    (node.tree place).decl.span = node.span := by
  cases node
  rfl

/-! ### Members of each kind -/

/-- The kinds of members that are not types. Constructors are methods. -/
inductive MemberKind where
  | field
  | property
  | event
  | method
  deriving DecidableEq

/-- The kind of a member. -/
def MemberBody.kind : MemberBody → MemberKind
  | field .. => .field
  | property .. => .property
  | event .. => .event
  | constructor .. | method .. => .method

/-- The span of a member, if it is one of the kind. -/
def memberSpan (kind : MemberKind) (member : MemberNode) : List Span :=
  if member.body.kind = kind then [member.span] else []

/-- What each of the lists of spans has of a part of a type. -/
def spanChoices : List (TypeNode ⊕ MemberNode → List Span) :=
  [Sum.elim (fun _ => []) (memberSpan .field), Sum.elim (fun _ => []) (memberSpan .property),
    Sum.elim (fun _ => []) (memberSpan .event), Sum.elim (fun _ => []) (memberSpan .method),
    Sum.elim (fun node => [node.span]) fun _ => []]

/-- A part has its span in one of the lists. -/
theorem flatMap_spanChoices (part : TypeNode ⊕ MemberNode) :
    spanChoices.flatMap (fun choose => choose part) = [partSpan part] := by
  rcases part with node | ⟨modifiers, body, span⟩
  · rfl
  · cases body <;> rfl

theorem flatMap_getRight? {β : Type} (noted : MemberNode → List β)
    (content : List (TypeNode ⊕ MemberNode)) :
    (content.filterMap Sum.getRight?).flatMap noted =
      content.flatMap (Sum.elim (fun _ => []) noted) := by
  induction content with
  | nil => rfl
  | cons part rest hypothesis =>
    cases part with
    | inl node => exact hypothesis
    | inr member =>
      show noted member ++ (rest.filterMap Sum.getRight?).flatMap noted = _
      rw [hypothesis, List.flatMap_cons]
      rfl

theorem map_collectFrom {α β : Type} {choose : Nat → MemberNode → Option α} {value : α → β}
    {noted : MemberNode → List β}
    (same : ∀ offset member, (choose offset member).toList.map value = noted member) :
    ∀ (offset : Nat) (members : List MemberNode),
      (collectFrom choose offset members).map value = members.flatMap noted
  | _, [] => rfl
  | offset, member :: rest => by
    rw [collectFrom, List.map_append, same, map_collectFrom same, List.flatMap_cons]

section Decl

variable (header : TypeHeader) (name : QualifiedName) (members : List MemberNode)

theorem map_fields : (header.decl name members).fields.map Field.span =
    members.flatMap (memberSpan .field) := by
  show (members.filterMap MemberNode.field?).map Field.span = _
  rw [List.filterMap_eq_flatMap_toList, List.map_flatMap]
  refine congrArg (List.flatMap · members) (funext fun ⟨modifiers, body, span⟩ => ?_)
  cases body <;> rfl

theorem map_properties : (header.decl name members).properties.map Property.span =
    members.flatMap (memberSpan .property) :=
  map_collectFrom (fun offset ⟨modifiers, body, span⟩ => by cases body <;> rfl) 0 members

theorem map_events : (header.decl name members).events.map Event.span =
    members.flatMap (memberSpan .event) :=
  map_collectFrom (fun offset ⟨modifiers, body, span⟩ => by cases body <;> rfl) 0 members

theorem filter_accessorMethods {owner : AccessorOwner} {member : MemberNode} {name : String}
    {type : TypeReference} {input : List Parameter} {accessors : List AccessorNode} :
    (accessorMethods owner member name type input accessors).filter
      (fun method => !method.isAccessor) = [] := by
  refine List.filter_eq_nil_iff.mpr fun method declared => ?_
  obtain ⟨_, kind, -, rfl⟩ := exists_of_mem_accessorMethods declared
  exact Bool.false_ne_true

/-- Of the methods of a member, those that are no accessors have its span. -/
theorem map_methods :
    ((header.decl name members).methods.filter fun method => !method.isAccessor).map Method.span =
      members.flatMap (memberSpan .method) := by
  show ((members.flatMap MemberNode.methods).filter _).map Method.span = _
  rw [List.filter_flatMap, List.map_flatMap]
  refine congrArg (List.flatMap · members) (funext fun ⟨modifiers, body, span⟩ => ?_)
  cases body with
  | field => rfl
  | property => exact congrArg (List.map Method.span) filter_accessorMethods
  | event => exact congrArg (List.map Method.span) filter_accessorMethods
  | constructor => rfl
  | method =>
    unfold MemberNode.methods Method.isAccessor
    simp only
    split <;> rfl

end Decl

theorem map_treesIn (place : String → QualifiedName) (content : List (TypeNode ⊕ MemberNode)) :
    (treesIn place content).map (fun tree => tree.decl.span) =
      content.flatMap (Sum.elim (fun node => [node.span]) fun _ => []) := by
  induction content with
  | nil => rfl
  | cons part rest hypothesis =>
    cases part with
    | inl node =>
      rw [treesIn, List.map_cons, decl_span_tree, hypothesis, List.flatMap_cons]
      rfl
    | inr member => exact hypothesis

/-! ### Types -/

section Tree

variable (place : String → QualifiedName) (header : TypeHeader)
  (content : List (TypeNode ⊕ MemberNode))

/-- **The lists of spans are those of the parts of a type**, each chosen by the kind of the part. -/
theorem spanLists_eq : ((TypeNode.node header content).tree place).spanLists =
    spanChoices.map fun choose => content.flatMap choose := by
  unfold TypeTree.spanLists
  rw [TypeNode.tree, TypeTree.decl, TypeTree.inner, map_fields, map_properties, map_events,
    map_methods, map_treesIn]
  simp only [flatMap_getRight?]
  rfl

/-- The spans of each kind are in the order of the text. -/
theorem sublist_spanLists {spans : List Span}
    (member : spans ∈ ((TypeNode.node header content).tree place).spanLists) :
    spans.Sublist (content.map partSpan) := by
  rw [spanLists_eq] at member
  obtain ⟨choose, isChoice, rfl⟩ := List.mem_map.mp member
  rw [List.map_eq_flatMap]
  refine List.Sublist.flatMap_right content fun part _ => ?_
  rw [← flatMap_spanChoices part]
  exact List.sublist_flatten_of_mem (List.mem_map_of_mem isChoice)

/-- Two lists may be gone through in either order. -/
theorem perm_flatMap_flatMap {α β γ : Type} (first : List α) (second : List β)
    (noted : α → β → List γ) :
    (first.flatMap fun one => second.flatMap (noted one)).Perm
      (second.flatMap fun other => first.flatMap fun one => noted one other) := by
  induction first with
  | nil => simp
  | cons one first hypothesis =>
    simp only [List.flatMap_cons]
    exact (hypothesis.append_left _).trans (List.flatMap_append_perm second _ _)

/-- **Every part has its span in one of the lists**, once. -/
theorem perm_spanLists : (content.map partSpan).Perm
    ((TypeNode.node header content).tree place).spanLists.flatten := by
  rw [spanLists_eq, List.map_eq_flatMap, ← List.flatMap_def]
  simp only [← flatMap_spanChoices]
  exact (perm_flatMap_flatMap spanChoices content fun choose part => choose part).symm

end Tree

end Listing

end ExternBindings
