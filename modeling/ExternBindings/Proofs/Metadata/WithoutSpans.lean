/-
**Declarations apart from where they stand.**

Every declaration keeps the stretch of text that it was read from. Two declarations say the same
when they are equal once these stretches are put aside.

* `TypeDecl.withoutSpans`, `TypeTree.withoutSpans`, `Assembly.withoutSpans` — the declarations with
  every stretch at the start of the text;
* `forall₂_image_iff` — lists say the same if their members do, each to each.
-/

import ExternBindings.Metadata.Assembly
import Mathlib.Data.List.Forall2

namespace ExternBindings

/-- Two lists have the same images exactly if their members have, each to each. -/
theorem forall₂_image_iff {α β : Type} {image : α → β} {items others : List α} :
    List.Forall₂ (InvImage Eq image) items others ↔ items.map image = others.map image := by
  rw [← List.forall₂_eq_eq_eq, List.forall₂_map_left_iff, List.forall₂_map_right_iff]
  rfl

/-- Whatever only looks at the images finds the same in both. -/
theorem image_congr {α β γ : Type} {image : α → β} {item other : α}
    (same : InvImage Eq image item other) (look : β → γ) : look (image item) = look (image other) :=
  congrArg look same

/-- The field with its stretch of text put aside. -/
def Field.withoutSpan (field : Field) : Field :=
  { field with span := ⟨0, 0⟩ }

/-- The property with its stretch of text put aside. -/
def Property.withoutSpan (property : Property) : Property :=
  { property with span := ⟨0, 0⟩ }

/-- The event with its stretch of text put aside. -/
def Event.withoutSpan (event : Event) : Event :=
  { event with span := ⟨0, 0⟩ }

/-- The method with its stretch of text put aside. -/
def Method.withoutSpan (method : Method) : Method :=
  { method with span := ⟨0, 0⟩ }

/-- The type and its members with their stretches of text put aside. -/
def TypeDecl.withoutSpans (decl : TypeDecl) : TypeDecl :=
  { decl with
    fields := decl.fields.map Field.withoutSpan
    properties := decl.properties.map Property.withoutSpan
    events := decl.events.map Event.withoutSpan
    methods := decl.methods.map Method.withoutSpan
    span := ⟨0, 0⟩ }

mutual

/-- The tree with all stretches of text put aside. -/
def TypeTree.withoutSpans : TypeTree → TypeTree
  | .node decl inner => .node decl.withoutSpans (withoutSpansIn inner)

/-- The same of several trees. -/
def withoutSpansIn : List TypeTree → List TypeTree
  | [] => []
  | tree :: rest => tree.withoutSpans :: withoutSpansIn rest

end

theorem withoutSpansIn_eq (trees : List TypeTree) :
    withoutSpansIn trees = trees.map TypeTree.withoutSpans := by
  induction trees with
  | nil => rfl
  | cons tree rest hypothesis => rw [withoutSpansIn, hypothesis, List.map_cons]

/-- The assembly with all stretches of text put aside. -/
def Assembly.withoutSpans (assembly : Assembly) : Assembly :=
  { assembly with types := assembly.types.map TypeTree.withoutSpans }

end ExternBindings
