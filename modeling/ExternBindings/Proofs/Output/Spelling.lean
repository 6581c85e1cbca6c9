/-
**How a reference is spelled does not matter.**

A reference may name a primitive type in full, or an array without dimensions. Reading its written
form gives the normal form, which says the same everywhere.

* `Catalog.typeExpr_normalized` — by induction on the reference: its normal form turns into the same
  expression at every site, since a name and the primitive type that it stands for do
  (`Primitive.qualifiedName_of_ofName?`);
* `World.target?_normalized`, `World.flatNameOf?_normalized` — the normal form names the same declared
  type;
* `written_references_say_the_same` — so a reference may be written and read before it is used.
-/

import ExternBindings.Output.Catalog
import ExternBindings.Proofs.Listing.RoundTrip

namespace ExternBindings

/-! ### Names of primitive types -/

theorem Primitive.qualifiedName_of_ofName? {name : QualifiedName} {kind : Primitive}
    (found : Primitive.ofName? name = some kind) : kind.qualifiedName = name := by
  have accepted := List.find?_some found
  rwa [decide_eq_true_eq] at accepted

/-- The reference that a name makes names it. -/
theorem TypeReference.qualifiedName?_ofName (name : QualifiedName) :
    (ofName name).qualifiedName? = some name := by
  unfold ofName
  split
  · next kind found => rw [qualifiedName?, Primitive.qualifiedName_of_ofName? found]
  · rfl

theorem TypeReference.qualifiedName?_normalized {reference : TypeReference}
    (named : reference.IsWellNamed) :
    reference.normalized.qualifiedName? = reference.qualifiedName? := by
  cases reference with
  | named name => rw [normalized_named named, qualifiedName?_ofName, qualifiedName?]
  | _ => rfl

/-! ### Expressions -/

namespace Catalog

variable {catalog : Catalog} {site : Site}

theorem erases_normalized (site : Site) (reference : TypeReference) :
    site.erases reference.normalized = site.erases reference := by
  cases reference with
  | named name =>
    rw [TypeReference.normalized]
    split
    · rfl
    · split <;> rfl
  | _ => rfl

theorem typeExpr_ofName (precision : Precision) (name : QualifiedName) :
    catalog.typeExpr site precision (.ofName name) =
      catalog.typeExpr site precision (.named name) := by
  unfold TypeReference.ofName
  split
  · next kind found => rw [typeExpr, typeExpr, Primitive.qualifiedName_of_ofName? found]
  · rfl

theorem arrayHead_normalized (rank : Rank) :
    arrayHead (if rank = 0 then 1 else rank) = arrayHead rank := by
  split
  · next absent => rw [absent]; rfl
  · rfl

mutual

/-- **A reference turns into the same expression as its normal form.** -/
theorem typeExpr_normalized : ∀ (precision : Precision) (reference : TypeReference),
    reference.IsWellNamed →
      catalog.typeExpr site precision reference.normalized =
        catalog.typeExpr site precision reference
  | _, .primitive _, _ => rfl
  | _, .parameter .., _ => rfl
  | precision, .named name, named => by
    rw [TypeReference.normalized_named named, typeExpr_ofName]
  | precision, .indirect kind element, named => by
    rw [TypeReference.normalized, typeExpr, typeExpr, typeExpr_normalized precision element named]
  | precision, .array element rank, named => by
    rw [TypeReference.normalized, typeExpr, typeExpr, erases_normalized, arrayHead_normalized,
      typeExpr_normalized .exact element named]
  | precision, .instantiation definition arguments, named => by
    have sameErased : (TypeReference.normalizedAll arguments).any site.erases =
        arguments.any site.erases := by
      rw [TypeReference.normalizedAll_eq_map, List.any_map]
      exact congrArg arguments.any (funext fun argument => erases_normalized site argument)
    have sameLength : (TypeReference.normalizedAll arguments).length = arguments.length := by
      rw [TypeReference.normalizedAll_eq_map, List.length_map]
    rw [TypeReference.normalized, typeExpr, typeExpr, sameErased, sameLength,
      argumentExprs_normalized arguments named.2.2]

theorem argumentExprs_normalized : ∀ references : List TypeReference,
    TypeReference.AreWellNamed references →
      catalog.argumentExprs site (TypeReference.normalizedAll references) =
        catalog.argumentExprs site references
  | [], _ => rfl
  | head :: tail, named => by
    rw [TypeReference.normalizedAll, argumentExprs, argumentExprs,
      typeExpr_normalized .exact head named.1, argumentExprs_normalized tail named.2]

end

end Catalog

/-! ### Declared types -/

namespace World

variable {world : World} {reference : TypeReference}

theorem target?_normalized (named : reference.IsWellNamed) :
    world.target? reference.normalized = world.target? reference := by
  unfold target?
  rw [TypeReference.qualifiedName?_normalized named]

theorem flatNameOf?_ofName (name : QualifiedName) :
    world.flatNameOf? (.ofName name) = some (world.flatName name) := by
  unfold TypeReference.ofName
  split
  · next kind found =>
    rw [flatNameOf?, TypeReference.qualifiedName?, Option.map_some,
      Primitive.qualifiedName_of_ofName? found]
    exact fun _ _ same => by cases same
  · rfl

theorem flatNameOf?_normalized (named : reference.IsWellNamed) :
    world.flatNameOf? reference.normalized = world.flatNameOf? reference := by
  cases reference with
  | named name =>
    rw [TypeReference.normalized_named named, flatNameOf?_ofName]
    rfl
  | instantiation definition arguments =>
    rw [TypeReference.normalized, flatNameOf?, flatNameOf?, TypeReference.normalizedAll_eq_map,
      List.length_map]
  | _ => rfl

end World

/-! ### Written references -/

/-- **A reference may be written and read before it is used.** What is read from the text of a
well-formed reference turns into the same expression at every site, names the same declared type and
has the same flat name. -/
theorem written_references_say_the_same {reference : TypeReference}
    (named : reference.IsWellNamed) :
    ∃ again, Listing.readTypeReference reference.text = .ok again ∧
      (∀ (catalog : Catalog) (site : Site) (precision : Precision),
        catalog.typeExpr site precision again = catalog.typeExpr site precision reference) ∧
      ∀ world : World, world.target? again = world.target? reference ∧
        world.flatNameOf? again = world.flatNameOf? reference :=
  ⟨reference.normalized, Listing.readTypeReference_text named,
    fun _ _ precision => Catalog.typeExpr_normalized precision reference named,
    fun _ => ⟨World.target?_normalized named, World.flatNameOf?_normalized named⟩⟩

/-- An array of a generic type, with a spelled-out primitive type and an array of them among its
arguments; neither array has dimensions. -/
def spelledGrid : TypeReference :=
  .array (.instantiation { space := "Game", enclosing := ["Map\x601"], name := "Grid\x602" }
    [.named { space := "System", name := "Int32" },
      .array (.named { space := "System", name := "Int16" }) 0]) 0

theorem written_references_say_the_same_grid :
    spelledGrid.IsWellNamed ∧
    ∃ again, Listing.readTypeReference "Game.Map\x601/Grid\x602<System.Int32, System.Int16[]>[]" =
        .ok again ∧
      (∀ (catalog : Catalog) (site : Site) (precision : Precision),
        catalog.typeExpr site precision again = catalog.typeExpr site precision spelledGrid) ∧
      ∀ world : World, world.target? again = world.target? spelledGrid ∧
        world.flatNameOf? again = world.flatNameOf? spelledGrid := by
  have inner : QualifiedName.IsWellNamed
      { space := "Game", enclosing := ["Map\x601"], name := "Grid\x602" } :=
    ⟨Or.inr (by decide), by decide, by decide⟩
  have long : QualifiedName.IsWellNamed { space := "System", name := "Int32" } :=
    ⟨Or.inr (by decide), by decide, by decide⟩
  have short : QualifiedName.IsWellNamed { space := "System", name := "Int16" } :=
    ⟨Or.inr (by decide), by decide, by decide⟩
  have named : spelledGrid.IsWellNamed := ⟨inner, List.cons_ne_nil _ _, long, short, trivial⟩
  have written : spelledGrid.text = "Game.Map\x601/Grid\x602<System.Int32, System.Int16[]>[]" := by
    decide
  have same := written_references_say_the_same named
  rw [written] at same
  exact ⟨named, same⟩

end ExternBindings
