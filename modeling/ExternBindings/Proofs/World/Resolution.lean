/-
**What a reference resolves to.**

A reference is looked up by a written name, in which namespace, enclosing types and own name have
become one text. No two well-formed names are written alike (`QualifiedName.text_injective`), so
nothing is lost by that.

* `discovered` — what some assemblies declare, in the order in which it is found: a type comes right
  in front of the types that are declared inside of it (`World.decl?_ofAssemblies`);
* `World.references_resolve_to_last` — **a reference resolves to the last declaration of exactly its
  name in that order**, and to none if there is no declaration of its name.
-/

import ExternBindings.Proofs.Listing.Characters
import ExternBindings.Proofs.Metadata.Normalized
import ExternBindings.Proofs.World.FlatName
import ExternBindings.Proofs.World.LaidOut

namespace ExternBindings

/-- The name that a well-formed reference names is well-formed. -/
theorem TypeReference.IsWellNamed.qualifiedName {reference : TypeReference}
    (named : reference.IsWellNamed) {name : QualifiedName}
    (names : reference.qualifiedName? = some name) : name.IsWellNamed := by
  cases reference with
  | primitive kind =>
    cases names
    exact kind.isWellNamed_qualifiedName
  | named own =>
    cases names
    exact named
  | instantiation definition arguments =>
    cases names
    exact named.1
  | parameter | array | indirect => cases names

/-! ### The order of discovery -/

/-- What some assemblies declare, in the order in which it is found: the assemblies one after the
other, and each type right in front of those that are declared inside of it. -/
def discovered (assemblies : List Assembly) : List TypeDecl :=
  (subtreesIn (assemblies.flatMap Assembly.types)).map TypeTree.decl

/-- The declaration at the position has the name, and none behind it does. -/
structure IsLastNamed (decls : List TypeDecl) (name : QualifiedName) (position : Nat) : Prop where
  own : ∃ decl, decls[position]? = some decl ∧ decl.name = name
  last : ∀ later decl, position < later → decls[later]? = some decl → decl.name ≠ name

namespace World

/-- **The indices of a world are the positions in the order of discovery.** -/
theorem decl?_ofAssemblies (assemblies : List Assembly) (index : TypeIndex) :
    decl? (ofAssemblies assemblies) index = (discovered assemblies)[index]? := by
  unfold decl? entry? discovered
  rw [← (laidOut_ofAssemblies assemblies).decls, List.getElem?_map]

variable {world : World} {name : QualifiedName}

/-- In a nested world a well-formed name is that of a type exactly if it is written like it. -/
theorem IsNested.text_eq_iff (nested : world.IsNested) (named : name.IsWellNamed)
    {index : TypeIndex} {entry : Entry} (found : world.entry? index = some entry) :
    entry.text = name.text ↔ entry.decl.name = name := by
  rw [entry.text_eq]
  exact ⟨QualifiedName.text_injective (nested.isWellNamed found) named, fun same => by rw [same]⟩

/-- **A name is looked up as the last type that has exactly this name.** -/
theorem lookup?_eq_some_iff (nested : world.IsNested) (named : name.IsWellNamed)
    {index : TypeIndex} :
    world.lookup? name = some index ↔
      (∃ decl, world.decl? index = some decl ∧ decl.name = name) ∧
        ∀ later decl, index < later → world.decl? later = some decl → decl.name ≠ name := by
  unfold lookup? lookupText?
  rw [lastIndex?_eq_some_iff]
  constructor
  · rintro ⟨⟨entry, found, written⟩, last⟩
    refine ⟨⟨entry.decl, decl?_eq_some_decl found,
      (nested.text_eq_iff named found).mp (of_decide_eq_true written)⟩, ?_⟩
    intro later decl behind declFound same
    obtain ⟨other, otherFound, rfl⟩ := decl?_eq_some declFound
    exact of_decide_eq_false (last later other behind otherFound)
      ((nested.text_eq_iff named otherFound).mpr same)
  · rintro ⟨⟨decl, declFound, same⟩, last⟩
    obtain ⟨entry, found, rfl⟩ := decl?_eq_some declFound
    refine ⟨⟨entry, found, decide_eq_true ((nested.text_eq_iff named found).mpr same)⟩, ?_⟩
    intro later other behind otherFound
    refine decide_eq_false fun written => ?_
    exact last later other.decl behind (decl?_eq_some_decl otherFound)
      ((nested.text_eq_iff named otherFound).mp written)

/-- A name is not looked up as any type exactly if no type has this name. -/
theorem lookup?_eq_none_iff (nested : world.IsNested) (named : name.IsWellNamed) :
    world.lookup? name = none ↔
      ∀ index decl, world.decl? index = some decl → decl.name ≠ name := by
  unfold lookup? lookupText?
  rw [lastIndex?_eq_none_iff]
  constructor
  · intro unwritten index decl declFound same
    obtain ⟨entry, found, rfl⟩ := decl?_eq_some declFound
    exact of_decide_eq_false (unwritten entry (List.mem_of_getElem? found))
      ((nested.text_eq_iff named found).mpr same)
  · intro absent entry member
    obtain ⟨index, found⟩ := List.getElem?_of_mem member
    refine decide_eq_false fun written => ?_
    exact absent index entry.decl (decl?_eq_some_decl found)
      ((nested.text_eq_iff named found).mp written)

/-- **A reference resolves to the last declaration of exactly its name**, in the order of discovery:
the same namespace, the same types around it and the same raw name. It resolves to none exactly if
nothing of its name is declared. -/
theorem references_resolve_to_last {assemblies : List Assembly}
    (read : ∀ assembly ∈ assemblies, assembly.IsRead) {reference : TypeReference}
    (named : reference.IsWellNamed) :
    (∀ index, target? (ofAssemblies assemblies) reference = some index ↔
      ∃ name, reference.qualifiedName? = some name ∧
        IsLastNamed (discovered assemblies) name index) ∧
    (target? (ofAssemblies assemblies) reference = none ↔
      reference.qualifiedName? = none ∨ ∃ name, reference.qualifiedName? = some name ∧
        ∀ decl ∈ discovered assemblies, decl.name ≠ name) ∧
    ∀ index, decl? (ofAssemblies assemblies) index = (discovered assemblies)[index]? := by
  have nested := isNested_ofAssemblies read
  refine ⟨fun index => ?_, ?_, decl?_ofAssemblies assemblies⟩
  · unfold target?
    rw [Option.bind_eq_some_iff]
    refine exists_congr fun name => and_congr_right fun names => ?_
    rw [lookup?_eq_some_iff nested (named.qualifiedName names)]
    simp only [decl?_ofAssemblies]
    exact ⟨fun both => ⟨both.1, both.2⟩, fun last => ⟨last.own, last.last⟩⟩
  · unfold target?
    cases names : reference.qualifiedName? with
    | none => simp
    | some name =>
      rw [Option.bind_some, lookup?_eq_none_iff nested (named.qualifiedName names)]
      simp only [decl?_ofAssemblies, reduceCtorEq, false_or, Option.some.injEq, exists_eq_left']
      constructor
      · intro absent decl member
        obtain ⟨index, found⟩ := List.getElem?_of_mem member
        exact absent index decl found
      · exact fun absent index decl found => absent decl (List.mem_of_getElem? found)

/-- Types whose names differ in a separator or an arity marker only, and some of them again. -/
def redeclaredTexts : List String :=
  ["assembly a namespace N \x7b public class A \x7b public class B \x7b \x7d \x7d " ++
      "class A\x601<T> \x7b class B \x7b \x7d \x7d \x7d namespace N.A \x7b class B \x7b \x7d \x7d",
    "assembly b namespace N \x7b class A \x7b class B \x7b \x7d \x7d \x7d " ++
      "namespace N.A \x7b class C \x7b \x7d \x7d"]

theorem redeclaredTexts_facts :
    (∀ text ∈ redeclaredTexts, (Listing.readAssembly text).isOk = true) ∧
    (discovered (redeclaredTexts.map Listing.assemblyOf)).map TypeDecl.name =
      [{ space := "N", name := "A" }, { space := "N", enclosing := ["A"], name := "B" },
        { space := "N", name := "A\x601" }, { space := "N", enclosing := ["A\x601"], name := "B" },
        { space := "N.A", name := "B" }, { space := "N", name := "A" },
        { space := "N", enclosing := ["A"], name := "B" }, { space := "N.A", name := "C" }] := by
  rw [Listing.forall_isOk_iff, Listing.map_assemblyOf_eq]
  unfold redeclaredTexts
  simp only [List.map_cons, List.map_nil, String.toList_append]
  repeat rw [String.toList_ofList]
  decide +kernel

/-- The type `B` inside of `N.A` is the one of the second assembly, and not one of the others. -/
theorem references_resolve_to_last_inner :
    target? (ofAssemblies (redeclaredTexts.map Listing.assemblyOf))
      (.named { space := "N", enclosing := ["A"], name := "B" }) = some 6 := by
  obtain ⟨answered, names⟩ := redeclaredTexts_facts
  have named : TypeReference.IsWellNamed
      (.named { space := "N", enclosing := ["A"], name := "B" }) :=
    ⟨Or.inr (by decide), by decide, by decide⟩
  have read : ∀ assembly ∈ redeclaredTexts.map Listing.assemblyOf, assembly.IsRead :=
    List.forall_mem_map.mpr fun text member => Listing.isRead_assemblyOf (answered text member)
  have nameAt (position : Nat) := congrArg (·[position]?) names
  simp only [List.getElem?_map] at nameAt
  have last := (references_resolve_to_last read named).1 6
  refine last.mpr ⟨_, rfl, ⟨?_, fun later decl behind found => ?_⟩⟩
  · exact Option.map_eq_some_iff.mp (nameAt 6)
  · have name := nameAt later
    rw [found, Option.map_some] at name
    obtain rfl : later = 7 := by
      have inRange := (List.getElem?_eq_some_iff.mp name.symm).1
      simp only [List.length_cons, List.length_nil] at inRange
      omega
    rw [Option.some.inj name]
    decide

end World

end ExternBindings
