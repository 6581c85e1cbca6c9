/-
**When two types have the same name at a site.**

A site names a type by its flat name. In front of that stands the module, unless the site is in it,
and in front of the module the package, unless the site is in the same namespace or the package is
the one without a name.

* `Catalog.nameAt_eq_behind`, `Catalog.nameAt_eq_iff` — so names agree exactly if the flat names do
  and what stands in front of them;
* `Catalog.TellsApart` — types that everyone may reach differ in their package, in their outermost
  type's flat name or in their own;
* `Catalog.SharesName` — the two ways in which such types still have the same name by the rules for
  packages: what is in the package without a name hides behind the site's own namespace, and a
  module may be called like a package;
* `Catalog.MeetsFlattened` — an inner type of the site's own module with the flat name of a type
  that needs no package;
* `nameAt_eq_iff_sharesName` — **apart from the last case, names agree exactly for the types
  that share a name by the rules.** Each of the three cases is met (`exists_names_that_agree`).
-/

import ExternBindings.Proofs.Listing.Characters
import ExternBindings.Proofs.Metadata.Normalized
import ExternBindings.Proofs.Output.Files
import ExternBindings.Proofs.World.Enclosing

namespace ExternBindings

/-! ### The outermost type -/

namespace QualifiedName

variable {name : QualifiedName}

theorem outermost_eq_of_plain (plain : name.isInner = false) : name.outermost = name :=
  outermost_eq_self (isInner_eq_false_iff.mp plain)

theorem space_outermost (name : QualifiedName) : name.outermost.space = name.space := by
  obtain ⟨space, enclosing, own⟩ := name
  cases enclosing <;> rfl

theorem IsWellNamed.outermost (named : name.IsWellNamed) : name.outermost.IsWellNamed := by
  obtain ⟨space, enclosing, own⟩ := name
  cases enclosing with
  | nil => exact named
  | cons outer rest =>
    exact ⟨named.space, fun _ member => absurd member List.not_mem_nil,
      named.enclosing outer List.mem_cons_self⟩

end QualifiedName

/-- An inner type is declared in the file that the site is in. -/
structure Site.Surrounds (site : Site) (name : QualifiedName) : Prop where
  inner : name.isInner = true
  home : name.outermost.text = site.home.text

theorem packageWithin_eq_behind (outer : String) {lowered : String} (present : lowered ≠ "") :
    packageWithin outer lowered =
      Text.behind "." (Text.present? outer) lowered := by
  have visible : ¬ lowered.isEmpty = true := fun empty => present (String.isEmpty_iff.mp empty)
  unfold packageWithin Text.present?
  rw [if_neg visible]
  split <;> rfl

theorem packageWithin_ne_empty {outer lowered : String} (present : lowered ≠ "") :
    packageWithin outer lowered ≠ "" := by
  rw [packageWithin_eq_behind outer present]
  unfold Text.behind
  cases Text.present? outer with
  | none => exact present
  | some front => simp [String.append_eq_empty_iff]

namespace Catalog

variable {catalog : Catalog} {site : Site} {name other : QualifiedName}

/-! ### What stands in front of a name -/

/-- The package that names from a namespace are written with at a site. -/
def packageAt (catalog : Catalog) (site : Site) (space : String) : String :=
  if space = site.space then "" else catalog.layout.packageFor space

/-- The flat name of the outermost type around a type. -/
def moduleName (catalog : Catalog) (name : QualifiedName) : String :=
  catalog.world.flatName name.outermost

/-- What stands in front of a flat name and the dot before it, if there is one. -/
def frontAt? (catalog : Catalog) (site : Site) (name : QualifiedName) : Option String :=
  if name.isInner then
    if name.outermost.text = site.home.text then none
    else some (packageWithin (catalog.packageAt site name.space) (catalog.moduleName name))
  else Text.present? (catalog.packageAt site name.space)

theorem plain_flatName (named : name.IsWellNamed) : '.' ∉ (catalog.world.flatName name).toList :=
  fun dot => absurd (World.forall_mem_flatName named none '.' dot) (by decide)

theorem plain_moduleName (named : name.IsWellNamed) : '.' ∉ (catalog.moduleName name).toList :=
  plain_flatName named.outermost

theorem moduleName_ne_empty (named : name.IsWellNamed) : catalog.moduleName name ≠ "" :=
  World.flatName_ne_empty named.outermost none

/-- A name behind its package, at a site. -/
theorem qualified_eq_behind (catalog : Catalog) (site : Site) (space own : String) :
    (if space = site.space then "" else catalog.layout.qualification space) ++ own =
      Text.behind "." (Text.present? (catalog.packageAt site space)) own := by
  unfold packageAt PackageLayout.qualification Text.present?
  split
  · exact String.empty_append
  · dsimp only
    split
    · exact String.empty_append
    · rfl

/-- **A type is named by its flat name, behind what stands in front of it.** -/
theorem nameAt_eq_behind (named : name.IsWellNamed) :
    catalog.nameAt site name =
      Text.behind "." (catalog.frontAt? site name) (catalog.world.flatName name) := by
  unfold nameAt frontAt?
  dsimp only
  rw [qualified_eq_behind, qualified_eq_behind,
    packageWithin_eq_behind _ (moduleName_ne_empty named)]
  split
  · split <;> rfl
  · rfl

/-- **Names at a site agree exactly if the flat names do and what stands in front of them.** -/
theorem nameAt_eq_iff (named : name.IsWellNamed) (namedToo : other.IsWellNamed) :
    catalog.nameAt site name = catalog.nameAt site other ↔
      catalog.frontAt? site name = catalog.frontAt? site other ∧
        catalog.world.flatName name = catalog.world.flatName other := by
  rw [nameAt_eq_behind named, nameAt_eq_behind namedToo]
  exact Text.behind_eq_iff rfl (plain_flatName named) (plain_flatName namedToo)

/-! ### Where a type is, seen from a site -/

theorem frontAt?_of_surrounds (surrounds : site.Surrounds name) :
    catalog.frontAt? site name = none := by
  unfold frontAt?
  rw [if_pos surrounds.inner, if_pos surrounds.home]

theorem frontAt?_of_inner (inner : name.isInner = true) (outside : ¬ site.Surrounds name) :
    catalog.frontAt? site name =
      some (packageWithin (catalog.packageAt site name.space) (catalog.moduleName name)) := by
  have elsewhere : ¬ name.outermost.text = site.home.text := fun home => outside ⟨inner, home⟩
  unfold frontAt?
  rw [if_pos inner, if_neg elsewhere]

theorem frontAt?_of_plain (plain : name.isInner = false) :
    catalog.frontAt? site name = Text.present? (catalog.packageAt site name.space) := by
  unfold frontAt?
  rw [if_neg (Bool.eq_false_iff.mp plain)]

/-- A type is in the module of the site, inside of another module, or not inner. -/
theorem position_cases (site : Site) (name : QualifiedName) :
    site.Surrounds name ∨ (name.isInner = true ∧ ¬ site.Surrounds name) ∨ name.isInner = false := by
  cases inner : name.isInner with
  | false => exact Or.inr (Or.inr rfl)
  | true => exact (em (site.Surrounds name)).imp_right fun outside => Or.inl ⟨rfl, outside⟩

theorem not_surrounds_of_plain (plain : name.isInner = false) : ¬ site.Surrounds name := by
  intro surrounds
  rw [surrounds.inner] at plain
  cases plain

/-- Namespaces that are written with the same package have the same one, or one of them is that of
the site and the package of the other one has no name. -/
theorem packageAt_eq_cases {space foreign : String}
    (same : catalog.packageAt site space = catalog.packageAt site foreign) :
    catalog.layout.packageFor space = catalog.layout.packageFor foreign ∨
      (space = site.space ∧ foreign ≠ site.space ∧ catalog.layout.packageFor foreign = "") ∨
      (foreign = site.space ∧ space ≠ site.space ∧ catalog.layout.packageFor space = "") := by
  unfold packageAt at same
  split at same
  · next own =>
    split at same
    · next ownToo => exact Or.inl (by rw [own, ownToo])
    · next away => exact Or.inr (Or.inl ⟨own, away, same.symm⟩)
  · next away =>
    split at same
    · next own => exact Or.inr (Or.inr ⟨own, away, same⟩)
    · exact Or.inl same

/-! ### Types that share a name -/

/-- The package of a type, the flat name of the outermost type around it, and its own one. -/
def place (catalog : Catalog) (name : QualifiedName) : String × String × String :=
  (catalog.layout.packageFor name.space, catalog.moduleName name, catalog.world.flatName name)

/-- Two types have the same name at a site by the rules for packages. -/
inductive SharesName (catalog : Catalog) (site : Site) (name other : QualifiedName) : Prop
  /-- the package without a name is not written, and neither is that of the site's namespace -/
  | unpackaged (own : name.space = site.space) (foreign : other.space ≠ site.space)
      (noPackage : catalog.layout.packageFor other.space = "")
      (nesting : name.isInner = other.isInner) (outside : ¬ site.Surrounds name)
      (outsideToo : ¬ site.Surrounds other)
      (modules : catalog.moduleName name = catalog.moduleName other)
      (flat : catalog.world.flatName name = catalog.world.flatName other)
  /-- the module that an inner type is in is written like a package -/
  | moduleLikePackage (inner : name.isInner = true) (outside : ¬ site.Surrounds name)
      (plain : other.isInner = false) (foreign : other.space ≠ site.space)
      (package : packageWithin (catalog.packageAt site name.space) (catalog.moduleName name) =
        catalog.layout.packageFor other.space)
      (flat : catalog.world.flatName name = catalog.world.flatName other)

/-- An inner type of the site's module has the flat name of a type that needs no package there. -/
structure MeetsFlattened (catalog : Catalog) (site : Site) (name other : QualifiedName) : Prop where
  surrounds : site.Surrounds name
  plain : other.isInner = false
  noPackage : catalog.packageAt site other.space = ""
  flat : catalog.world.flatName name = catalog.world.flatName other

/-- The types have the same place, or the same name in one of the ways above. -/
def Meet (catalog : Catalog) (site : Site) (name other : QualifiedName) : Prop :=
  catalog.place name = catalog.place other ∨
    (catalog.SharesName site name other ∨ catalog.SharesName site other name) ∨
    (catalog.MeetsFlattened site name other ∨ catalog.MeetsFlattened site other name)

theorem Meet.symm (meet : catalog.Meet site name other) : catalog.Meet site other name :=
  meet.imp Eq.symm (Or.imp Or.symm Or.symm)

/-- **Names that are shared agree.** -/
theorem SharesName.nameAt_eq (named : name.IsWellNamed) (namedToo : other.IsWellNamed)
    (shares : catalog.SharesName site name other) :
    catalog.nameAt site name = catalog.nameAt site other := by
  cases shares with
  | unpackaged own foreign noPackage nesting outside outsideToo modules flat =>
    have packages : catalog.packageAt site name.space = catalog.packageAt site other.space := by
      unfold packageAt
      rw [if_pos own, if_neg foreign, noPackage]
    refine (nameAt_eq_iff named namedToo).mpr ⟨?_, flat⟩
    cases inner : other.isInner with
    | true =>
      rw [frontAt?_of_inner (nesting.trans inner) outside, frontAt?_of_inner inner outsideToo,
        packages, modules]
    | false =>
      rw [frontAt?_of_plain (nesting.trans inner), frontAt?_of_plain inner, packages]
  | moduleLikePackage inner outside plain foreign package flat =>
    have written : catalog.packageAt site other.space = catalog.layout.packageFor other.space :=
      if_neg foreign
    have present : catalog.layout.packageFor other.space ≠ "" :=
      package ▸ packageWithin_ne_empty (moduleName_ne_empty named)
    refine (nameAt_eq_iff named namedToo).mpr ⟨?_, flat⟩
    rw [frontAt?_of_inner inner outside, frontAt?_of_plain plain, written, package]
    exact (Text.present?_eq_some_iff.mpr ⟨present, rfl⟩).symm

/-! ### Names that agree -/

section Agree

variable (named : name.IsWellNamed) (namedToo : other.IsWellNamed)
  (flat : catalog.world.flatName name = catalog.world.flatName other)

include named namedToo flat

/-- Types in the module of the site are in the same place if their flat names agree. -/
theorem meet_of_surrounds (surrounds : site.Surrounds name) (surroundsToo : site.Surrounds other) :
    catalog.Meet site name other := by
  have outermost : name.outermost = other.outermost :=
    QualifiedName.text_injective named.outermost namedToo.outermost
      (surrounds.home.trans surroundsToo.home.symm)
  have spaces : name.space = other.space := by
    rw [← name.space_outermost, outermost, other.space_outermost]
  left
  unfold place moduleName
  rw [outermost, spaces, flat]

omit named namedToo in
/-- Types that are written with the same package and module. -/
theorem meet_of_packageAt (nesting : name.isInner = other.isInner) (outside : ¬ site.Surrounds name)
    (outsideToo : ¬ site.Surrounds other)
    (modules : catalog.moduleName name = catalog.moduleName other)
    (packages : catalog.packageAt site name.space = catalog.packageAt site other.space) :
    catalog.Meet site name other := by
  rcases packageAt_eq_cases packages with
    same | ⟨own, foreign, noPackage⟩ | ⟨own, foreign, noPackage⟩
  · left
    unfold place
    rw [same, modules, flat]
  · exact Or.inr (Or.inl (Or.inl
      (.unpackaged own foreign noPackage nesting outside outsideToo modules flat)))
  · exact Or.inr (Or.inl (Or.inr
      (.unpackaged own foreign noPackage nesting.symm outsideToo outside modules.symm flat.symm)))

theorem meet_of_inner (inner : name.isInner = true) (outside : ¬ site.Surrounds name)
    (innerToo : other.isInner = true) (outsideToo : ¬ site.Surrounds other)
    (fronts : catalog.frontAt? site name = catalog.frontAt? site other) :
    catalog.Meet site name other := by
  rw [frontAt?_of_inner inner outside, frontAt?_of_inner innerToo outsideToo, Option.some.injEq,
    packageWithin_eq_behind _ (moduleName_ne_empty named),
    packageWithin_eq_behind _ (moduleName_ne_empty namedToo),
    Text.behind_eq_iff rfl (plain_moduleName named) (plain_moduleName namedToo),
    Text.present?_inj] at fronts
  exact meet_of_packageAt flat (inner.trans innerToo.symm) outside outsideToo fronts.2 fronts.1

omit named namedToo in
theorem meet_of_plain (plain : name.isInner = false) (plainToo : other.isInner = false)
    (fronts : catalog.frontAt? site name = catalog.frontAt? site other) :
    catalog.Meet site name other := by
  have modules : catalog.moduleName name = catalog.moduleName other := by
    unfold moduleName
    rw [QualifiedName.outermost_eq_of_plain plain, QualifiedName.outermost_eq_of_plain plainToo]
    exact flat
  rw [frontAt?_of_plain plain, frontAt?_of_plain plainToo, Text.present?_inj] at fronts
  exact meet_of_packageAt flat (plain.trans plainToo.symm) (not_surrounds_of_plain plain)
    (not_surrounds_of_plain plainToo) modules fronts

omit named namedToo in
theorem meet_of_inner_of_plain (inner : name.isInner = true) (outside : ¬ site.Surrounds name)
    (plain : other.isInner = false)
    (fronts : catalog.frontAt? site name = catalog.frontAt? site other) :
    catalog.Meet site name other := by
  rw [frontAt?_of_inner inner outside, frontAt?_of_plain plain] at fronts
  obtain ⟨present, package⟩ := Text.present?_eq_some_iff.mp fronts.symm
  have foreign : other.space ≠ site.space := fun own => present (if_pos own)
  refine Or.inr (Or.inl (Or.inl (.moduleLikePackage inner outside plain foreign ?_ flat)))
  rw [← package]
  exact if_neg foreign

omit named namedToo in
theorem meet_of_surrounds_of_plain (surrounds : site.Surrounds name) (plain : other.isInner = false)
    (fronts : catalog.frontAt? site name = catalog.frontAt? site other) :
    catalog.Meet site name other := by
  rw [frontAt?_of_surrounds surrounds, frontAt?_of_plain plain] at fronts
  have noPackage : catalog.packageAt site other.space = "" := Text.present?_inj.mp fronts.symm
  exact Or.inr (Or.inr (Or.inl ⟨surrounds, plain, noPackage, flat⟩))

/-- **Types with the same name at a site meet.** By where each of them is, seen from the site. -/
theorem meet_of_frontAt?_eq (fronts : catalog.frontAt? site name = catalog.frontAt? site other) :
    catalog.Meet site name other := by
  rcases position_cases site name with surrounds | ⟨inner, outside⟩ | plain
  · rcases position_cases site other with surroundsToo | ⟨innerToo, outsideToo⟩ | plainToo
    · exact meet_of_surrounds named namedToo flat surrounds surroundsToo
    · rw [frontAt?_of_surrounds surrounds, frontAt?_of_inner innerToo outsideToo] at fronts
      cases fronts
    · exact meet_of_surrounds_of_plain flat surrounds plainToo fronts
  · rcases position_cases site other with surroundsToo | ⟨innerToo, outsideToo⟩ | plainToo
    · rw [frontAt?_of_inner inner outside, frontAt?_of_surrounds surroundsToo] at fronts
      cases fronts
    · exact meet_of_inner named namedToo flat inner outside innerToo outsideToo fronts
    · exact meet_of_inner_of_plain flat inner outside plainToo fronts
  · rcases position_cases site other with surroundsToo | ⟨innerToo, outsideToo⟩ | plainToo
    · exact (meet_of_surrounds_of_plain flat.symm surroundsToo plain fronts.symm).symm
    · exact (meet_of_inner_of_plain flat.symm innerToo outsideToo plain fronts.symm).symm
    · exact meet_of_plain flat plain plainToo fronts

end Agree

/-- Types that everyone may reach differ in their package, in the flat name of the outermost type
around them, or in their own. -/
def TellsApart (catalog : Catalog) : Prop :=
  ∀ {first second : TypeIndex} {entry other : Entry}, catalog.world.entry? first = some entry →
    catalog.world.entry? second = some other → catalog.world.IsOpen first →
    catalog.world.IsOpen second → first ≠ second →
    catalog.place entry.decl.name ≠ catalog.place other.decl.name

end Catalog

/-! ### Names of declared types -/

/-- **Types that are told apart have the same name at a site exactly if they share it by the rules
for packages**, unless one of them is an inner type of the site's module that meets the other one by
its flat name. -/
theorem nameAt_eq_iff_sharesName {assemblies : List Assembly} {rules : PackageRules}
    (read : ∀ assembly ∈ assemblies, assembly.IsRead)
    (apart : (Catalog.ofAssemblies assemblies rules).TellsApart) (site : Site)
    {first second : TypeIndex} {entry other : Entry}
    (found : World.entry? (World.ofAssemblies assemblies) first = some entry)
    (foundToo : World.entry? (World.ofAssemblies assemblies) second = some other)
    (isOpen : (World.ofAssemblies assemblies).IsOpen first)
    (isOpenToo : (World.ofAssemblies assemblies).IsOpen second) (different : first ≠ second)
    (unmet : ¬ ((Catalog.ofAssemblies assemblies rules).MeetsFlattened site entry.decl.name
        other.decl.name ∨
      (Catalog.ofAssemblies assemblies rules).MeetsFlattened site other.decl.name
        entry.decl.name)) :
    (Catalog.ofAssemblies assemblies rules).nameAt site entry.decl.name =
        (Catalog.ofAssemblies assemblies rules).nameAt site other.decl.name ↔
      (Catalog.ofAssemblies assemblies rules).SharesName site entry.decl.name other.decl.name ∨
        (Catalog.ofAssemblies assemblies rules).SharesName site other.decl.name
          entry.decl.name := by
  have nested := World.isNested_ofAssemblies read
  have named := nested.isWellNamed found
  have namedToo := nested.isWellNamed foundToo
  constructor
  · intro same
    obtain ⟨fronts, flat⟩ := (Catalog.nameAt_eq_iff named namedToo).mp same
    rcases Catalog.meet_of_frontAt?_eq named namedToo flat fronts with place | shares | meets
    · exact absurd place (apart found foundToo isOpen isOpenToo different)
    · exact shares
    · exact absurd meets unmet
  · rintro (shares | shares)
    · exact shares.nameAt_eq named namedToo
    · exact (shares.nameAt_eq namedToo named).symm

/-! ### Worlds without hidden types -/

namespace World

variable {world : World}

theorem IsNested.exists_entry_of_encloses (nested : world.IsNested) {outer index : TypeIndex}
    (encloses : world.Encloses outer index) : ∃ entry, world.entry? outer = some entry := by
  obtain ⟨inner, ⟨entry, found, belongs⟩, -⟩ := Relation.TransGen.head'_iff.mp encloses
  obtain ⟨-, ownerEntry, ownerFound, -⟩ := nested.owner_lt found belongs
  exact ⟨ownerEntry, ownerFound⟩

theorem IsNested.isOpen (nested : world.IsNested)
    (allPublic : ∀ entry ∈ world.entries, entry.isPublic = true) {index : TypeIndex} {entry : Entry}
    (found : world.entry? index = some entry) : world.IsOpen index := by
  have isPublic {index : TypeIndex} {entry : Entry} (found : world.entry? index = some entry) :
      world.isPublic index = true :=
    (isPublic_eq found).trans (allPublic entry (List.mem_of_getElem? found))
  refine ⟨isPublic found, fun outer encloses => ?_⟩
  obtain ⟨outerEntry, outerFound⟩ := nested.exists_entry_of_encloses encloses
  exact isPublic outerFound

end World

/-! ### Two types with one name -/

/-- Types in the namespace without a name, in `N` and in `M`, one of them inside of another one. -/
def sharedNamesText : String :=
  "assembly a namespace \x7b public class X \x7b \x7d \x7d " ++
    "namespace N \x7b public class X \x7b \x7d public class m \x7b public class Y \x7b \x7d \x7d " ++
    "public class m_Y \x7b \x7d \x7d namespace M \x7b public class m_Y \x7b \x7d \x7d"

/-- The types of the listing, without a common first package. -/
def sharedNames : Catalog :=
  Catalog.ofAssemblies [Listing.assemblyOf sharedNamesText] { skipsFirst := true }

/-- The names of the types. -/
def sharedNamesOrder : List QualifiedName :=
  [{ space := "", name := "X" }, { space := "N", name := "X" }, { space := "N", name := "m" },
    { space := "N", enclosing := ["m"], name := "Y" }, { space := "N", name := "m_Y" },
    { space := "M", name := "m_Y" }]

/-- The file of the first type in `N`. -/
def plainSite : Site :=
  .ofFile { space := "N", name := "X" }

/-- The file of the type in `N` with a type inside of it. -/
def moduleSite : Site :=
  .ofFile { space := "N", name := "m" }

theorem sharedNames_facts :
    (Listing.readAssembly sharedNamesText).isOk = true ∧
    (sharedNames.world.entries.map Entry.text).Nodup ∧
    (sharedNames.world.entries.map fun entry => sharedNames.place entry.decl.name).Nodup ∧
    (sharedNames.world.entries.map fun entry => entry.decl.name) = sharedNamesOrder ∧
    (∀ entry ∈ sharedNames.world.entries, entry.isPublic = true) ∧
    sharedNamesOrder.map (sharedNames.nameAt plainSite) =
      ["X", "X", "m", "m.m_Y", "m_Y", "m.m_Y"] ∧
    sharedNamesOrder.map (sharedNames.nameAt moduleSite) =
      ["X", "X", "m", "m_Y", "m_Y", "m.m_Y"] := by
  unfold sharedNames
  rw [Listing.readAssembly_eq, Listing.assemblyOf_eq]
  unfold sharedNamesText
  simp only [String.toList_append]
  repeat rw [String.toList_ofList]
  decide +kernel

theorem isRead_sharedNames :
    ∀ assembly ∈ [Listing.assemblyOf sharedNamesText], assembly.IsRead :=
  List.forall_mem_singleton.mpr (Listing.isRead_assemblyOf sharedNames_facts.1)

theorem tellsApart_sharedNames : sharedNames.TellsApart :=
  fun found foundToo _ _ different same =>
    different (World.index_eq_of_nodup sharedNames_facts.2.2.1 found foundToo same)

theorem sharedNames_entry (index : TypeIndex) {name : QualifiedName}
    (listed : sharedNamesOrder[index]? = some name) :
    sharedNames.world.IsOpen index ∧
      ∃ entry, sharedNames.world.entry? index = some entry ∧ entry.decl.name = name := by
  obtain ⟨-, -, -, names, allPublic, -⟩ := sharedNames_facts
  rw [← names, List.getElem?_map] at listed
  obtain ⟨entry, found, named⟩ := Option.map_eq_some_iff.mp listed
  exact ⟨(World.isNested_ofAssemblies isRead_sharedNames).isOpen allPublic found, entry, found,
    named⟩

/-- **Types with different names at a site**: an inner type, seen from the namespace of the one with
the same flat name. -/
theorem nameAt_eq_iff_sharesName_apart :
    ∃ entry other, sharedNames.world.entry? 3 = some entry ∧
      sharedNames.world.entry? 5 = some other ∧
      sharedNames.nameAt (.ofFile { space := "M", name := "m_Y" }) entry.decl.name ≠
        sharedNames.nameAt (.ofFile { space := "M", name := "m_Y" }) other.decl.name := by
  obtain ⟨isOpen, entry, found, named⟩ := sharedNames_entry 3 rfl
  obtain ⟨isOpenToo, other, foundToo, namedToo⟩ := sharedNames_entry 5 rfl
  refine ⟨entry, other, found, foundToo, fun same => ?_⟩
  have unmet : ¬ (sharedNames.MeetsFlattened (.ofFile { space := "M", name := "m_Y" })
        entry.decl.name other.decl.name ∨
      sharedNames.MeetsFlattened (.ofFile { space := "M", name := "m_Y" })
        other.decl.name entry.decl.name) := by
    rw [named, namedToo]
    rintro (meets | meets)
    · exact absurd meets.surrounds.home (by decide)
    · exact absurd meets.surrounds.inner (by decide)
  have shared := (nameAt_eq_iff_sharesName isRead_sharedNames tellsApart_sharedNames _ found
    foundToo isOpen isOpenToo (by decide) unmet).mp same
  rw [named, namedToo] at shared
  rcases shared with shared | shared
  · cases shared with
    | unpackaged own => exact absurd own (by decide)
    | moduleLikePackage _ _ _ foreign => exact foreign rfl
  · cases shared with
    | unpackaged _ _ _ nesting => exact absurd nesting (by decide)
    | moduleLikePackage inner => exact absurd inner (by decide)

/-- Two different types that everyone may reach have the same name at a site. -/
def Catalog.Confuses (catalog : Catalog) (site : Site) (first second : TypeIndex) : Prop :=
  first ≠ second ∧ catalog.world.IsOpen first ∧ catalog.world.IsOpen second ∧
    ∃ entry other, catalog.world.entry? first = some entry ∧
      catalog.world.entry? second = some other ∧
      catalog.nameAt site entry.decl.name = catalog.nameAt site other.decl.name

theorem confuses_sharedNames {site : Site} {first second : TypeIndex} {name other : QualifiedName}
    (different : first ≠ second) (listed : sharedNamesOrder[first]? = some name)
    (listedToo : sharedNamesOrder[second]? = some other)
    (same : sharedNames.nameAt site name = sharedNames.nameAt site other) :
    sharedNames.Confuses site first second := by
  obtain ⟨isOpen, entry, found, rfl⟩ := sharedNames_entry first listed
  obtain ⟨isOpenToo, otherEntry, foundToo, rfl⟩ := sharedNames_entry second listedToo
  exact ⟨different, isOpen, isOpenToo, entry, otherEntry, found, foundToo, same⟩

/-- **Types that are told apart may have the same name at a site**: one in the package without a
name and one in the site's namespace, an inner type whose module is called like a package and a type
of that package, and an inner type of the site's module and a type with its flat name. -/
theorem exists_names_that_agree :
    (Listing.readAssembly sharedNamesText).isOk = true ∧ sharedNames.world.IsUnambiguous ∧
      sharedNames.TellsApart ∧ sharedNames.Confuses plainSite 0 1 ∧
      sharedNames.Confuses plainSite 3 5 ∧ sharedNames.Confuses moduleSite 3 4 := by
  obtain ⟨answered, unambiguous, -, -, -, plain, inside⟩ := sharedNames_facts
  have same (first second : Nat) {site : Site} {texts : List String} {name other : QualifiedName}
      (known : sharedNamesOrder.map (sharedNames.nameAt site) = texts)
      (listed : sharedNamesOrder[first]? = some name)
      (listedToo : sharedNamesOrder[second]? = some other) (agree : texts[first]? = texts[second]?) :
      sharedNames.nameAt site name = sharedNames.nameAt site other := by
    rw [← known, List.getElem?_map, List.getElem?_map, listed, listedToo] at agree
    exact Option.some.inj agree
  exact ⟨answered, unambiguous, tellsApart_sharedNames,
    confuses_sharedNames (by decide) rfl rfl (same 0 1 plain rfl rfl rfl),
    confuses_sharedNames (by decide) rfl rfl (same 3 5 plain rfl rfl rfl),
    confuses_sharedNames (by decide) rfl rfl (same 3 4 inside rfl rfl rfl)⟩

end ExternBindings
