/-
**What operations change in a volume.**

* `Volume.Differs` — how a later volume differs from an earlier one: some texts were written, the
  last one at a location counts, and some directories are new; differences add up
  (`Differs.append`);
* `createDirectories_differs` — making a directory makes nothing but directories that the path lies
  in, and `createDirectories_of_isDirectory` — none where there is one;
* `write_eq_ok` — writing puts one text where the path leads.
-/

import ExternBindings.Proofs.Files.Following
import Mathlib.Logic.Relation

namespace ExternBindings.Files

/-- The second path is the one of the directory that the first lies in. -/
def LiesIn (path outer : String) : Prop :=
  parentPath? path = some outer

/-- The second path is the first one, or that of a directory that it lies in at some depth. -/
def IsWithin (path outer : String) : Prop :=
  Relation.ReflTransGen LiesIn path outer

namespace Volume

/-- How a later volume differs: every location that was written holds the text that was written
there last, and besides there are only new directories, each of them where one of the paths `made`
leads. -/
structure Differs (written : List (Location × String)) (made : String → Prop)
    (volume later : Volume) : Prop where
  keeps : volume.Keeps later
  texts : ∀ location text, written.reverse.lookup location = some text →
    later.item? location = some (.text text)
  others : ∀ location, written.reverse.lookup location = none →
    later.item? location = volume.item? location ∨
      volume.item? location = none ∧ later.item? location = some .directory ∧
        ∃ path, made path ∧ later.locate path = .ok location

variable {volume later final : Volume} {location : Location} {path : String}
  {written further : List (Location × String)} {made : String → Prop}

namespace Differs

theorem refl : Differs [] made volume volume where
  keeps := .refl
  texts _ _ found := by cases found
  others _ _ := Or.inl rfl

theorem mono {others : String → Prop} (differs : Differs written made volume later)
    (all : ∀ path, made path → others path) : Differs written others volume later where
  keeps := differs.keeps
  texts := differs.texts
  others location unwritten := by
    rcases differs.others location unwritten with same | ⟨missing, isNew, path, member, located⟩
    · exact Or.inl same
    · exact Or.inr ⟨missing, isNew, path, all path member, located⟩

/-- **Differences add up**, and what was written later counts. -/
theorem append (differs : Differs written made volume later)
    (onward : Differs further made later final) :
    Differs (written ++ further) made volume final := by
  have split (location : Location) : (written ++ further).reverse.lookup location =
      (further.reverse.lookup location).or (written.reverse.lookup location) := by
    rw [List.reverse_append, List.lookup_append]
  refine ⟨differs.keeps.trans onward.keeps, fun location text found => ?_,
    fun location unwritten => ?_⟩
  · rw [split, Option.or_eq_some_iff] at found
    rcases found with found | ⟨unwritten, found⟩
    · exact onward.texts location text found
    · have before := differs.texts location text found
      rcases onward.others location unwritten with same | ⟨missing, -⟩
      · rw [same, before]
      · rw [before] at missing
        cases missing
  · rw [split, Option.or_eq_none_iff] at unwritten
    rcases onward.others location unwritten.1 with same | ⟨missing, isNew, path, member, located⟩
    · rcases differs.others location unwritten.2 with
        sameBefore | ⟨missing, isNew, path, member, located⟩
      · exact Or.inl (same.trans sameBefore)
      · exact Or.inr ⟨missing, same.trans isNew, path, member, onward.keeps.locate located⟩
    · refine Or.inr ⟨?_, isNew, path, member, located⟩
      rcases differs.others location unwritten.2 with same | ⟨-, isDirectory, -⟩
      · rw [← same, missing]
      · rw [isDirectory] at missing
        cases missing

/-- Where neither a text was written nor a directory made, everything is as it was. -/
theorem item?_eq (differs : Differs written (fun _ => False) volume later)
    (unwritten : written.reverse.lookup location = none) :
    later.item? location = volume.item? location := by
  rcases differs.others location unwritten with same | ⟨-, -, _, isMade, -⟩
  · exact same
  · exact isMade.elim

end Differs

/-! ### Directories -/

theorem createDirectory_eq_ok :
    volume.createDirectory path = .ok later ↔
      ∃ location, volume.locateUnslashed path = .ok location ∧ IsNameable location ∧
        volume.item? location = none ∧ later = volume.put location .directory := by
  unfold createDirectory
  cases located : volume.locateUnslashed path with
  | error fault => simp
  | ok location =>
    simp only [Except.ok.injEq, exists_eq_left']
    rw [← and_assoc, ← lookUp_eq_ok]
    split
    · next fault failed => simp [failed]
    · next item present => simp [present]
    · next missing => simp [missing, eq_comm]

/-- A new directory is all that is new. -/
theorem createDirectory_differs (created : volume.createDirectory path = .ok later) :
    Differs [] (· = path) volume later ∧ later.isDirectory path = true := by
  obtain ⟨location, located, nameable, missing, rfl⟩ := createDirectory_eq_ok.mp created
  have below : location ≠ [] := by
    rintro rfl
    rw [item?_root] at missing
    cases missing
  have isNew : (volume.put location .directory).item? location = some .directory :=
    item?_put_self below
  have keeps : volume.Keeps (volume.put location .directory) := by
    refine keeps_put ?_
    rw [missing]
    rintro ⟨⟩
  have leads : (volume.put location .directory).locate path = .ok location :=
    locate_of_locateUnslashed (keeps.locateThrough located) nameable isNew
  refine ⟨⟨keeps, fun _ _ found => (by cases found), fun other _ => ?_⟩,
    isDirectory_iff.mpr ⟨location, leads, nameable, isNew⟩⟩
  by_cases same : other = location
  · subst same
    exact Or.inr ⟨missing, isNew, path, rfl, leads⟩
  · exact Or.inl (item?_put_of_ne same)

theorem ensureDirectory_differs (ensured : volume.ensureDirectory path = .ok later) :
    Differs [] (· = path) volume later ∧ later.isDirectory path = true := by
  unfold ensureDirectory at ensured
  split at ensured
  · next changed created =>
    cases ensured
    exact createDirectory_differs created
  · split at ensured
    · next isDirectory =>
      cases ensured
      exact ⟨.refl, isDirectory⟩
    · cases ensured

/-- Where there is a directory, none is made. -/
theorem ensureDirectory_of_isDirectory (isDirectory : volume.isDirectory path = true) :
    volume.ensureDirectory path = .ok volume := by
  unfold ensureDirectory
  split
  · next changed created =>
    obtain ⟨location, located, -, found⟩ := isDirectory_iff.mp isDirectory
    obtain ⟨other, locatedToo, -, missing, -⟩ := createDirectory_eq_ok.mp created
    rw [locateUnslashed_of_locate located] at locatedToo
    cases locatedToo
    rw [found] at missing
    cases missing
  · rw [if_pos isDirectory]

/-- The path is that of a directory; the empty path stands for the one that all paths start at. -/
def HasDirectory (volume : Volume) (path : String) : Prop :=
  path = "" ∨ volume.isDirectory path = true

theorem Keeps.hasDirectory (keeps : volume.Keeps later) (found : volume.HasDirectory path) :
    later.HasDirectory path :=
  found.imp_right keeps.isDirectory

/-- **Making directories makes only those that the path lies in.** -/
theorem createWithin_differs :
    ∀ {limit : Nat} {volume later : Volume} {path : String} {result : Except FileFault Unit},
      createWithin limit volume path = (result, later) →
        Differs [] (IsWithin path) volume later ∧ (result = .ok () → later.HasDirectory path)
  | 0, volume, later, path, result, made => by
    cases made
    exact ⟨.refl, fun failed => by cases failed⟩
  | limit + 1, volume, later, path, result, made => by
    have own {before after : Volume} (ensured : before.ensureDirectory path = .ok after) :
        Differs [] (IsWithin path) before after ∧ after.HasDirectory path := by
      obtain ⟨differs, isDirectory⟩ := ensureDirectory_differs ensured
      refine ⟨differs.mono fun other same => ?_, Or.inr isDirectory⟩
      rw [same]
      exact .refl
    rw [createWithin] at made
    split at made
    · next empty =>
      cases made
      exact ⟨.refl, fun _ => Or.inl (String.isEmpty_iff.mp empty)⟩
    · split at made
      · next changed ensured =>
        cases made
        exact ⟨(own ensured).1, fun _ => (own ensured).2⟩
      · split at made
        · cases made
          exact ⟨.refl, fun failed => by cases failed⟩
        · next parent parentFound =>
          have outer {result : Except FileFault Unit} {changed : Volume}
              (outerMade : createWithin limit volume parent = (result, changed)) :
              Differs [] (IsWithin path) volume changed :=
            (createWithin_differs outerMade).1.mono fun other within =>
              Relation.ReflTransGen.head parentFound within
          split at made
          · next fault changed outerMade =>
            cases made
            exact ⟨outer outerMade, fun failed => by cases failed⟩
          · next changed outerMade =>
            split at made
            · next final ensured =>
              cases made
              exact ⟨(outer outerMade).append (own ensured).1, fun _ => (own ensured).2⟩
            · cases made
              exact ⟨outer outerMade, fun failed => by cases failed⟩
      · cases made
        exact ⟨.refl, fun failed => by cases failed⟩

theorem createDirectories_differs {result : Except FileFault Unit}
    (made : volume.createDirectories path = (result, later)) :
    Differs [] (IsWithin path) volume later ∧ (result = .ok () → later.HasDirectory path) :=
  createWithin_differs made

/-- **Where there is a directory, none is made.** -/
theorem createDirectories_of_hasDirectory (found : volume.HasDirectory path) :
    volume.createDirectories path = (.ok (), volume) := by
  unfold createDirectories
  rw [createWithin]
  split
  · rfl
  · next present =>
    rcases found with empty | isDirectory
    · exact absurd (String.isEmpty_iff.mpr empty) present
    · rw [ensureDirectory_of_isDirectory isDirectory]

/-! ### Texts -/

/-- A text is written exactly where the path leads, unless there is a directory. -/
theorem write_eq_ok {item : Item} :
    volume.write path item = .ok later ↔
      ∃ location, volume.locateUnslashed path = .ok location ∧ path.toList.getLast? ≠ some '/' ∧
        IsNameable location ∧ volume.item? location ≠ some .directory ∧
        later = volume.put location item := by
  unfold write
  cases located : volume.locateUnslashed path with
  | error fault => simp
  | ok location =>
    simp only [Except.ok.injEq, exists_eq_left']
    split
    · next slashed => simp [slashed]
    · next unslashed =>
      cases looked : volume.lookUp location with
      | error fault =>
        have none (found : Option Item) : ¬ volume.lookUp location = .ok found := by simp [looked]
        have unnameable : ¬ IsNameable location := fun nameable =>
          none _ (lookUp_eq_ok.mpr ⟨nameable, rfl⟩)
        simp [unnameable]
      | ok found =>
        obtain ⟨nameable, rfl⟩ := lookUp_eq_ok.mp looked
        cases held : volume.item? location with
        | none => simp [unslashed, nameable, eq_comm]
        | some item => cases item <;> simp [unslashed, nameable, eq_comm]

/-- A text that is put where there is no directory is all that is new. -/
theorem differs_put {text : String} (free : volume.item? location ≠ some .directory) :
    Differs [(location, text)] made volume (volume.put location (.text text)) := by
  have below : location ≠ [] := by
    rintro rfl
    exact free item?_root
  have single (other : Location) : [(location, text)].reverse.lookup other =
      if other = location then some text else none := by
    rw [List.reverse_singleton, List.lookup_cons, List.lookup_nil]
    by_cases same : other = location
    · rw [if_pos same, beq_iff_eq.mpr same]
    · rw [if_neg same, beq_eq_false_iff_ne.mpr same]
  refine ⟨keeps_put free, fun other contents found => ?_, fun other unwritten => ?_⟩
  · rw [single] at found
    split at found
    · next same =>
      cases found
      rw [same, item?_put_self below]
    · cases found
  · rw [single] at unwritten
    split at unwritten
    · cases unwritten
    · next different => exact Or.inl (item?_put_of_ne different)

end Volume

end ExternBindings.Files
