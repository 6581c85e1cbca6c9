/-
**Making directories and files below a directory.**

A volume grows below a directory: directories are made there whose names hold no dot, and files are
written whose names hold one. So no file is in the way of a directory, and no directory in that of a
file.

* `Volume.HasGrown` — nothing but what is below the directory has changed, and what is there is a
  directory exactly if its name holds no dot; what is put there keeps this (`HasGrown.put`);
* `HasGrown.ensureDirectory_cases` — what making one directory comes to, and
  `HasGrown.createWithin_cases` — by induction on the names: **directories below the directory can
  be made, unless a name or a path is too long**;
* `HasGrown.write_cases` — **and so can files in them.**
-/

import ExternBindings.Proofs.Files.NamePaths
import Mathlib.Data.List.Induction

namespace ExternBindings.Files.Volume

variable {volume opened current : Volume} {directory path name : String} {base : Location}
  {names : List String}

/-! ### Names that lead to directories -/

/-- Names lead from the location to a directory. -/
structure LeadsOn (volume : Volume) (base : Location) (names : List String) : Prop where
  followed : volume.follow base names = .ok (base ++ names)
  isDirectory : volume.item? (base ++ names) = some .directory

theorem LeadsTo.leadsOn_nil (leads : volume.LeadsTo directory base) : volume.LeadsOn base [] where
  followed := congrArg Except.ok (List.append_nil base).symm
  isDirectory := (congrArg volume.item? (List.append_nil base)).trans leads.isDirectory

section Last

variable (given : directory ≠ "") (proper : ∀ other ∈ names ++ [name], IsPathName other)

include given proper

/-- No slash is at the end of a path of names. -/
theorem locateUnslashed_pathTo (volume : Volume) :
    volume.locateUnslashed (pathTo directory (names ++ [name])) =
      volume.locate (pathTo directory (names ++ [name])) := by
  obtain ⟨front, last, whole, isName⟩ :=
    exists_segments_concat given (isPlainName_of_mem_segments (by simp) proper)
  exact locateUnslashed_eq_locate whole isName

theorem getLast?_pathTo : (pathTo directory (names ++ [name])).toList.getLast? ≠ some '/' := by
  obtain ⟨front, last, whole, isName⟩ :=
    exists_segments_concat given (isPlainName_of_mem_segments (by simp) proper)
  exact getLast?_ne_slash whole isName

end Last

/-- Names lead on where their path leads to a directory. -/
theorem leadsOn_of_locate (below : volume.locate directory = .ok base) (present : names ≠ [])
    (proper : ∀ name ∈ names, IsPathName name)
    (located : volume.locate (pathTo directory names) = .ok (base ++ names))
    (isDirectory : volume.item? (base ++ names) = some .directory) :
    volume.LeadsOn base names := by
  refine ⟨?_, isDirectory⟩
  rcases locate_pathTo below present proper with long | followed
  · rw [long] at located
    cases located
  · exact followed.symm.trans located

theorem find_of_locate {location : Location} (located : volume.locate path = .ok location) :
    volume.find path = volume.lookUp location := by
  unfold find
  rw [located]

theorem find_of_locate_error {fault : FileFault} (failed : volume.locate path = .error fault) :
    volume.find path = .error fault := by
  unfold find
  rw [failed]

section Fails

variable {fault : FileFault} (same : volume.locateUnslashed path = volume.locate path)
  (failed : volume.find path = .error fault)

include same failed

/-- No directory is made where nothing can be looked up. -/
theorem ensureDirectory_of_error : volume.ensureDirectory path = .error fault := by
  have absent : volume.isDirectory path = false := by
    unfold isDirectory find?
    rw [failed]
    rfl
  have fails : volume.createDirectory path = .error fault := by
    unfold createDirectory
    rw [same]
    cases located : volume.locate path with
    | error missing =>
      rw [find_of_locate_error located, Except.error.injEq] at failed
      rw [failed]
    | ok location =>
      rw [find_of_locate located] at failed
      dsimp only
      rw [failed]
  unfold ensureDirectory
  rw [fails]
  exact if_neg (Bool.eq_false_iff.mp absent)

/-- Neither is a file written there. -/
theorem write_of_error {item : Item} (unslashed : path.toList.getLast? ≠ some '/') :
    volume.write path item = .error fault := by
  unfold write
  rw [same]
  cases located : volume.locate path with
  | error missing =>
    rw [find_of_locate_error located, Except.error.injEq] at failed
    rw [failed]
  | ok location =>
    rw [find_of_locate located] at failed
    dsimp only
    rw [if_neg unslashed, failed]

end Fails

/-! ### Volumes that grow below a directory -/

/-- The volume has grown below a location: elsewhere nothing has changed, and what is below the
location is a directory exactly if there is no dot in its name. -/
structure HasGrown (base : Location) (opened current : Volume) : Prop where
  keeps : opened.Keeps current
  others : ∀ location, current.item? location ≠ opened.item? location →
    ∃ names, names ≠ [] ∧ location = base ++ names
  kinds : ∀ names name item, current.item? (base ++ (names ++ [name])) = some item →
    (item.isDirectory = true ↔ '.' ∉ name.toList)

/-- A volume with nothing below the location can grow there. -/
theorem hasGrown_self (none : ∀ names, names ≠ [] → opened.item? (base ++ names) = none) :
    HasGrown base opened opened where
  keeps := .refl
  others location changed := absurd rfl changed
  kinds names name item found := by
    rw [none _ (by simp)] at found
    cases found

namespace HasGrown

variable (grown : HasGrown base opened current)

include grown

/-- **A volume goes on growing by what is put below the location.** -/
theorem put {item : Item} (kind : item.isDirectory = true ↔ '.' ∉ name.toList)
    (free : current.item? (base ++ (names ++ [name])) ≠ some .directory) :
    HasGrown base opened (current.put (base ++ (names ++ [name])) item) where
  keeps := grown.keeps.trans (keeps_put free)
  others location changed := by
    by_cases same : location = base ++ (names ++ [name])
    · exact ⟨_, by simp, same⟩
    · rw [item?_put_of_ne same] at changed
      exact grown.others location changed
  kinds namesToo nameToo itemToo found := by
    by_cases same : base ++ (namesToo ++ [nameToo]) = base ++ (names ++ [name])
    · rw [same, item?_put_self (by simp)] at found
      cases found
      rw [List.append_cancel_left_eq] at same
      obtain ⟨-, sameName⟩ := List.append_inj' same rfl
      obtain rfl : nameToo = name := List.singleton_inj.mp sameName
      exact kind
    · rw [item?_put_of_ne same] at found
      exact grown.kinds namesToo nameToo itemToo found

variable (leads : opened.LeadsTo directory base)

include leads

/-- Nothing but directories has the name of a directory. -/
theorem item?_eq_directory (inner : ∀ name ∈ names, IsDirectoryName name) {item : Item}
    (found : current.item? (base ++ names) = some item) : item = .directory := by
  rcases List.eq_nil_or_concat' names with rfl | ⟨front, last, rfl⟩
  · rw [List.append_nil, grown.keeps.directories base leads.isDirectory] at found
    exact (Option.some.inj found).symm
  · have undotted := (inner last (List.mem_append_right _ (List.mem_singleton_self last))).undotted
    have isDirectory := (grown.kinds front last item found).mpr undotted
    cases item with
    | directory => rfl
    | text contents => cases isDirectory
    | binary bytes => cases isDirectory

/-- A step from where names of directories lead can only fail since no directory is there yet, or
since its name is too long. -/
theorem step_cases (inner : ∀ name ∈ names, IsDirectoryName name) (plain : IsPlainName name) :
    current.step (base ++ names) name = .ok (base ++ (names ++ [name])) ∨
      current.step (base ++ names) name = .error .nameTooLong ∨
      current.step (base ++ names) name = .error .notFound ∧
        current.item? (base ++ names) = none := by
  rcases current.lookUp_cases (base ++ names) with long | ⟨nameable, looked⟩
  · right; left
    unfold step
    rw [long]
  · cases found : current.item? (base ++ names) with
    | none =>
      right; right
      unfold step
      rw [looked, found]
      exact ⟨rfl, rfl⟩
    | some item =>
      obtain rfl := grown.item?_eq_directory leads inner found
      left
      rw [← List.append_assoc, ← stepTo_plain plain]
      exact step_eq_ok.mpr ⟨nameable, found, rfl⟩

/-- The names of directories lead on, or a directory is not there yet, or a name is too long. -/
theorem follow_cases (inner : ∀ name ∈ names, IsDirectoryName name) :
    current.follow base names = .ok (base ++ names) ∨
      current.follow base names = .error .nameTooLong ∨
      current.follow base names = .error .notFound := by
  induction names using List.reverseRecOn with
  | nil => exact Or.inl (congrArg Except.ok (List.append_nil base).symm)
  | append_singleton front last hypothesis =>
    rw [List.forall_mem_append, List.forall_mem_singleton] at inner
    rcases hypothesis inner.1 with followed | long | missing
    · rw [follow_concat followed]
      exact (grown.step_cases leads inner.1 inner.2.plain).imp_right (Or.imp_right And.left)
    · exact Or.inr (Or.inl (follow_append_of_error long))
    · exact Or.inr (Or.inr (follow_append_of_error missing))

/-- The path of a name behind names of directories leads on, or a directory is not there yet, or a
name or the path is too long. -/
theorem find_cases (inner : ∀ name ∈ names, IsDirectoryName name) (named : IsPathName name) :
    current.locate (pathTo directory (names ++ [name])) = .ok (base ++ (names ++ [name])) ∧
        IsNameable (base ++ (names ++ [name])) ∨
      current.find (pathTo directory (names ++ [name])) = .error .nameTooLong ∨
      current.find (pathTo directory (names ++ [name])) = .error .notFound ∧
        ¬ current.LeadsOn base names := by
  have reached : current.follow base (names ++ [name]) = .ok (base ++ (names ++ [name])) ∨
      current.follow base (names ++ [name]) = .error .nameTooLong ∨
      current.follow base (names ++ [name]) = .error .notFound ∧ ¬ current.LeadsOn base names := by
    rcases grown.follow_cases leads inner with followed | long | missing
    · rw [follow_concat followed]
      refine (grown.step_cases leads inner named.plain).imp_right (Or.imp_right ?_)
      rintro ⟨missing, absent⟩
      refine ⟨missing, fun there => ?_⟩
      rw [there.isDirectory] at absent
      cases absent
    · exact Or.inr (Or.inl (follow_append_of_error long))
    · refine Or.inr (Or.inr ⟨follow_append_of_error missing, fun there => ?_⟩)
      rw [there.followed] at missing
      cases missing
  rcases locate_pathTo (grown.keeps.locate leads.located) (by simp)
    (forall_isPathName inner named) with long | located
  · exact Or.inr (Or.inl (find_of_locate_error long))
  · rcases reached with followed | long | ⟨missing, absent⟩
    · have leadsThere := located.trans followed
      rcases current.lookUp_cases (base ++ (names ++ [name])) with long | ⟨nameable, -⟩
      · exact Or.inr (Or.inl ((find_of_locate leadsThere).trans long))
      · exact Or.inl ⟨leadsThere, nameable⟩
    · exact Or.inr (Or.inl (find_of_locate_error (located.trans long)))
    · exact Or.inr (Or.inr ⟨find_of_locate_error (located.trans missing), absent⟩)

/-- **Making one directory**: names lead there then, unless they did not lead to the directory that
it lies in, or a name or the path is too long. -/
theorem ensureDirectory_cases (inner : ∀ name ∈ names, IsDirectoryName name)
    (named : IsDirectoryName name) :
    (∃ later, current.ensureDirectory (pathTo directory (names ++ [name])) = .ok later ∧
        HasGrown base opened later ∧ later.LeadsOn base (names ++ [name])) ∨
      current.ensureDirectory (pathTo directory (names ++ [name])) = .error .nameTooLong ∨
      current.ensureDirectory (pathTo directory (names ++ [name])) = .error .notFound ∧
        ¬ current.LeadsOn base names := by
  have proper := forall_isPathName inner named.toIsPathName
  have same := current.locateUnslashed_pathTo (ne_empty_of_locate leads.located) proper
  rcases grown.find_cases leads inner named.toIsPathName with
    ⟨located, nameable⟩ | long | ⟨missing, absent⟩
  · left
    cases found : current.item? (base ++ (names ++ [name])) with
    | none =>
      have free : current.item? (base ++ (names ++ [name])) ≠ some .directory := by
        rw [found]
        rintro ⟨⟩
      have created := createDirectory_eq_ok.mpr ⟨_, same.trans located, nameable, found, rfl⟩
      have kind : Item.directory.isDirectory = true ↔ '.' ∉ name.toList :=
        ⟨fun _ => named.undotted, fun _ => rfl⟩
      have grownLater := grown.put kind free
      refine ⟨_, ?_, grownLater, ?_⟩
      · unfold ensureDirectory
        rw [created]
      · exact leadsOn_of_locate (grownLater.keeps.locate leads.located) (by simp) proper
          ((keeps_put free).locate located) (item?_put_self (by simp))
    | some item =>
      obtain rfl := grown.item?_eq_directory leads
        (List.forall_mem_append.mpr ⟨inner, List.forall_mem_singleton.mpr named⟩) found
      refine ⟨current, ?_, grown, ?_⟩
      · exact ensureDirectory_of_isDirectory (isDirectory_iff.mpr ⟨_, located, nameable, found⟩)
      · exact leadsOn_of_locate (grown.keeps.locate leads.located) (by simp) proper located found
  · exact Or.inr (Or.inl (ensureDirectory_of_error same long))
  · exact Or.inr (Or.inr ⟨ensureDirectory_of_error same missing, absent⟩)

omit grown in
/-- **Making directories below the directory**: names lead there then, unless a name or a path is
too long. The limit is not met, since there is one directory for each name. -/
theorem createWithin_cases (present : names ≠ []) (inner : ∀ name ∈ names, IsDirectoryName name) :
    ∀ {limit : Nat} {current : Volume}, names.length ≤ limit → HasGrown base opened current →
      ∃ result later, createWithin limit current (pathTo directory names) = (result, later) ∧
        HasGrown base opened later ∧
        (result = .ok () ∧ later.LeadsOn base names ∨ result = .error .nameTooLong) := by
  have given := ne_empty_of_locate leads.located
  induction names using List.reverseRecOn with
  | nil => cases present rfl
  | append_singleton front name hypothesis =>
    intro limit current enough grown
    rw [List.forall_mem_append, List.forall_mem_singleton] at inner
    rw [List.length_append, List.length_singleton] at enough
    obtain ⟨limit, rfl⟩ := Nat.exists_eq_add_of_le' (Nat.le_of_add_left_le enough)
    have proper : ∀ other ∈ front, IsPathName other :=
      fun other member => (inner.1 other member).toIsPathName
    have written := pathTo_ne_empty given present (forall_isPathName inner.1 inner.2.toIsPathName)
    rw [createWithin, if_neg (by rwa [String.isEmpty_iff])]
    rcases grown.ensureDirectory_cases leads inner.1 inner.2 with
      ⟨later, made, grownLater, leadsOn⟩ | long | ⟨missing, absent⟩
    · rw [made]
      exact ⟨_, later, rfl, grownLater, Or.inl ⟨rfl, leadsOn⟩⟩
    · rw [long]
      exact ⟨_, current, rfl, grown, Or.inr rfl⟩
    · -- a first name is looked up in the directory itself, which is there
      have outside : front ≠ [] := by
        rintro rfl
        exact absent (grown.keeps.leadsTo leads).leadsOn_nil
      rw [missing]
      dsimp only
      rw [parentPath?_pathTo given outside proper inner.2.toIsPathName]
      dsimp only
      obtain ⟨result, outer, made, grownOuter, outcome⟩ :=
        hypothesis outside inner.1 (Nat.le_of_succ_le_succ enough) grown
      rw [made]
      rcases outcome with ⟨rfl, leadsOn⟩ | rfl
      · dsimp only
        rcases grownOuter.ensureDirectory_cases leads inner.1 inner.2 with
          ⟨later, made, grownLater, leadsOnToo⟩ | long | ⟨-, absent⟩
        · rw [made]
          exact ⟨_, later, rfl, grownLater, Or.inl ⟨rfl, leadsOnToo⟩⟩
        · rw [long]
          exact ⟨_, outer, rfl, grownOuter, Or.inr rfl⟩
        · exact absurd leadsOn absent
      · exact ⟨_, outer, rfl, grownOuter, Or.inr rfl⟩

/-- **Writing a file** into a directory that names lead to is possible, unless a name or the path is
too long. -/
theorem write_cases (inner : ∀ name ∈ names, IsDirectoryName name)
    (leadsOn : current.LeadsOn base names) (named : IsFileName name) (text : String) :
    (∃ later, current.write (pathTo directory (names ++ [name])) (.text text) = .ok later ∧
        HasGrown base opened later) ∨
      current.write (pathTo directory (names ++ [name])) (.text text) = .error .nameTooLong := by
  have given := ne_empty_of_locate leads.located
  have proper := forall_isPathName inner named.toIsPathName
  have same := current.locateUnslashed_pathTo given proper
  have unslashed := getLast?_pathTo given proper
  rcases grown.find_cases leads inner named.toIsPathName with
    ⟨located, nameable⟩ | long | ⟨-, absent⟩
  · left
    have free : current.item? (base ++ (names ++ [name])) ≠ some .directory := fun found =>
      (grown.kinds names name .directory found).mp rfl named.dotted
    have kind : (Item.text text).isDirectory = true ↔ '.' ∉ name.toList :=
      ⟨fun isDirectory => (by cases isDirectory), fun undotted => absurd named.dotted undotted⟩
    exact ⟨_, write_eq_ok.mpr ⟨_, same.trans located, unslashed, nameable, free, rfl⟩,
      grown.put kind free⟩
  · exact Or.inr (write_of_error same long unslashed)
  · exact absurd leadsOn absent

/-- **Making the directory that a file lies in** is possible, unless a name or a path is too
long. -/
theorem createDirectories_cases (inner : ∀ name ∈ names, IsDirectoryName name)
    (named : IsPathName name) :
    ∃ parent result later, parentPath? (pathTo directory (names ++ [name])) = some parent ∧
      current.createDirectories parent = (result, later) ∧ HasGrown base opened later ∧
      (result = .ok () ∧ later.LeadsOn base names ∨ result = .error .nameTooLong) := by
  have given := ne_empty_of_locate leads.located
  by_cases outermost : names = []
  · subst outermost
    have leadsLater := grown.keeps.leadsTo leads
    obtain ⟨parent, found, there⟩ := leadsLater.exists_parent named
    exact ⟨parent, _, current, found, createDirectories_of_hasDirectory there, grown,
      Or.inl ⟨rfl, leadsLater.leadsOn_nil⟩⟩
  · have proper : ∀ other ∈ names, IsPathName other :=
      fun other member => (inner other member).toIsPathName
    obtain ⟨outer, -, -, cut⟩ := exists_segments_pathTo given
    have enough := Text.length_segments_le '/' (pathTo directory names)
    rw [(cut outermost proper).2, List.length_append] at enough
    obtain ⟨result, later, made, grownLater, outcome⟩ :=
      createWithin_cases leads outermost inner (Nat.le_of_add_left_le enough) grown
    exact ⟨_, result, later, parentPath?_pathTo given outermost proper named, made, grownLater,
      outcome⟩

end HasGrown

end ExternBindings.Files.Volume
