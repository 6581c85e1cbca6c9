/-
**Where paths lead in a volume.**

* `Volume.Keeps` — a later volume that still has every directory: a path that leads somewhere leads
  to the same location later (`Keeps.locate`);
* `follow_plain` — names lead to the location that they are;
* `locate_joinPath` — so a name that is joined to a directory leads below that directory.
-/

import ExternBindings.Files.Volume
import ExternBindings.Proofs.Text.Joined

namespace ExternBindings.Files

/-- A segment of a path that names something: neither a step up nor one to the same directory. -/
def IsPlainName (segment : String) : Prop :=
  segment ≠ "" ∧ segment ≠ "." ∧ segment ≠ ".."

/-- A segment of a path that means nothing. -/
def IsNeutral (segment : String) : Prop :=
  segment = "" ∨ segment = "."

namespace Volume

variable {volume later : Volume} {here there location : Location} {path : String}

/-! ### Items -/

/-- The last name of a location is not too long. -/
def IsNameable (location : Location) : Prop :=
  (location.getLast?.getD "").utf8ByteSize ≤ nameLimit

theorem lookUp_eq_ok {found : Option Item} :
    volume.lookUp location = .ok found ↔ IsNameable location ∧ volume.item? location = found := by
  unfold lookUp IsNameable
  split
  · next long => simp [Nat.not_le.mpr long]
  · next short => simp [Nat.not_lt.mp short]

theorem lookUp_cases (volume : Volume) (location : Location) :
    volume.lookUp location = .error .nameTooLong ∨
      IsNameable location ∧ volume.lookUp location = .ok (volume.item? location) := by
  by_cases nameable : IsNameable location
  · exact Or.inr ⟨nameable, lookUp_eq_ok.mpr ⟨nameable, rfl⟩⟩
  · exact Or.inl (if_pos (Nat.not_le.mp nameable))

theorem item?_root : volume.item? [] = some .directory :=
  rfl

theorem lookup_filter_ne {items : List (Location × Item)} (different : there ≠ here) :
    (items.filter fun entry => entry.1 ≠ here).lookup there = items.lookup there := by
  induction items with
  | nil => rfl
  | cons entry rest hypothesis =>
    obtain ⟨place, item⟩ := entry
    by_cases removed : place = here
    · subst removed
      rw [List.filter_cons_of_neg (by simp), hypothesis, List.lookup_cons,
        beq_eq_false_iff_ne.mpr different]
    · rw [List.filter_cons_of_pos (by simpa using removed), List.lookup_cons, List.lookup_cons,
        hypothesis]

theorem item?_put_self {item : Item} (below : location ≠ []) :
    (volume.put location item).item? location = some item := by
  unfold item? put
  rw [if_neg (by simpa using below), List.lookup_cons_self]

theorem item?_put_of_ne {item : Item} (different : there ≠ location) :
    (volume.put location item).item? there = volume.item? there := by
  unfold item? put erase
  split
  · rfl
  · rw [List.lookup_cons, beq_eq_false_iff_ne.mpr different]
    exact lookup_filter_ne different

/-! ### Steps -/

/-- The location that a segment means in a directory. -/
def stepTo (here : Location) (segment : String) : Location :=
  if segment = "" ∨ segment = "." then here
  else if segment = ".." then here.dropLast
  else here ++ [segment]

/-- A step is possible exactly from a directory. -/
theorem step_eq_ok {segment : String} :
    volume.step here segment = .ok there ↔
      IsNameable here ∧ volume.item? here = some .directory ∧ there = stepTo here segment := by
  rw [← and_assoc, ← lookUp_eq_ok]
  unfold step stepTo
  split
  · next fault failed => simp [failed]
  · next missing => simp [missing]
  · next contents isText => simp [isText]
  · next bytes isBinary => simp [isBinary]
  · next isDirectory =>
    rw [isDirectory]
    simp only [true_and]
    split
    · simp [eq_comm]
    · split <;> simp [eq_comm]

theorem stepTo_plain {segment : String} (plain : IsPlainName segment) :
    stepTo here segment = here ++ [segment] := by
  unfold stepTo
  rw [if_neg (not_or.mpr ⟨plain.1, plain.2.1⟩), if_neg plain.2.2]

theorem stepTo_neutral {segment : String} (neutral : IsNeutral segment) :
    stepTo here segment = here :=
  if_pos neutral

theorem follow_cons_eq_ok {segment : String} {rest : List String} :
    volume.follow here (segment :: rest) = .ok there ↔
      ∃ next, volume.step here segment = .ok next ∧ volume.follow next rest = .ok there := by
  rw [follow]
  cases volume.step here segment <;> simp

theorem follow_append_eq_ok {front rest : List String} :
    volume.follow here (front ++ rest) = .ok there ↔
      ∃ middle, volume.follow here front = .ok middle ∧ volume.follow middle rest = .ok there := by
  induction front generalizing here with
  | nil => simp [follow]
  | cons segment front hypothesis =>
    rw [List.cons_append]
    simp only [follow_cons_eq_ok, hypothesis]
    constructor
    · rintro ⟨next, stepped, middle, followed, onward⟩
      exact ⟨middle, ⟨next, stepped, followed⟩, onward⟩
    · rintro ⟨middle, ⟨next, stepped, followed⟩, onward⟩
      exact ⟨next, stepped, middle, followed, onward⟩

theorem follow_append {here : Location} {front rest : List String} {middle : Location}
    (followed : volume.follow here front = .ok middle) :
    volume.follow here (front ++ rest) = volume.follow middle rest := by
  induction front generalizing here with
  | nil =>
    cases followed
    rfl
  | cons segment front hypothesis =>
    obtain ⟨next, stepped, onward⟩ := follow_cons_eq_ok.mp followed
    rw [List.cons_append, follow, stepped]
    exact hypothesis onward

theorem follow_concat {names : List String} {name : String}
    (followed : volume.follow here names = .ok there) :
    volume.follow here (names ++ [name]) = volume.step there name := by
  rw [follow_append followed, follow]
  cases volume.step there name <;> rfl

theorem follow_append_of_error {here : Location} {front rest : List String} {fault : FileFault}
    (failed : volume.follow here front = .error fault) :
    volume.follow here (front ++ rest) = .error fault := by
  induction front generalizing here with
  | nil => cases failed
  | cons segment front hypothesis =>
    rw [follow] at failed
    rw [List.cons_append, follow]
    cases stepped : volume.step here segment with
    | error different =>
      rw [stepped] at failed
      exact failed
    | ok next =>
      rw [stepped] at failed
      exact hypothesis failed

/-- **Names lead to the location that they are.** -/
theorem follow_plain {names : List String} (plain : ∀ name ∈ names, IsPlainName name)
    (followed : volume.follow here names = .ok there) : there = here ++ names := by
  induction names generalizing here with
  | nil =>
    cases followed
    exact (List.append_nil _).symm
  | cons name rest hypothesis =>
    rw [List.forall_mem_cons] at plain
    obtain ⟨next, stepped, followed⟩ := follow_cons_eq_ok.mp followed
    obtain ⟨-, -, rfl⟩ := step_eq_ok.mp stepped
    rw [hypothesis plain.2 followed, stepTo_plain plain.1, List.append_assoc, List.singleton_append]

/-- What means nothing leads from a directory to itself. -/
theorem follow_neutral {segments : List String} (neutral : ∀ segment ∈ segments, IsNeutral segment)
    (followed : volume.follow here segments = .ok there) : there = here := by
  induction segments generalizing here with
  | nil =>
    cases followed
    rfl
  | cons segment rest hypothesis =>
    rw [List.forall_mem_cons] at neutral
    obtain ⟨next, stepped, followed⟩ := follow_cons_eq_ok.mp followed
    obtain ⟨-, -, rfl⟩ := step_eq_ok.mp stepped
    rw [hypothesis neutral.2 followed, stepTo_neutral neutral.1]

theorem follow_neutral_of_directory (nameable : IsNameable here)
    (isDirectory : volume.item? here = some .directory) {segments : List String}
    (neutral : ∀ segment ∈ segments, IsNeutral segment) :
    volume.follow here segments = .ok here := by
  induction segments with
  | nil => rfl
  | cons segment rest hypothesis =>
    rw [List.forall_mem_cons] at neutral
    exact follow_cons_eq_ok.mpr ⟨here, step_eq_ok.mpr
      ⟨nameable, isDirectory, (stepTo_neutral neutral.1).symm⟩, hypothesis neutral.2⟩

/-! ### Paths -/

/-- The location that a path starts at. -/
def startOf (volume : Volume) (path : String) : Location :=
  if isAbsolute path then [] else volume.workingDirectory

theorem locateThrough_eq_ok {segments : List String} :
    volume.locateThrough path segments = .ok location ↔
      pathFault? path = none ∧ volume.follow (volume.startOf path) segments = .ok location := by
  unfold locateThrough startOf
  cases pathFault? path <;> simp

theorem find_eq_ok {found : Option Item} :
    volume.find path = .ok found ↔
      ∃ location, volume.locate path = .ok location ∧ IsNameable location ∧
        volume.item? location = found := by
  unfold find
  cases located : volume.locate path with
  | error fault => simp
  | ok location => simp [lookUp_eq_ok]

theorem find?_eq_some {item : Item} :
    volume.find? path = some item ↔
      ∃ location, volume.locate path = .ok location ∧ IsNameable location ∧
        volume.item? location = some item := by
  rw [← find_eq_ok]
  unfold find?
  cases volume.find path <;> simp

theorem isDirectory_iff :
    volume.isDirectory path = true ↔
      ∃ location, volume.locate path = .ok location ∧ IsNameable location ∧
        volume.item? location = some .directory := by
  rw [← find?_eq_some]
  unfold isDirectory
  rw [Option.any_eq_true]
  constructor
  · rintro ⟨item, found, isDirectory⟩
    cases item with
    | directory => exact found
    | text contents => cases isDirectory
    | binary bytes => cases isDirectory
  · exact fun found => ⟨_, found, rfl⟩

/-- The path leads to a directory at the location. -/
structure LeadsTo (volume : Volume) (path : String) (location : Location) : Prop where
  located : volume.locate path = .ok location
  nameable : IsNameable location
  isDirectory : volume.item? location = some .directory

theorem isDirectory_iff_leadsTo :
    volume.isDirectory path = true ↔ ∃ location, volume.LeadsTo path location :=
  isDirectory_iff.trans
    ⟨fun ⟨location, located, nameable, found⟩ => ⟨location, located, nameable, found⟩,
      fun ⟨location, leads⟩ => ⟨location, leads.located, leads.nameable, leads.isDirectory⟩⟩

theorem isFile_iff :
    volume.isFile path = true ↔
      ∃ location item, volume.locate path = .ok location ∧ IsNameable location ∧
        volume.item? location = some item ∧ item.isDirectory = false := by
  unfold isFile
  rw [Option.any_eq_true]
  constructor
  · rintro ⟨item, found, isFile⟩
    obtain ⟨location, located, nameable, found⟩ := find?_eq_some.mp found
    exact ⟨location, item, located, nameable, found, by simpa using isFile⟩
  · rintro ⟨location, item, located, nameable, found, isFile⟩
    exact ⟨item, find?_eq_some.mpr ⟨location, located, nameable, found⟩, by simpa using isFile⟩

theorem pathExists_iff :
    volume.pathExists path = true ↔
      ∃ location item, volume.locate path = .ok location ∧ IsNameable location ∧
        volume.item? location = some item := by
  unfold pathExists
  rw [Option.isSome_iff_exists]
  constructor
  · rintro ⟨item, found⟩
    obtain ⟨location, located, nameable, found⟩ := find?_eq_some.mp found
    exact ⟨location, item, located, nameable, found⟩
  · rintro ⟨location, item, located, nameable, found⟩
    exact ⟨item, find?_eq_some.mpr ⟨location, located, nameable, found⟩⟩

theorem readText_eq_ok {text : String} :
    volume.readText path = .ok text ↔
      ∃ location, volume.locate path = .ok location ∧ IsNameable location ∧
        volume.item? location = some (.text text) := by
  rw [← find_eq_ok]
  unfold readText
  split
  · next fault failed => simp [failed]
  · next missing => simp [missing]
  · next isDirectory => simp [isDirectory]
  · next bytes isBinary => simp [isBinary]
  · next contents isText => simp [isText]

/-! ### Later volumes -/

/-- The later volume starts at the same directory and still has every directory. -/
structure Keeps (volume later : Volume) : Prop where
  start : later.workingDirectory = volume.workingDirectory
  directories : ∀ location,
    volume.item? location = some .directory → later.item? location = some .directory

namespace Keeps

theorem refl : volume.Keeps volume :=
  ⟨rfl, fun _ found => found⟩

theorem trans {final : Volume} (keeps : volume.Keeps later) (keepsOn : later.Keeps final) :
    volume.Keeps final :=
  ⟨keepsOn.start.trans keeps.start,
    fun location found => keepsOn.directories location (keeps.directories location found)⟩

variable (keeps : volume.Keeps later)

include keeps

theorem startOf_eq (path : String) : later.startOf path = volume.startOf path := by
  unfold startOf
  rw [keeps.start]

theorem follow {segments : List String} (followed : volume.follow here segments = .ok there) :
    later.follow here segments = .ok there := by
  induction segments generalizing here with
  | nil => exact followed
  | cons segment rest hypothesis =>
    obtain ⟨next, stepped, followed⟩ := follow_cons_eq_ok.mp followed
    obtain ⟨nameable, isDirectory, same⟩ := step_eq_ok.mp stepped
    exact follow_cons_eq_ok.mpr ⟨next,
      step_eq_ok.mpr ⟨nameable, keeps.directories here isDirectory, same⟩, hypothesis followed⟩

theorem locateThrough {segments : List String}
    (located : volume.locateThrough path segments = .ok location) :
    later.locateThrough path segments = .ok location := by
  obtain ⟨sound, followed⟩ := locateThrough_eq_ok.mp located
  refine locateThrough_eq_ok.mpr ⟨sound, ?_⟩
  rw [keeps.startOf_eq]
  exact keeps.follow followed

/-- **A path leads to the same location later.** -/
theorem locate (located : volume.locate path = .ok location) : later.locate path = .ok location :=
  keeps.locateThrough located

theorem isDirectory (found : volume.isDirectory path = true) : later.isDirectory path = true := by
  obtain ⟨location, located, nameable, found⟩ := isDirectory_iff.mp found
  exact isDirectory_iff.mpr ⟨location, keeps.locate located, nameable, keeps.directories _ found⟩

theorem leadsTo (leads : volume.LeadsTo path location) : later.LeadsTo path location where
  located := keeps.locate leads.located
  nameable := leads.nameable
  isDirectory := keeps.directories location leads.isDirectory

end Keeps

/-- What is put where no directory is leaves every directory there. -/
theorem keeps_put {item : Item} (free : volume.item? location ≠ some .directory) :
    volume.Keeps (volume.put location item) := by
  refine ⟨rfl, fun other found => ?_⟩
  rw [item?_put_of_ne, found]
  rintro rfl
  exact free found

/-! ### Slashes at the end -/

/-- The slashes at the end of a path leave empty segments behind its other ones. -/
theorem exists_blank_segments (path : String) :
    ∃ blanks : List String, (∀ blank ∈ blanks, blank = "") ∧
      Text.segments '/' path =
        ((Text.segments '/' path).reverse.dropWhile (· = "")).reverse ++ blanks := by
  refine ⟨((Text.segments '/' path).reverse.takeWhile (· = "")).reverse, fun blank member => ?_, ?_⟩
  · have empty := List.all_eq_true.mp List.all_takeWhile blank (List.mem_reverse.mp member)
    exact of_decide_eq_true empty
  · rw [← List.reverse_append, List.takeWhile_append_dropWhile, List.reverse_reverse]

/-- The slashes at the end of the path of a directory mean nothing. -/
theorem locate_of_locateUnslashed (located : volume.locateUnslashed path = .ok location)
    (nameable : IsNameable location) (isDirectory : volume.item? location = some .directory) :
    volume.locate path = .ok location := by
  obtain ⟨blanks, neutral, whole⟩ := exists_blank_segments path
  obtain ⟨sound, followed⟩ := locateThrough_eq_ok.mp located
  refine locateThrough_eq_ok.mpr ⟨sound, ?_⟩
  rw [whole]
  exact follow_append_eq_ok.mpr ⟨location, followed,
    follow_neutral_of_directory nameable isDirectory fun blank member =>
      Or.inl (neutral blank member)⟩

theorem locateUnslashed_of_locate (located : volume.locate path = .ok location) :
    volume.locateUnslashed path = .ok location := by
  obtain ⟨blanks, neutral, whole⟩ := exists_blank_segments path
  obtain ⟨sound, followed⟩ := locateThrough_eq_ok.mp located
  refine locateThrough_eq_ok.mpr ⟨sound, ?_⟩
  rw [whole] at followed
  obtain ⟨middle, followed, onward⟩ := follow_append_eq_ok.mp followed
  rwa [follow_neutral (fun blank member => Or.inl (neutral blank member)) onward]

/-- Where the last segment is a name, no slash is at the end. -/
theorem locateUnslashed_eq_locate {front : List String} {name : String}
    (whole : Text.segments '/' path = front ++ [name]) (present : name ≠ "") :
    volume.locateUnslashed path = volume.locate path := by
  unfold locateUnslashed locate
  rw [whole, List.reverse_append, List.reverse_singleton, List.singleton_append,
    List.dropWhile_cons_of_neg (by simpa using present), List.reverse_cons, List.reverse_reverse]

theorem getLast?_ne_slash {front : List String} {name : String}
    (whole : Text.segments '/' path = front ++ [name]) (present : name ≠ "") :
    path.toList.getLast? ≠ some '/' := by
  intro slashed
  obtain ⟨before, written⟩ := List.getLast?_eq_some_iff.mp slashed
  have cut : path = String.ofList before ++ "/" ++ "" := by
    apply String.toList_injective
    rw [String.append_empty, String.toList_append, String.toList_ofList, written]
    rfl
  have single : "/".toList = ['/'] := rfl
  rw [cut, Text.segments_glued single] at whole
  have blank : Text.segments '/' "" = [""] := rfl
  rw [blank] at whole
  exact present (List.singleton_inj.mp (List.append_inj' whole rfl).2).symm

/-! ### Joined paths -/

theorem segments_of_isAbsolute (absolute : isAbsolute path = true) :
    ∃ rest, Text.segments '/' path = "" :: rest := by
  unfold isAbsolute at absolute
  unfold Text.segments
  cases chars : path.toList with
  | nil =>
    rw [chars] at absolute
    cases absolute
  | cons char rest =>
    rw [chars, List.head?_cons] at absolute
    have slash : char = '/' := by simpa using absolute
    rw [Text.splitAll, if_pos slash]
    exact ⟨_, rfl⟩

theorem isAbsolute_eq_false (plain : ∀ segment ∈ Text.segments '/' path, IsPlainName segment) :
    isAbsolute path = false := by
  cases absolute : isAbsolute path with
  | false => rfl
  | true =>
    obtain ⟨rest, whole⟩ := segments_of_isAbsolute absolute
    rw [whole] at plain
    exact absurd rfl (plain "" List.mem_cons_self).1

section Joined

variable {directory name : String} (present : directory ≠ "")

include present

theorem isAbsolute_append (behind : String) :
    isAbsolute (directory ++ behind) = isAbsolute directory := by
  unfold isAbsolute
  rw [String.toList_append]
  cases chars : directory.toList with
  | nil => exact absurd (String.toList_eq_nil_iff.mp chars) present
  | cons char rest => rfl

/-- Joined to a directory, a name that is not absolute stands behind it, with one slash between
them. -/
theorem exists_joinPath :
    ∃ front, (directory = front ∨ directory = front ++ "/") ∧
      ∀ {name : String}, isAbsolute name = false →
        joinPath directory name = front ++ "/" ++ name := by
  have notEmpty : directory.isEmpty = false := by
    rwa [String.isEmpty_eq_false_iff]
  unfold joinPath
  rw [notEmpty]
  by_cases slashed : directory.toList.getLast? = some '/'
  · obtain ⟨front, whole⟩ := List.getLast?_eq_some_iff.mp slashed
    have cut : directory = String.ofList front ++ "/" := by
      apply String.toList_injective
      rw [String.toList_append, String.toList_ofList, whole]
      rfl
    refine ⟨String.ofList front, Or.inr cut, fun {name} relative => ?_⟩
    rw [relative, if_neg Bool.false_ne_true, if_pos (by simpa using slashed), ← cut]
  · refine ⟨directory, Or.inl rfl, fun {name} relative => ?_⟩
    rw [relative, if_neg Bool.false_ne_true, if_neg (by simpa using slashed)]

/-- The segments of a joined path are those of the directory and those of the name. -/
theorem exists_segments_joinPath :
    ∃ outer, (Text.segments '/' directory = outer ∨ Text.segments '/' directory = outer ++ [""]) ∧
      ∀ {name : String}, isAbsolute name = false →
        isAbsolute (joinPath directory name) = isAbsolute directory ∧
          Text.segments '/' (joinPath directory name) = outer ++ Text.segments '/' name := by
  have single : "/".toList = ['/'] := rfl
  obtain ⟨front, ends, joined⟩ := exists_joinPath present
  refine ⟨Text.segments '/' front, ?_, fun {name} relative => ⟨?_, ?_⟩⟩
  · refine ends.imp (congrArg _) fun slashed => ?_
    have glued := Text.segments_glued single front ""
    rw [String.append_empty] at glued
    rw [slashed, glued]
    rfl
  · rw [joined relative]
    rcases ends with rfl | rfl
    · rw [String.append_assoc]
      exact isAbsolute_append present _
    · exact isAbsolute_append present name
  · rw [joined relative]
    exact Text.segments_glued single _ _

/-- **Joined to a directory, a name leads on from where the directory leads.** -/
theorem locate_joinPath_eq {base : Location} (below : volume.locate directory = .ok base)
    (relative : isAbsolute name = false) (sound : pathFault? (joinPath directory name) = none) :
    volume.locate (joinPath directory name) = volume.follow base (Text.segments '/' name) := by
  obtain ⟨outer, ends, joined⟩ := exists_segments_joinPath present
  obtain ⟨sameStart, whole⟩ := joined relative
  obtain ⟨-, followed⟩ := locateThrough_eq_ok.mp below
  have reached : volume.follow (volume.startOf directory) outer = .ok base := by
    rcases ends with ends | ends
    · rwa [ends] at followed
    · rw [ends] at followed
      obtain ⟨middle, followed, blank⟩ := follow_append_eq_ok.mp followed
      rwa [follow_neutral (List.forall_mem_singleton.mpr (Or.inl rfl)) blank]
  unfold locate locateThrough
  rw [sound, sameStart, whole]
  exact follow_append reached

variable (plain : ∀ segment ∈ Text.segments '/' name, IsPlainName segment)

include plain

/-- A name leads below the directory that it is joined to. -/
theorem locate_joinPath {base : Location} (below : volume.locate directory = .ok base)
    (located : volume.locate (joinPath directory name) = .ok location) :
    location = base ++ Text.segments '/' name := by
  have sound := (locateThrough_eq_ok.mp located).1
  rw [locate_joinPath_eq present below (isAbsolute_eq_false plain) sound] at located
  exact follow_plain plain located

/-- A path ends in a name if one is joined to a directory. -/
theorem exists_segments_concat :
    ∃ front last,
      Text.segments '/' (joinPath directory name) = front ++ [last] ∧ last ≠ "" := by
  obtain ⟨outer, -, joined⟩ := exists_segments_joinPath present
  obtain ⟨-, whole⟩ := joined (isAbsolute_eq_false plain)
  obtain ⟨front, last, ends⟩ := (List.eq_nil_or_concat (Text.segments '/' name)).resolve_left
    (Text.segments_ne_nil '/' name)
  rw [List.concat_eq_append] at ends
  have member : last ∈ Text.segments '/' name := by
    rw [ends]
    exact List.mem_append_right _ (List.mem_singleton.mpr rfl)
  refine ⟨outer ++ front, last, ?_, (plain last member).1⟩
  rw [whole, ends, List.append_assoc]

end Joined

end Volume

end ExternBindings.Files
