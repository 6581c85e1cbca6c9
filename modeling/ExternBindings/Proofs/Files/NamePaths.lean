/-
**Paths that are made of names.**

* `IsPathName` — a name that a path can be made of, be it that of a directory (`IsDirectoryName`) or
  of a file (`IsFileName`): a dot in the name tells them apart;
* `pathTo` — the path of names that are joined to a directory: its segments are those of the
  directory and the names (`exists_segments_pathTo`);
* `parentPath?_pathTo` — it lies in the path of the names without the last one, and
  `Volume.LeadsTo.exists_parent` — a single name lies in a directory that is there;
* `Volume.locate_pathTo` — **names lead on from where the directory leads, unless their path is too
  long.**
-/

import ExternBindings.Proofs.Files.Differing
import Mathlib.Data.List.Basic

namespace ExternBindings.Files

/-- A name that a path can be made of: besides naming something it holds no slash, nor the character
with the code zero. -/
structure IsPathName (name : String) : Prop where
  plain : IsPlainName name
  whole : '/' ∉ name.toList
  sound : '\x00' ∉ name.toList

/-- A name for a directory: it holds no dot. -/
structure IsDirectoryName (name : String) : Prop extends IsPathName name where
  undotted : '.' ∉ name.toList

/-- A name for a file: it holds a dot. -/
structure IsFileName (name : String) : Prop extends IsPathName name where
  dotted : '.' ∈ name.toList

/-- The path of what names lead to from a directory. -/
def pathTo (directory : String) (names : List String) : String :=
  joinPath directory (Text.join "/" names)

/-! ### Paths of names -/

section Names

variable {directory name : String} {names : List String}

theorem segments_join_names (present : names ≠ []) (proper : ∀ name ∈ names, IsPathName name) :
    Text.segments '/' (Text.join "/" names) = names :=
  Text.segments_join rfl present fun name member => (proper name member).whole

/-- Names of directories and a last name make up a path. -/
theorem forall_isPathName (inner : ∀ name ∈ names, IsDirectoryName name) (named : IsPathName name) :
    ∀ other ∈ names ++ [name], IsPathName other :=
  List.forall_mem_append.mpr ⟨fun other member => (inner other member).toIsPathName,
    List.forall_mem_singleton.mpr named⟩

theorem isPlainName_of_mem_segments (present : names ≠ [])
    (proper : ∀ name ∈ names, IsPathName name) :
    ∀ segment ∈ Text.segments '/' (Text.join "/" names), IsPlainName segment := by
  rw [segments_join_names present proper]
  exact fun name member => (proper name member).plain

theorem isAbsolute_join_names (present : names ≠ []) (proper : ∀ name ∈ names, IsPathName name) :
    isAbsolute (Text.join "/" names) = false :=
  Volume.isAbsolute_eq_false (isPlainName_of_mem_segments present proper)

/-- The path of names is written behind that of the directory, with one slash between them. -/
theorem exists_pathTo (given : directory ≠ "") (present : names ≠ [])
    (proper : ∀ name ∈ names, IsPathName name) :
    ∃ front, (directory = front ∨ directory = front ++ "/") ∧
      pathTo directory names = front ++ "/" ++ Text.join "/" names := by
  obtain ⟨front, ends, joined⟩ := Volume.exists_joinPath given
  exact ⟨front, ends, joined (isAbsolute_join_names present proper)⟩

theorem pathTo_ne_empty (given : directory ≠ "") (present : names ≠ [])
    (proper : ∀ name ∈ names, IsPathName name) : pathTo directory names ≠ "" := by
  obtain ⟨front, -, written⟩ := exists_pathTo given present proper
  intro empty
  have chars := congrArg String.toList (written.symm.trans empty)
  rw [String.toList_append, String.toList_append] at chars
  simp at chars

/-- The segments of the path of names are those of the directory and the names. -/
theorem exists_segments_pathTo (given : directory ≠ "") :
    ∃ outer, outer ≠ [] ∧
      (Text.segments '/' directory = outer ∨ Text.segments '/' directory = outer ++ [""]) ∧
      ∀ {names : List String}, names ≠ [] → (∀ name ∈ names, IsPathName name) →
        isAbsolute (pathTo directory names) = isAbsolute directory ∧
          Text.segments '/' (pathTo directory names) = outer ++ names := by
  obtain ⟨outer, ends, joined⟩ := Volume.exists_segments_joinPath given
  refine ⟨outer, ?_, ends, fun present proper => ?_⟩
  · rintro rfl
    rcases ends with none | blank
    · exact Text.segments_ne_nil '/' directory none
    · have single : "/".toList = ['/'] := rfl
      have whole := Text.join_segments single directory
      rw [blank] at whole
      exact given whole.symm
  · have parts := joined (isAbsolute_join_names present proper)
    rwa [segments_join_names present proper] at parts

theorem dropNeutral_of_plain {rest : List String} (plain : IsPlainName name) :
    dropNeutral (name :: rest) = name :: rest := by
  cases rest with
  | nil => rfl
  | cons next rest =>
    rw [dropNeutral, if_neg (not_or.mpr ⟨plain.1, plain.2.1⟩)]
    exact List.cons_ne_nil _ _

/-- Only segments that mean nothing are dropped. -/
theorem exists_dropNeutral {segments : List String} (present : segments ≠ []) :
    dropNeutral segments ≠ [] ∧ ∃ dropped, segments = dropped ++ dropNeutral segments ∧
      ∀ segment ∈ dropped, IsNeutral segment := by
  induction segments with
  | nil => exact absurd rfl present
  | cons segment rest hypothesis =>
    cases rest with
    | nil => exact ⟨List.cons_ne_nil _ _, [], rfl, fun _ member => absurd member List.not_mem_nil⟩
    | cons next rest =>
      obtain ⟨kept, dropped, whole, neutral⟩ := hypothesis (List.cons_ne_nil next rest)
      rw [dropNeutral]
      · split
        · next isNeutral =>
          refine ⟨kept, segment :: dropped, ?_, List.forall_mem_cons.mpr ⟨isNeutral, neutral⟩⟩
          rw [List.cons_append, ← whole]
        · exact ⟨List.cons_ne_nil _ _, [], rfl, fun _ member => absurd member List.not_mem_nil⟩
      · exact List.cons_ne_nil _ _

/-- A path lies in what is left of it without its last name. -/
theorem parentPath?_of_segments {path : String} {outer : List String} (present : outer ≠ [])
    (plain : IsPlainName name) (whole : Text.segments '/' path = outer ++ [name]) :
    parentPath? path = some (if dropNeutral outer.reverse = [""] then "/"
      else Text.join "/" (dropNeutral outer.reverse).reverse) := by
  obtain ⟨last, front, reversed⟩ :=
    List.exists_cons_of_ne_nil (List.reverse_ne_nil_iff.mpr present)
  unfold parentPath?
  rw [whole, List.reverse_append, List.reverse_singleton, List.singleton_append,
    dropNeutral_of_plain plain, reversed]
  split
  · next none => cases none
  · next single => cases single
  · next single => cases single
  · next rest _ _ cut =>
    obtain rfl : last :: front = rest := (List.cons.inj cut).2
    split
    · next root => rw [if_pos root]
    · next other => rw [if_neg other]

/-- **The path of names lies in that of the names without the last one.** -/
theorem parentPath?_pathTo (given : directory ≠ "") (present : names ≠ [])
    (proper : ∀ name ∈ names, IsPathName name) (named : IsPathName name) :
    parentPath? (pathTo directory (names ++ [name])) = some (pathTo directory names) := by
  have single : "/".toList = ['/'] := rfl
  obtain ⟨outer, -, -, cut⟩ := exists_segments_pathTo given
  have whole := (cut (List.append_ne_nil_of_left_ne_nil present [name])
    (List.forall_mem_append.mpr ⟨proper, List.forall_mem_singleton.mpr named⟩)).2
  obtain ⟨front, last, rfl⟩ := (List.eq_nil_or_concat' names).resolve_left present
  have plain := (proper last (List.mem_append_right _ (List.mem_singleton_self last))).plain
  have turned : (outer ++ (front ++ [last])).reverse = last :: (outer ++ front).reverse := by
    rw [← List.append_assoc, List.reverse_append, List.reverse_singleton, List.singleton_append]
  rw [← List.append_assoc] at whole
  rw [parentPath?_of_segments (List.append_ne_nil_of_right_ne_nil outer present) named.plain whole,
    turned, dropNeutral_of_plain plain, if_neg fun same => plain.1 (List.cons.inj same).1, ← turned,
    List.reverse_reverse, ← (cut present proper).2, Text.join_segments single]

end Names

namespace Volume

variable {volume : Volume} {directory path name : String} {base : Location} {names : List String}

/-! ### Where the path of names leads -/

theorem pathFault?_eq_none_iff :
    pathFault? path = none ↔
      '\x00' ∉ path.toList ∧ path ≠ "" ∧ path.utf8ByteSize ≤ pathLimit := by
  unfold pathFault?
  rw [List.contains_eq_mem]
  split
  · next unsound => simp [of_decide_eq_true unsound]
  · next sound =>
    rw [decide_eq_true_eq] at sound
    split
    · next empty => simp [String.isEmpty_iff.mp empty]
    · next given =>
      rw [String.isEmpty_iff] at given
      split
      · next long => simp [Nat.not_le.mpr long]
      · next short => simp [sound, given, Nat.not_lt.mp short]

/-- The only fault of a path without the character with the code zero is that it is too long. -/
theorem pathFault?_eq_none_or (sound : '\x00' ∉ path.toList) (given : path ≠ "") :
    pathFault? path = none ∨ pathFault? path = some .nameTooLong := by
  by_cases short : path.utf8ByteSize ≤ pathLimit
  · exact Or.inl (pathFault?_eq_none_iff.mpr ⟨sound, given, short⟩)
  · right
    unfold pathFault?
    rw [List.contains_eq_mem, decide_eq_false sound, if_neg Bool.false_ne_true,
      if_neg (by rwa [String.isEmpty_iff]), if_pos (Nat.not_le.mp short)]

/-- The path of names has no other fault either if the directory has none. -/
theorem pathFault?_pathTo (sound : pathFault? directory = none) (present : names ≠ [])
    (proper : ∀ name ∈ names, IsPathName name) :
    pathFault? (pathTo directory names) = none ∨
      pathFault? (pathTo directory names) = some .nameTooLong := by
  obtain ⟨soundDirectory, given, -⟩ := pathFault?_eq_none_iff.mp sound
  obtain ⟨front, ends, written⟩ := exists_pathTo given present proper
  have soundNames : ∀ char ∈ (Text.join "/" names).toList, char ≠ '\x00' := by
    refine Text.forall_mem_join (fun char inside => ?_) fun name member char inside => ?_
    · rw [List.mem_singleton.mp inside]
      decide
    · rintro rfl
      exact (proper name member).sound inside
  have soundFront : '\x00' ∉ front.toList := by
    intro zero
    rcases ends with rfl | rfl
    · exact soundDirectory zero
    · exact soundDirectory (by
        rw [String.toList_append]
        exact List.mem_append_left _ zero)
  refine pathFault?_eq_none_or ?_ (pathTo_ne_empty given present proper)
  rw [written, String.toList_append, String.toList_append, List.mem_append, List.mem_append]
  exact not_or.mpr ⟨not_or.mpr ⟨soundFront, by decide⟩, fun zero => soundNames _ zero rfl⟩

theorem pathFault?_of_locate (located : volume.locate path = .ok base) : pathFault? path = none :=
  (locateThrough_eq_ok.mp located).1

theorem ne_empty_of_locate (located : volume.locate path = .ok base) : path ≠ "" :=
  (pathFault?_eq_none_iff.mp (pathFault?_of_locate located)).2.1

/-- **Names lead on from the directory**, unless their path is too long. -/
theorem locate_pathTo (located : volume.locate directory = .ok base) (present : names ≠ [])
    (proper : ∀ name ∈ names, IsPathName name) :
    volume.locate (pathTo directory names) = .error .nameTooLong ∨
      volume.locate (pathTo directory names) = volume.follow base names := by
  rcases pathFault?_pathTo (pathFault?_of_locate located) present proper with sound | long
  · right
    rw [← congrArg (volume.follow base) (segments_join_names present proper)]
    exact locate_joinPath_eq (ne_empty_of_locate located) located
      (isAbsolute_join_names present proper) sound
  · left
    unfold locate locateThrough
    rw [long]

/-- Segments at the end of a path that mean nothing can be left out. -/
theorem LeadsTo.of_front (leads : volume.LeadsTo path base) {front neutral : List String}
    (whole : Text.segments '/' path = front ++ neutral)
    (meaningless : ∀ segment ∈ neutral, IsNeutral segment) (present : front ≠ [])
    (other : front ≠ [""]) : volume.LeadsTo (Text.join "/" front) base := by
  have single : "/".toList = ['/'] := rfl
  obtain ⟨behind, cut⟩ := Text.exists_join_append "/" present neutral
  rw [← whole, Text.join_segments single] at cut
  have frontWhole : Text.segments '/' (Text.join "/" front) = front := by
    refine Text.segments_join single present fun part member => ?_
    exact Text.not_mem_of_mem_segments part (whole ▸ List.mem_append_left _ member)
  have given : Text.join "/" front ≠ "" := by
    intro empty
    rw [empty] at frontWhole
    exact other frontWhole.symm
  obtain ⟨sound, followed⟩ := locateThrough_eq_ok.mp leads.located
  obtain ⟨soundPath, -, short⟩ := pathFault?_eq_none_iff.mp sound
  have start : volume.startOf (Text.join "/" front) = volume.startOf path := by
    unfold startOf
    rw [cut, isAbsolute_append given]
  rw [whole] at followed
  obtain ⟨middle, followed, onward⟩ := follow_append_eq_ok.mp followed
  obtain rfl := follow_neutral meaningless onward
  refine ⟨locateThrough_eq_ok.mpr ⟨pathFault?_eq_none_iff.mpr ⟨?_, given, ?_⟩, ?_⟩,
    leads.nameable, leads.isDirectory⟩
  · rw [cut, String.toList_append, List.mem_append, not_or] at soundPath
    exact soundPath.1
  · rw [cut, String.utf8ByteSize_append] at short
    exact Nat.le_of_add_right_le short
  · rw [start, frontWhole]
    exact followed

theorem leadsTo_root (volume : Volume) : volume.LeadsTo "/" [] := by
  have nameable : IsNameable [] := Nat.zero_le _
  have cut : Text.segments '/' "/" = ["", ""] := by decide
  have blank : ∀ segment ∈ ["", ""], IsNeutral segment :=
    List.forall_mem_cons.mpr ⟨Or.inl rfl, List.forall_mem_singleton.mpr (Or.inl rfl)⟩
  refine ⟨locateThrough_eq_ok.mpr ⟨by decide, ?_⟩, nameable, item?_root⟩
  rw [cut]
  exact follow_neutral_of_directory nameable item?_root blank

/-- The directory that a file right below a directory lies in is there. -/
theorem LeadsTo.exists_parent (leads : volume.LeadsTo directory base) (named : IsPathName name) :
    ∃ parent, parentPath? (pathTo directory ([] ++ [name])) = some parent ∧
      volume.HasDirectory parent := by
  obtain ⟨outer, present, ends, cut⟩ := exists_segments_pathTo (ne_empty_of_locate leads.located)
  have whole := (cut (List.cons_ne_nil name []) (List.forall_mem_singleton.mpr named)).2
  refine ⟨_, parentPath?_of_segments present named.plain whole, Or.inr ?_⟩
  obtain ⟨kept, dropped, turned, neutral⟩ :=
    exists_dropNeutral (List.reverse_ne_nil_iff.mpr present)
  have front := congrArg List.reverse turned
  rw [List.reverse_reverse, List.reverse_append] at front
  have meaningless : ∀ segment ∈ dropped.reverse, IsNeutral segment := fun segment member =>
    neutral segment (List.mem_reverse.mp member)
  split
  · exact isDirectory_iff_leadsTo.mpr ⟨[], leadsTo_root volume⟩
  · -- what is left of the directory leads where the whole of it does
    next other =>
    have keptFront := List.reverse_ne_nil_iff.mpr kept
    have otherFront : (dropNeutral outer.reverse).reverse ≠ [""] := fun same =>
      other (List.reverse_eq_iff.mp same)
    refine isDirectory_iff_leadsTo.mpr ⟨base, ?_⟩
    rcases ends with ends | ends
    · exact leads.of_front (ends.trans front) meaningless keptFront otherFront
    · rw [front, List.append_assoc] at ends
      refine leads.of_front ends ?_ keptFront otherFront
      exact List.forall_mem_append.mpr ⟨meaningless, List.forall_mem_singleton.mpr (Or.inl rfl)⟩

end Volume

end ExternBindings.Files
