/-
**Cutting and joining undo each other.**

* `splitAll_eq_splitOn` — the cut at every separator is the one of the list library;
* `join_segments` — the parts of a text, joined by the separator, are the text;
* `segments_join` — parts that hold no separator are found again in their joined text;
* `beforeFirst_mem_segments`, `beforeFirst_join` — the first part of a text and of joined texts;
* `behind_eq_iff` — a last part that holds no separator, and what stands in front of it, are found
  again in the text of both.
-/

import ExternBindings.Text.Segments

namespace ExternBindings.Text

theorem splitAll_eq_splitOn (separator : Char) (text : List Char) :
    splitAll separator text = text.splitOn separator := by
  induction text with
  | nil => rfl
  | cons char rest hypothesis =>
    rw [splitAll, hypothesis, List.splitOn_cons_eq_if_modifyHead]
    by_cases equal : char = separator
    · simp [equal]
    · rw [if_neg equal, if_neg (by simpa using equal)]
      cases parts : rest.splitOn separator with
      | nil => exact absurd parts (List.splitOn_ne_nil separator rest)
      | cons part parts => rfl

theorem segments_ne_nil (separator : Char) (text : String) : segments separator text ≠ [] := by
  unfold segments
  rw [ne_eq, List.map_eq_nil_iff]
  exact splitAll_ne_nil separator text.toList

theorem not_mem_of_mem_splitAll {separator : Char} {text : List Char} :
    ∀ part ∈ splitAll separator text, separator ∉ part := by
  induction text with
  | nil => simp [splitAll]
  | cons char rest hypothesis =>
    rw [splitAll]
    split
    · exact List.forall_mem_cons.mpr ⟨List.not_mem_nil, hypothesis⟩
    · next different =>
      split
      · next none => exact absurd none (splitAll_ne_nil separator rest)
      · next part parts cut =>
        rw [cut, List.forall_mem_cons] at hypothesis
        refine List.forall_mem_cons.mpr ⟨?_, hypothesis.2⟩
        exact List.not_mem_cons_of_ne_of_not_mem (Ne.symm different) hypothesis.1

/-- No part of a cut text holds the separator. -/
theorem not_mem_of_mem_segments {separator : Char} {text : String} :
    ∀ part ∈ segments separator text, separator ∉ part.toList := by
  unfold segments
  rw [List.forall_mem_map]
  intro part member
  rw [String.toList_ofList]
  exact not_mem_of_mem_splitAll part member

theorem length_splitAll_le (separator : Char) (text : List Char) :
    (splitAll separator text).length ≤ text.length + 1 := by
  induction text with
  | nil => exact Nat.le_refl 1
  | cons char rest hypothesis =>
    rw [splitAll, List.length_cons]
    split
    · rw [List.length_cons]
      omega
    · split
      · simp
      · next part parts cut =>
        rw [cut, List.length_cons] at hypothesis
        rw [List.length_cons]
        omega

theorem length_segments_le (separator : Char) (text : String) :
    (segments separator text).length ≤ text.length + 1 := by
  unfold segments
  rw [List.length_map]
  exact length_splitAll_le separator text.toList

section Joined

variable {separator : Char} {glue : String}

/-- The parts of a text, joined by the separator, are the text. -/
theorem join_segments (single : glue.toList = [separator]) (text : String) :
    join glue (segments separator text) = text := by
  apply String.toList_injective
  unfold join segments
  rw [String.toList_intercalate, single, List.map_map, splitAll_eq_splitOn]
  have written : String.toList ∘ String.ofList = id := funext fun chars => String.toList_ofList
  rw [written, List.map_id, List.intercalate_splitOn]

/-- Parts that hold no separator are found again in their joined text. -/
theorem segments_join (single : glue.toList = [separator]) {parts : List String}
    (present : parts ≠ []) (absent : ∀ part ∈ parts, separator ∉ part.toList) :
    segments separator (join glue parts) = parts := by
  unfold join segments
  rw [splitAll_eq_splitOn, String.toList_intercalate, single, List.splitOn_intercalate]
  · rw [List.map_map]
    have read : String.ofList ∘ String.toList = id := funext fun text => String.ofList_toList
    rw [read, List.map_id]
  · simpa using absent
  · simpa using present

/-- Two texts with a separator between them have the parts of both. -/
theorem segments_glued (single : glue.toList = [separator]) (before after : String) :
    segments separator (before ++ glue ++ after) =
      segments separator before ++ segments separator after := by
  unfold segments
  rw [String.toList_append, String.toList_append, single, List.append_assoc, List.singleton_append,
    ← List.map_append]
  simp only [splitAll_eq_splitOn]
  rw [List.splitOn_append_cons_self]

/-- Joined parts, written out: the first one, and each other one behind the glue. -/
theorem toList_join_cons (glue head : String) (tail : List String) :
    (join glue (head :: tail)).toList =
      head.toList ++ tail.flatMap fun part => glue.toList ++ part.toList := by
  unfold join
  induction tail generalizing head with
  | nil => simp
  | cons next rest hypothesis =>
    rw [String.intercalate_cons_cons, String.toList_append, String.toList_append, hypothesis,
      List.flatMap_cons]
    simp only [List.append_assoc]

theorem join_singleton (glue part : String) : join glue [part] = part := by
  apply String.toList_injective
  simp [toList_join_cons]

theorem join_cons (glue head : String) {parts : List String} (present : parts ≠ []) :
    join glue (head :: parts) = head ++ glue ++ join glue parts := by
  obtain ⟨next, rest, rfl⟩ := List.exists_cons_of_ne_nil present
  exact String.intercalate_cons_cons

theorem join_concat (glue : String) {parts : List String} (present : parts ≠ []) (last : String) :
    join glue (parts ++ [last]) = join glue parts ++ glue ++ last := by
  obtain ⟨head, tail, rfl⟩ := List.exists_cons_of_ne_nil present
  apply String.toList_injective
  rw [List.cons_append, toList_join_cons, List.flatMap_append, String.toList_append,
    String.toList_append, toList_join_cons]
  simp only [List.flatMap_cons, List.flatMap_nil, List.append_nil, List.append_assoc]

/-- A joined text ends with its last part, and what stands in front of that ends with the glue. -/
theorem exists_join_concat (glue : String) (parts : List String) (last : String) :
    ∃ front, join glue (parts ++ [last]) = front ++ last ∧
      (front = "" ∨ ∃ before, front = before ++ glue) := by
  by_cases present : parts = []
  · subst present
    exact ⟨"", by rw [List.nil_append, join_singleton, String.empty_append], Or.inl rfl⟩
  · exact ⟨join glue parts ++ glue, join_concat glue present last, Or.inr ⟨_, rfl⟩⟩

/-- The front parts of a joined text are the front of the text. -/
theorem exists_join_append (glue : String) {front : List String} (present : front ≠ [])
    (rest : List String) : ∃ behind, join glue (front ++ rest) = join glue front ++ behind := by
  obtain ⟨head, tail, rfl⟩ := List.exists_cons_of_ne_nil present
  refine ⟨String.ofList (rest.flatMap fun part => glue.toList ++ part.toList), ?_⟩
  apply String.toList_injective
  rw [List.cons_append, String.toList_append, String.toList_ofList, toList_join_cons,
    toList_join_cons, List.flatMap_append, List.append_assoc]

/-- Texts that are written one behind the other. -/
theorem toList_join_empty (parts : List String) :
    (join "" parts).toList = parts.flatMap String.toList := by
  cases parts with
  | nil => rfl
  | cons head tail =>
    rw [toList_join_cons, List.flatMap_cons]
    rfl

theorem forall_mem_join {property : Char → Prop} {glue : String} {parts : List String}
    (between : ∀ char ∈ glue.toList, property char)
    (inside : ∀ part ∈ parts, ∀ char ∈ part.toList, property char) :
    ∀ char ∈ (join glue parts).toList, property char := by
  cases parts with
  | nil => simp [join]
  | cons head tail =>
    intro char member
    rw [List.forall_mem_cons] at inside
    rw [toList_join_cons, List.mem_append, List.mem_flatMap] at member
    rcases member with member | ⟨part, partMember, member⟩
    · exact inside.1 char member
    · rcases List.mem_append.mp member with member | member
      · exact between char member
      · exact inside.2 part partMember char member

end Joined

/-! ### The first part -/

theorem beforeFirst_of_not_mem {separator : Char} {text : String}
    (absent : separator ∉ text.toList) : beforeFirst separator text = text := by
  have others : ∀ char ∈ text.toList, (char != separator) = true := by
    intro char member
    rw [bne_iff_ne]
    rintro rfl
    exact absent member
  have whole : (text.toList ++ []).takeWhile (· != separator) = text.toList ++ [] :=
    List.takeWhile_append_of_pos others
  rw [List.append_nil] at whole
  unfold beforeFirst
  rw [whole, String.ofList_toList]

theorem exists_splitAll_eq_cons (separator : Char) (text : List Char) :
    ∃ rest, splitAll separator text = text.takeWhile (· != separator) :: rest := by
  induction text with
  | nil => exact ⟨[], rfl⟩
  | cons char text hypothesis =>
    obtain ⟨rest, parts⟩ := hypothesis
    rw [splitAll, parts]
    by_cases equal : char = separator
    · exact ⟨_, by rw [if_pos equal, List.takeWhile_cons_of_neg (by simp [equal])]⟩
    · exact ⟨rest, by rw [if_neg equal, List.takeWhile_cons_of_pos (by simp [equal])]⟩

/-- What stands before the first separator is the first part. -/
theorem beforeFirst_mem_segments (separator : Char) (text : String) :
    beforeFirst separator text ∈ segments separator text := by
  obtain ⟨rest, parts⟩ := exists_splitAll_eq_cons separator text.toList
  unfold segments
  rw [parts, List.map_cons]
  exact List.mem_cons_self

theorem beforeFirst_join {separator : Char} {glue : String} (single : glue.toList = [separator])
    (head : String) (tail : List String) :
    beforeFirst separator (join glue (head :: tail)) = beforeFirst separator head := by
  have stops : (tail.flatMap fun part => glue.toList ++ part.toList).takeWhile (· != separator) =
      [] := by
    cases tail with
    | nil => rfl
    | cons next rest =>
      rw [List.flatMap_cons, single, List.singleton_append, List.cons_append]
      exact List.takeWhile_cons_of_neg (by simp)
  unfold beforeFirst
  rw [toList_join_cons, List.takeWhile_append, stops, List.append_nil]
  split
  · next whole =>
    rw [(List.takeWhile_prefix _).eq_of_length whole]
  · rfl

/-! ### The last part -/

/-- A text behind the glue and what stands in front of that, if anything does. -/
def behind (glue : String) (front? : Option String) (own : String) : String :=
  front?.elim own fun front => front ++ glue ++ own

/-- A text, unless it is empty. -/
def present? (text : String) : Option String :=
  if text.isEmpty then none else some text

theorem present?_eq_some_iff {text front : String} :
    present? text = some front ↔ text ≠ "" ∧ text = front := by
  unfold present?
  split
  · next empty => simp [String.isEmpty_iff.mp empty]
  · next present =>
    rw [String.isEmpty_iff] at present
    rw [Option.some.injEq]
    exact (and_iff_right present).symm

theorem present?_inj {first second : String} :
    present? first = present? second ↔ first = second := by
  refine ⟨fun same => ?_, congrArg present?⟩
  unfold present? at same
  split at same
  · next empty =>
    split at same
    · next emptyToo =>
      rw [String.isEmpty_iff] at empty emptyToo
      rw [empty, emptyToo]
    · cases same
  · split at same
    · cases same
    · exact Option.some.inj same

section Behind

variable {separator : Char} {glue : String} (single : glue.toList = [separator])

include single

/-- Every text has a last part. -/
theorem exists_behind (text : String) :
    ∃ front? own, separator ∉ own.toList ∧ text = behind glue front? own := by
  by_cases present : separator ∈ text.toList
  · obtain ⟨after, before, split, plain⟩ :=
      List.eq_append_cons_of_mem (List.mem_reverse.mpr present)
    refine ⟨some (String.ofList before.reverse), String.ofList after.reverse, ?_, ?_⟩
    · rwa [String.toList_ofList, List.mem_reverse]
    · apply String.toList_injective
      rw [← List.reverse_reverse text.toList, split]
      simp [behind, single]
  · exact ⟨none, text, present, rfl⟩

theorem splitLast_behind (front? : Option String) {own : String} (plain : separator ∉ own.toList) :
    splitLast separator (behind glue front? own).toList =
      front?.map fun front => (front.toList, own.toList) := by
  cases front? with
  | none => exact splitLast_eq_none_iff.mpr plain
  | some front =>
    have cut := splitLast_append front.toList plain
    unfold behind
    rw [Option.elim_some, String.toList_append, String.toList_append, single, List.append_assoc,
      List.singleton_append, cut, Option.map_some]

/-- **A text is cut in front of its last part in one way only.** -/
theorem behind_eq_iff {first? second? : Option String} {own other : String}
    (plain : separator ∉ own.toList) (plainToo : separator ∉ other.toList) :
    behind glue first? own = behind glue second? other ↔ first? = second? ∧ own = other := by
  constructor
  · intro same
    have cut := congrArg (fun text => splitLast separator text.toList) same
    simp only [splitLast_behind single _ plain, splitLast_behind single _ plainToo] at cut
    cases first? with
    | none =>
      cases second? with
      | none => exact ⟨rfl, same⟩
      | some second => cases cut
    | some first =>
      cases second? with
      | none => cases cut
      | some second =>
        simp only [Option.map_some, Option.some.injEq, Prod.mk.injEq, String.toList_inj] at cut
        exact ⟨congrArg some cut.1, cut.2⟩
  · rintro ⟨rfl, rfl⟩
    rfl

theorem glued_injective {before after beforeToo afterToo : String}
    (plain : separator ∉ after.toList) (plainToo : separator ∉ afterToo.toList)
    (same : before ++ glue ++ after = beforeToo ++ glue ++ afterToo) :
    before = beforeToo ∧ after = afterToo := by
  have whole : behind glue (some before) after = behind glue (some beforeToo) afterToo := same
  obtain ⟨fronts, owns⟩ := (behind_eq_iff single plain plainToo).mp whole
  exact ⟨Option.some.inj fronts, owns⟩

end Behind

end ExternBindings.Text
