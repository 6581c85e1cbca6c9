/-
**Text cut at a separator.**

A dotted name is read from its last separator (`splitLast`), a path from all of them (`splitAll`).

* `splitLast_eq_none_iff`: only a text without the separator has no last part;
* `splitLast_append`: in `before.after`, where `after` holds no separator, the cut falls between
  the two;
* `splitAll_ne_nil`: a cut text has at least one part.
-/

namespace ExternBindings.Text

/-- The parts before and after the last `separator`, if there is one. -/
def splitLast (separator : Char) : List Char → Option (List Char × List Char)
  | [] => none
  | char :: rest =>
    match splitLast separator rest with
    | some (before, after) => some (char :: before, after)
    | none => if char = separator then some ([], rest) else none

theorem splitLast_eq_none_iff {separator : Char} {text : List Char} :
    splitLast separator text = none ↔ separator ∉ text := by
  induction text with
  | nil => simp [splitLast]
  | cons char rest hypothesis =>
    rw [splitLast]
    cases found : splitLast separator rest with
    | none =>
      have absent := hypothesis.1 found
      by_cases equal : char = separator
      · simp [equal]
      · simp [equal, absent, Ne.symm equal]
    | some parts =>
      have present : separator ∈ rest := by
        apply Classical.byContradiction
        intro absent
        simp [hypothesis.2 absent] at found
      simp [present]

/-- The cut of `before.after` falls at the written separator when `after` holds none. -/
theorem splitLast_append {separator : Char} (before : List Char) {after : List Char}
    (absent : separator ∉ after) :
    splitLast separator (before ++ separator :: after) = some (before, after) := by
  induction before with
  | nil => simp [splitLast, splitLast_eq_none_iff.2 absent]
  | cons char rest hypothesis => simp [splitLast, hypothesis]

/-- The parts between the separators; a text without separators is its only part. -/
def splitAll (separator : Char) : List Char → List (List Char)
  | [] => [[]]
  | char :: rest =>
    if char = separator then [] :: splitAll separator rest
    else
      match splitAll separator rest with
      | [] => [[char]]
      | part :: parts => (char :: part) :: parts

theorem splitAll_ne_nil (separator : Char) (text : List Char) : splitAll separator text ≠ [] := by
  cases text with
  | nil => simp [splitAll]
  | cons char rest =>
    rw [splitAll]
    split
    · simp
    · split <;> simp

/-- The text after the last `separator`, or the whole text without one. -/
def afterLast (separator : Char) (text : String) : String :=
  match splitLast separator text.toList with
  | some (_, after) => String.ofList after
  | none => text

/-- The text before the first `separator`, or the whole text without one. -/
def beforeFirst (separator : Char) (text : String) : String :=
  String.ofList (text.toList.takeWhile (· != separator))

/-- The parts of a text between its separators. -/
def segments (separator : Char) (text : String) : List String :=
  (splitAll separator text.toList).map String.ofList

/-- The parts of a text between its separators, each written down in turn with `glue` between. -/
def join (glue : String) (parts : List String) : String :=
  glue.intercalate parts

end ExternBindings.Text
