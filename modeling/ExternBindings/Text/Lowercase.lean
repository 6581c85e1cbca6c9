/-
**Lower case.**

Every character is replaced by its lower case form, by the full case mapping without regard to
language. Two rules reach beyond single characters: the dotted capital I becomes an i followed by
a combining dot, and a capital sigma at the end of a word takes its final form.

* `lowercase_ofList_ascii`: on ASCII text this is the letter by letter mapping.
-/

import ExternBindings.Text.CaseTables

namespace ExternBindings.Text

/-- Whether a code point lies in one of the ranges. -/
def inRanges (ranges : List (Nat × Nat)) (code : Nat) : Bool :=
  ranges.any fun (first, last) => first ≤ code && code ≤ last

/-- Characters that are looked through when the surroundings of a sigma are examined. -/
def isCaseIgnorable (char : Char) : Bool :=
  inRanges caseIgnorableRanges char.toNat

/-- Characters that have a case and are not looked through. -/
def isCased (char : Char) : Bool :=
  inRanges casedRanges char.toNat

/-- The first character that is not looked through has a case. -/
def meetsCased (text : List Char) : Bool :=
  match text.dropWhile isCaseIgnorable with
  | char :: _ => isCased char
  | [] => false

/-- Whether a run of the table holds the code point. -/
def LowercaseRun.holds (run : LowercaseRun) (code : Nat) : Bool :=
  run.first ≤ code && code ≤ run.last && (code - run.first) % run.stride == 0

/-- The lower case form of one character, taken by itself. -/
def lowercaseChar (char : Char) : List Char :=
  if char.toNat < 0x80 then [char.toLower]
  else if char.toNat = 0x130 then ['i', Char.ofNat 0x307]
  else
    match lowercaseRuns.find? (·.holds char.toNat) with
    | some run => [Char.ofNat (char.toNat + run.shift).toNat]
    | none => [char]

/-- The small sigma that stands between the two stretches of text: final where a word ends. -/
def sigmaBetween (before after : List Char) : Char :=
  if meetsCased before && !meetsCased after then Char.ofNat 0x3C2 else Char.ofNat 0x3C3

/-- Lower case of a text; `before` is the text in front of it, last character first. -/
def lowercaseAfter (before : List Char) : List Char → List Char
  | [] => []
  | char :: rest =>
    (if char.toNat = 0x3A3 then [sigmaBetween before rest] else lowercaseChar char) ++
      lowercaseAfter (char :: before) rest

/-- A text in lower case. -/
def lowercase (text : String) : String :=
  String.ofList (lowercaseAfter [] text.toList)

theorem lowercaseAfter_ascii (before : List Char) {text : List Char}
    (ascii : ∀ char ∈ text, char.toNat < 0x80) :
    lowercaseAfter before text = text.map Char.toLower := by
  induction text generalizing before with
  | nil => rfl
  | cons char rest hypothesis =>
    have small : char.toNat < 0x80 := ascii char (by simp)
    have plain : char.toNat ≠ 0x3A3 := by omega
    simp [lowercaseAfter, lowercaseChar, small, plain,
      hypothesis (char :: before) fun other member => ascii other (by simp [member])]

/-- ASCII text is mapped letter by letter. -/
theorem lowercase_ofList_ascii {text : List Char} (ascii : ∀ char ∈ text, char.toNat < 0x80) :
    lowercase (String.ofList text) = String.ofList (text.map Char.toLower) := by
  simp [lowercase, lowercaseAfter_ascii [] ascii]

end ExternBindings.Text
