/-
**How texts are cut into tokens.**

* `tokensBehind edge gap text` are the tokens of a text without layout at its head, when the layout
  `gap` stands in front of it and starts at `edge`; `tokensAfter edge text` those of a text that may
  start with layout. Neither knows a limit: `tokensWithin_eq` removes it.
* `tokensBehind_word`, `tokensBehind_arity`, `tokensBehind_mark` — the first token, for each kind of
  first token, and the text behind it.
* `isLawful_of_mem_tokensBehind` — every token of a text is spelled as its kind demands.
-/

import ExternBindings.Proofs.Listing.Identifier
import Mathlib.Data.List.TakeWhile

namespace ExternBindings.Listing

/-! ### Tokens without a limit -/

/-- The tokens of a text without layout at its head, behind the layout `gap`, which starts at
`edge`. -/
def tokensBehind (edge : Nat) (gap text : List Char) : List Token :=
  tokensWithin text.length edge gap text

/-- The tokens of a text that may start with layout, when the token before it ends at `edge`. -/
def tokensAfter (edge : Nat) (text : List Char) : List Token :=
  tokensBehind edge (splitLayout text).1 (splitLayout text).2

theorem length_splitLayout_le (text : List Char) : (splitLayout text).2.length ≤ text.length := by
  have whole := congrArg List.length (splitLayout_append text)
  rw [List.length_append] at whole
  omega

theorem length_split_le (first : Char) (rest : List Char) :
    (Lexeme.split first rest).2.length ≤ rest.length := by
  unfold Lexeme.split
  split
  · exact List.length_dropWhile_le _ _
  · split
    · exact List.length_dropWhile_le _ _
    · exact Nat.le_refl _

/-- Any two limits that are large enough cut the same tokens. -/
theorem tokensWithin_congr : ∀ {first second edge : Nat} {gap text : List Char},
    text.length ≤ first → text.length ≤ second →
      tokensWithin first edge gap text = tokensWithin second edge gap text
  | 0, 0, _, _, _, _, _ => rfl
  | 0, _ + 1, _, _, [], _, _ => rfl
  | _ + 1, 0, _, _, [], _, _ => rfl
  | _ + 1, _ + 1, _, _, [], _, _ => rfl
  | limit + 1, other + 1, edge, gap, char :: rest, enough, enoughToo => by
    rw [List.length_cons] at enough enoughToo
    have shorter := Nat.le_trans (length_splitLayout_le (Lexeme.split char rest).2)
      (length_split_le char rest)
    exact congrArg _ (tokensWithin_congr (Nat.le_trans shorter (Nat.le_of_succ_le_succ enough))
      (Nat.le_trans shorter (Nat.le_of_succ_le_succ enoughToo)))

theorem tokensWithin_eq {limit edge : Nat} {gap text : List Char} (enough : text.length ≤ limit) :
    tokensWithin limit edge gap text = tokensBehind edge gap text :=
  tokensWithin_congr enough (Nat.le_refl _)

theorem tokensBehind_nil (edge : Nat) (gap : List Char) :
    tokensBehind edge gap [] = [{ edge, layout := gap, lexeme := .finish }] :=
  rfl

theorem tokensBehind_cons (edge : Nat) (gap : List Char) (first : Char) (rest : List Char) :
    tokensBehind edge gap (first :: rest) =
      { edge, layout := gap, lexeme := (Lexeme.split first rest).1 } ::
        tokensAfter (edge + byteSize gap + (Lexeme.split first rest).1.size)
          (Lexeme.split first rest).2 := by
  have shorter := Nat.le_trans (length_splitLayout_le (Lexeme.split first rest).2)
    (length_split_le first rest)
  show tokensWithin (rest.length + 1) edge gap (first :: rest) = _
  unfold tokensWithin tokensAfter
  exact congrArg _ (tokensWithin_eq shorter)

/-- The first token keeps the layout and the place that it is given. -/
theorem exists_tokensBehind (edge : Nat) (gap text : List Char) :
    ∃ lexeme rest, tokensBehind edge gap text = { edge, layout := gap, lexeme } :: rest := by
  cases text with
  | nil => exact ⟨_, _, tokensBehind_nil edge gap⟩
  | cons first rest => exact ⟨_, _, tokensBehind_cons edge gap first rest⟩

theorem byteSize_append (first second : List Char) :
    byteSize (first ++ second) = byteSize first + byteSize second := by
  induction first with
  | nil => simp [byteSize]
  | cons char rest hypothesis =>
    rw [List.cons_append, byteSize, byteSize, hypothesis]
    omega

/-! ### The first token -/

/-- A character that a token starts with and a layout does not, whatever comes next. -/
def isSolid (char : Char) : Bool :=
  !isSpace char && char ≠ '/'

theorem isSolid_of_isWordChar {char : Char} (wordChar : isWordChar char = true) :
    isSolid char = true := by
  by_contra notSolid
  rw [Bool.not_eq_true] at notSolid
  simp only [isSolid, isSpace, isNewline, Bool.and_eq_false_iff, Bool.not_eq_false',
    Bool.or_eq_true, decide_eq_true_eq, decide_eq_false_iff_not, not_not] at notSolid
  rcases notSolid with ((rfl | rfl) | (rfl | rfl)) | rfl <;> exact absurd wordChar (by decide)

theorem splitLayout_solid {char : Char} (solid : isSolid char = true) (rest : List Char) :
    splitLayout (char :: rest) = ([], char :: rest) := by
  simp only [isSolid, Bool.and_eq_true, Bool.not_eq_true', decide_eq_true_eq] at solid
  unfold splitLayout splitLayoutFrom
  simp [solid.1, solid.2]

theorem tokensAfter_solid (edge : Nat) {char : Char} (solid : isSolid char = true)
    (rest : List Char) : tokensAfter edge (char :: rest) = tokensBehind edge [] (char :: rest) := by
  unfold tokensAfter
  rw [splitLayout_solid solid]

/-- The characters at the head of a text that are accepted belong to what follows it. -/
def HeadAvoids (accepts : Char → Bool) (text : List Char) : Prop :=
  ∀ char ∈ text.head?, accepts char = false

theorem HeadAvoids.mono {accepts weaker : Char → Bool} {text : List Char}
    (avoids : HeadAvoids accepts text)
    (implied : ∀ char, weaker char = true → accepts char = true) : HeadAvoids weaker text := by
  intro char member
  by_contra accepted
  rw [Bool.not_eq_false] at accepted
  have refused := avoids char member
  rw [implied char accepted] at refused
  cases refused

theorem headAvoids_nil (accepts : Char → Bool) : HeadAvoids accepts [] :=
  fun char member => absurd member (Option.not_mem_none char)

theorem headAvoids_cons {accepts : Char → Bool} {char : Char} (refused : accepts char = false)
    (rest : List Char) : HeadAvoids accepts (char :: rest) := by
  intro other member
  rwa [← Option.mem_some.mp member]

theorem HeadAvoids.append {accepts : Char → Bool} {front back : List Char}
    (avoids : HeadAvoids accepts front) (avoidsToo : HeadAvoids accepts back) :
    HeadAvoids accepts (front ++ back) := by
  cases front with
  | nil => exact avoidsToo
  | cons char rest => exact avoids

theorem headAvoids_flatMap {accepts : Char → Bool} {parts : List String}
    (avoids : ∀ part ∈ parts, HeadAvoids accepts part.toList) :
    HeadAvoids accepts (parts.flatMap String.toList) := by
  induction parts with
  | nil => exact headAvoids_nil accepts
  | cons head tail hypothesis =>
    rw [List.forall_mem_cons] at avoids
    rw [List.flatMap_cons]
    exact avoids.1.append (hypothesis avoids.2)

theorem takeWhile_append_avoids {accepts : Char → Bool} {front back : List Char}
    (taken : ∀ char ∈ front, accepts char = true) (avoids : HeadAvoids accepts back) :
    (front ++ back).takeWhile accepts = front ∧ (front ++ back).dropWhile accepts = back := by
  rw [List.takeWhile_append_of_pos taken, List.dropWhile_append_of_pos taken]
  cases back with
  | nil => simp
  | cons char rest =>
    have refused := avoids char rfl
    simp [refused]

theorem tokensBehind_word (edge : Nat) (gap : List Char) {word rest : List Char}
    (spelled : isWord word = true) (avoids : HeadAvoids isWordChar rest) :
    tokensBehind edge gap (word ++ rest) =
      { edge, layout := gap, lexeme := .word (String.ofList word) } ::
        tokensAfter (edge + byteSize gap + byteSize word) rest := by
  cases word with
  | nil => cases spelled
  | cons first more =>
    simp only [isWord, Bool.and_eq_true, List.all_eq_true] at spelled
    have cut := takeWhile_append_avoids spelled.2 avoids
    have split : Lexeme.split first (more ++ rest) =
        (.word (String.ofList (first :: more)), rest) := by
      unfold Lexeme.split
      rw [if_pos spelled.1, cut.1, cut.2]
    rw [List.cons_append, tokensBehind_cons, split]
    simp only [Lexeme.size, String.toList_ofList]

theorem tokensBehind_arity (edge : Nat) (gap : List Char) {digits rest : List Char}
    (present : digits ≠ []) (spelled : ∀ char ∈ digits, char.isDigit = true)
    (avoids : HeadAvoids Char.isDigit rest) :
    tokensBehind edge gap (arityMark :: digits ++ rest) =
      { edge, layout := gap, lexeme := .arity (String.ofList digits) } ::
        tokensAfter (edge + byteSize gap + byteSize (arityMark :: digits)) rest := by
  have cut := takeWhile_append_avoids spelled avoids
  have split : Lexeme.split arityMark (digits ++ rest) =
      (.arity (String.ofList digits), rest) := by
    unfold Lexeme.split
    rw [if_neg (by decide), if_pos ⟨rfl, by simpa [cut.1] using present⟩, cut.1, cut.2]
  rw [List.cons_append, tokensBehind_cons, split]
  simp only [Lexeme.size, String.toList_ofList, byteSize]
  rfl

theorem tokensBehind_mark (edge : Nat) (gap : List Char) {char : Char} (rest : List Char)
    (single : isNameChar char = false) :
    tokensBehind edge gap (char :: rest) =
      { edge, layout := gap, lexeme := .mark char } ::
        tokensAfter (edge + byteSize gap + byteSize [char]) rest := by
  simp only [isNameChar, Bool.or_eq_false_iff, decide_eq_false_iff_not] at single
  have notStart : isWordStart char = false := by
    by_contra starts
    rw [Bool.not_eq_false] at starts
    rw [isWordChar_of_isWordStart starts] at single
    exact absurd single.1 (by decide)
  have split : Lexeme.split char rest = (.mark char, rest) := by
    unfold Lexeme.split
    rw [if_neg (by simp [notStart]), if_neg fun both => single.2 both.1]
  rw [tokensBehind_cons, split]
  rfl

/-! ### Spelling -/

/-- The text of a word or a number is spelled as such. -/
def Lexeme.IsLawful : Lexeme → Prop
  | word text => isWord text.toList = true
  | arity digits => digits.toList ≠ [] ∧ ∀ char ∈ digits.toList, char.isDigit = true
  | mark _ => True
  | finish => True

theorem isLawful_split (first : Char) (rest : List Char) :
    (Lexeme.split first rest).1.IsLawful := by
  unfold Lexeme.split
  split
  · next starts =>
    show isWord (String.ofList _).toList = true
    rw [String.toList_ofList, isWord, starts, Bool.true_and, List.all_eq_true]
    exact fun char member => List.mem_takeWhile_imp member
  · split
    · next marked =>
      show (String.ofList _).toList ≠ [] ∧ _
      rw [String.toList_ofList]
      refine ⟨fun missing => ?_, fun char member => List.mem_takeWhile_imp member⟩
      rw [missing] at marked
      exact absurd marked.2 (by decide)
    · trivial

theorem isLawful_of_mem_tokensWithin : ∀ {limit edge : Nat} {gap text : List Char} {token : Token},
    token ∈ tokensWithin limit edge gap text → token.lexeme.IsLawful
  | 0, _, _, _, _, member => by
    rw [List.mem_singleton.mp member]
    trivial
  | _ + 1, _, _, [], _, member => by
    rw [List.mem_singleton.mp member]
    trivial
  | limit + 1, edge, gap, first :: rest, token, member => by
    rcases List.mem_cons.mp member with rfl | member
    · exact isLawful_split first rest
    · exact isLawful_of_mem_tokensWithin member

theorem isLawful_of_mem_tokensBehind {edge : Nat} {gap text : List Char} :
    ∀ token ∈ tokensBehind edge gap text, token.lexeme.IsLawful :=
  fun _ member => isLawful_of_mem_tokensWithin member

end ExternBindings.Listing
