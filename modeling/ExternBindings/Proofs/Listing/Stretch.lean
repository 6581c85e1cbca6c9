/-
**Stretches of a text and the tokens in them.**

* `IsStretch text span written` — the characters of a text at a span, of which there is one list at
  most (`IsStretch.unique`);
* `exists_place` — the tokens behind some of those of a text are the tokens of a tail of the text;
  `startOf_lt_edgeOf` — they stand behind the others;
* `exists_slice` — tokens that follow one another are written in one stretch of the text, and this
  stretch is cut into them again, whatever layout is put behind it (`SlicesInto`).
-/

import ExternBindings.Listing.Reading
import ExternBindings.Metadata.Member
import ExternBindings.Proofs.Listing.Respaced
import Mathlib.Data.List.Forall2

namespace ExternBindings.Listing

open Reading

/-! ### Stretches -/

/-- These are the characters of the text at the span. -/
def IsStretch (text : List Char) (span : Span) (written : List Char) : Prop :=
  ∃ front back, text = front ++ (written ++ back) ∧ byteSize front = span.start ∧
    byteSize front + byteSize written = span.stop

theorem byteSize_pos {text : List Char} (present : text ≠ []) : 0 < byteSize text := by
  cases text with
  | nil => exact absurd rfl present
  | cons char rest =>
    rw [byteSize]
    exact Nat.add_pos_left (Char.utf8Size_pos char) _

/-- A text has one front of each size at most. -/
theorem eq_of_byteSize_eq {front back other rest : List Char} (same : front ++ back = other ++ rest)
    (size : byteSize front = byteSize other) : front = other ∧ back = rest := by
  have nothing {part : List Char} {total : Nat} (none : total = total + byteSize part) : part = [] := by
    by_contra present
    have positive := byteSize_pos present
    omega
  rcases List.append_eq_append_iff.mp same with ⟨part, rfl, rfl⟩ | ⟨part, rfl, rfl⟩
  · rw [byteSize_append] at size
    obtain rfl := nothing size
    exact ⟨(List.append_nil _).symm, rfl⟩
  · rw [byteSize_append] at size
    obtain rfl := nothing size.symm
    exact ⟨List.append_nil _, rfl⟩

/-- There is one stretch of the text at a span at most. -/
theorem IsStretch.unique {text written other : List Char} {span : Span}
    (stretch : IsStretch text span written) (stretchToo : IsStretch text span other) :
    written = other := by
  obtain ⟨front, back, rfl, starts, stops⟩ := stretch
  obtain ⟨frontToo, backToo, whole, startsToo, stopsToo⟩ := stretchToo
  obtain ⟨-, inside⟩ := eq_of_byteSize_eq whole (starts.trans startsToo.symm)
  exact (eq_of_byteSize_eq inside (by omega)).1

/-! ### Places in a text -/

theorem byteSize_written (lexeme : Lexeme) : byteSize lexeme.written = lexeme.size := by
  cases lexeme <;> rfl

theorem written_split_ne_nil (first : Char) (rest : List Char) :
    (Lexeme.split first rest).1.written ≠ [] := by
  intro missing
  have written := congrArg List.length (written_split first rest)
  have shorter := length_split_le first rest
  rw [missing, List.nil_append, List.length_cons] at written
  omega

@[simp] theorem edgeOf_tokensBehind (edge : Nat) (gap text : List Char) :
    edgeOf (tokensBehind edge gap text) = edge := by
  obtain ⟨lexeme, rest, cut⟩ := exists_tokensBehind edge gap text
  rw [cut]
  rfl

@[simp] theorem startOf_tokensBehind (edge : Nat) (gap text : List Char) :
    startOf (tokensBehind edge gap text) = edge + byteSize gap := by
  obtain ⟨lexeme, rest, cut⟩ := exists_tokensBehind edge gap text
  rw [cut]
  rfl

/-- **The tokens behind some of those of a text are the tokens of a tail of it**: by induction on the
text, token by token. -/
theorem exists_place {edge : Nat} {gap text : List Char} {here : List Token}
    (within : here <:+ tokensBehind edge gap text) (present : here ≠ []) :
    ∃ front gapHere textHere, gap ++ text = front ++ (gapHere ++ textHere) ∧
      here = tokensBehind (edge + byteSize front) gapHere textHere := by
  induction bound : text.length using Nat.strong_induction_on generalizing edge gap text with
  | _ length hypothesis =>
    have whole (same : here = tokensBehind edge gap text) :
        ∃ front gapHere textHere, gap ++ text = front ++ (gapHere ++ textHere) ∧
          here = tokensBehind (edge + byteSize front) gapHere textHere :=
      ⟨[], gap, text, rfl, same⟩
    cases text with
    | nil =>
      rw [tokensBehind_nil] at within
      rcases List.suffix_cons_iff.mp within with same | within
      · exact whole same
      · exact absurd (List.suffix_nil.mp within) present
    | cons first rest =>
      subst bound
      have cut := tokensBehind_cons edge gap first rest
      rw [cut] at within
      rcases List.suffix_cons_iff.mp within with same | within
      · exact whole (same.trans cut.symm)
      · have shorter := Nat.le_trans (length_splitLayout_le (Lexeme.split first rest).2)
          (length_split_le first rest)
        obtain ⟨front, gapHere, textHere, split, place⟩ :=
          hypothesis _ (Nat.lt_succ_of_le shorter) within rfl
        rw [splitLayout_append] at split
        refine ⟨gap ++ (Lexeme.split first rest).1.written ++ front, gapHere, textHere, ?_, ?_⟩
        · rw [List.append_assoc, ← split, List.append_assoc, written_split]
        · rw [place, byteSize_append, byteSize_append, byteSize_written, Nat.add_assoc, Nat.add_assoc,
            Nat.add_assoc]

/-- **Later tokens stand behind earlier ones.** -/
theorem startOf_lt_edgeOf {edge : Nat} {gap text : List Char} {here there : List Token}
    (within : here <:+ tokensBehind edge gap text) (behind : there <:+ here)
    (shorter : there.length < here.length) (present : there ≠ []) : startOf here < edgeOf there := by
  have presentHere : here ≠ [] := List.ne_nil_of_length_pos (Nat.zero_lt_of_lt shorter)
  obtain ⟨front, gapHere, textHere, -, rfl⟩ := exists_place within presentHere
  cases textHere with
  | nil =>
    rw [tokensBehind_nil, List.length_singleton, Nat.lt_one_iff] at shorter
    exact absurd (List.eq_nil_of_length_eq_zero shorter) present
  | cons first rest =>
    have cut := tokensBehind_cons (edge + byteSize front) gapHere first rest
    rw [startOf_tokensBehind]
    rw [cut] at behind shorter
    rcases List.suffix_cons_iff.mp behind with rfl | behind
    · exact absurd shorter (Nat.lt_irrefl _)
    · obtain ⟨between, gapThere, textThere, -, rfl⟩ := exists_place behind present
      have positive := byteSize_pos (written_split_ne_nil first rest)
      rw [byteSize_written] at positive
      rw [edgeOf_tokensBehind]
      omega

theorem edgeOf_le_startOf (tokens : List Token) : edgeOf tokens ≤ startOf tokens := by
  cases tokens with
  | nil => exact Nat.le_refl 0
  | cons token rest => exact Nat.le_add_right _ _

theorem startOf_le_startOf {edge : Nat} {gap text : List Char} {here there : List Token}
    (within : here <:+ tokensBehind edge gap text) (behind : there <:+ here) (present : there ≠ []) :
    startOf here ≤ startOf there := by
  rcases behind.length_le.lt_or_eq with shorter | same
  · exact Nat.le_trans (Nat.le_of_lt (startOf_lt_edgeOf within behind shorter present))
      (edgeOf_le_startOf there)
  · exact Nat.le_of_eq (congrArg startOf (behind.eq_of_length same).symm)

/-- Only the finish stands at the end of a text. -/
theorem exists_finish_of_startOf {gap text : List Char} {rest : List Token}
    (within : rest <:+ tokensBehind 0 gap text) (present : rest ≠ [])
    (atEnd : byteSize (gap ++ text) ≤ startOf rest) :
    ∃ edge layout, rest = [{ edge, layout, lexeme := .finish }] := by
  obtain ⟨front, gapHere, textHere, whole, rfl⟩ := exists_place within present
  rw [startOf_tokensBehind, Nat.zero_add, whole, byteSize_append, byteSize_append] at atEnd
  obtain rfl : textHere = [] := by
    by_contra visible
    have positive := byteSize_pos visible
    omega
  exact ⟨_, _, tokensBehind_nil _ _⟩

/-- The last token of a text stands at its end. -/
theorem startOf_of_singleton {gap text : List Char} {last : Token}
    (within : [last] <:+ tokensBehind 0 gap text) : last.start = byteSize (gap ++ text) := by
  obtain ⟨front, gapHere, textHere, whole, place⟩ := exists_place within (List.cons_ne_nil _ _)
  have start := congrArg startOf place
  rw [startOf_tokensBehind, Nat.zero_add] at start
  rw [whole, byteSize_append, byteSize_append]
  cases textHere with
  | nil => exact start
  | cons first rest =>
    rw [tokensBehind_cons] at place
    obtain ⟨lexeme, others, cut⟩ := exists_tokensBehind
      (0 + byteSize front + byteSize gapHere + (Lexeme.split first rest).1.size)
      (splitLayout (Lexeme.split first rest).2).1 (splitLayout (Lexeme.split first rest).2).2
    rw [tokensAfter, cut] at place
    exact absurd (List.cons.inj place).2 (List.cons_ne_nil _ _).symm

/-! ### Slices -/

/-- There is nothing but layout in the text. -/
def IsAllLayout (text : List Char) : Prop :=
  splitLayout text = (text, [])

theorem isAllLayout_nil : IsAllLayout [] :=
  rfl

theorem isAllLayout_splitLayout (text : List Char) : IsAllLayout (splitLayout text).1 := by
  by_cases present : (splitLayout text).2 = []
  · have whole := splitLayout_append text
    rw [present, List.append_nil] at whole
    unfold IsAllLayout
    rw [whole]
    exact Prod.ext whole present
  · have kept : Precedes (splitLayout text).1 [] := precedes_of_kept present rfl
    unfold Precedes at kept
    rwa [List.append_nil] at kept

theorem IsAllLayout.head? {text : List Char} (layout : IsAllLayout text) :
    ∀ char ∈ text.head?, isSpace char = true ∨ char = '/' := by
  intro char member
  cases text with
  | nil => cases member
  | cons first rest =>
    cases member
    by_contra solid
    rw [not_or] at solid
    have stays : splitLayout (char :: rest) = ([], char :: rest) := by
      unfold splitLayout splitLayoutFrom
      simp [solid.1, solid.2]
    exact absurd (congrArg Prod.fst (layout.symm.trans stays)) (List.cons_ne_nil _ _)

/-- The same lexemes and layouts. -/
abbrev AreAlike : List Token → List Token → Prop :=
  List.Forall₂ fun token other => token.lexeme = other.lexeme ∧ token.layout = other.layout

/-- With the layout `back` behind it, the text is cut into a token with this lexeme and tokens like
these, and the finish. -/
def SlicesInto (written back : List Char) (lexeme : Lexeme) (tail : List Token) : Prop :=
  ∀ edge gap, ∃ others, AreAlike tail others ∧
    tokensBehind edge gap (written ++ back) =
      { edge, layout := gap, lexeme } ::
        (others ++ [{ edge := edge + byteSize gap + byteSize written, layout := back
                      lexeme := .finish }])

/-- `written` is what the text starts with, up to the tokens `there`, and is cut into the tokens in
front of them again. -/
structure IsSlice (edge : Nat) (gap text : List Char) (lexeme : Lexeme) (tail there : List Token)
    (written : List Char) : Prop where
  present : written ≠ []
  starts : ∃ more, written = lexeme.written ++ more
  ends : ∃ front, written =
    front ++ ((lexeme :: tail.map Token.lexeme).getLast (List.cons_ne_nil _ _)).written
  split : ∃ gapThere textThere, text = written ++ (gapThere ++ textThere) ∧ IsAllLayout gapThere ∧
    there = tokensBehind (edge + byteSize gap + byteSize written) gapThere textThere
  solid : IsSolid text → ∀ {back}, IsAllLayout back → IsSolid (written ++ back)
  slices : ∀ {back}, IsAllLayout back → SlicesInto written back lexeme tail

/-- The first token of a text by itself. A slash is left out, since it would start a comment with one
behind it. -/
theorem isSlice_first (edge : Nat) (gap : List Char) {first : Char} {rest : List Char}
    (noSlash : (Lexeme.split first rest).1 ≠ .mark '/') :
    IsSlice edge gap (first :: rest) (Lexeme.split first rest).1 []
      (tokensAfter (edge + byteSize gap + (Lexeme.split first rest).1.size)
        (Lexeme.split first rest).2) (Lexeme.split first rest).1.written := by
  have size := byteSize_written (Lexeme.split first rest).1
  refine ⟨written_split_ne_nil first rest, ⟨[], (List.append_nil _).symm⟩, ⟨[], rfl⟩,
    ⟨(splitLayout (Lexeme.split first rest).2).1, (splitLayout (Lexeme.split first rest).2).2, ?_,
      isAllLayout_splitLayout _, ?_⟩,
    fun solid back layout => ?_, fun {back} layout edge gap => ?_⟩
  · rw [splitLayout_append, written_split]
  · rw [size]
    rfl
  · obtain ⟨letters, written, -⟩ := split_replaced (Or.inr layout.head?)
    rw [written, List.cons_append]
    refine isSolid_replaced solid written fun slash => ?_
    subst slash
    exact absurd rfl noSlash
  · obtain ⟨letters, written, split⟩ := split_replaced (Or.inr layout.head?)
    refine ⟨[], .nil, ?_⟩
    rw [size, written, List.cons_append, tokensBehind_cons, split, tokensAfter, layout]
    rfl

/-- The first token of a text with others behind it. -/
theorem IsSlice.cons {edge : Nat} {gap : List Char} {first : Char} {rest : List Char} {next : Lexeme}
    {tail there : List Token} {written : List Char}
    (slice : IsSlice (edge + byteSize gap + (Lexeme.split first rest).1.size)
      (splitLayout (Lexeme.split first rest).2).1 (splitLayout (Lexeme.split first rest).2).2 next tail
      there written) {nextEdge : Nat} :
    IsSlice edge gap (first :: rest) (Lexeme.split first rest).1
      ({ edge := nextEdge, layout := (splitLayout (Lexeme.split first rest).2).1, lexeme := next } ::
        tail) there
      ((Lexeme.split first rest).1.written ++ (splitLayout (Lexeme.split first rest).2).1 ++
        written) := by
  have size := byteSize_written (Lexeme.split first rest).1
  obtain ⟨gapThere, textThere, split, layoutThere, place⟩ := slice.split
  have head (back : List Char) :
      ((splitLayout (Lexeme.split first rest).2).1 ++ (written ++ back)).head? =
        (Lexeme.split first rest).2.head? := by
    have whole := congrArg List.head? (splitLayout_append (Lexeme.split first rest).2)
    rw [split, List.head?_append, List.head?_append_of_ne_nil _ slice.present] at whole
    rw [List.head?_append, List.head?_append_of_ne_nil _ slice.present, whole]
  have nonempty : (splitLayout (Lexeme.split first rest).2).2 ≠ [] := by
    rw [split]
    exact List.append_ne_nil_of_left_ne_nil slice.present _
  obtain ⟨front, ends⟩ := slice.ends
  refine ⟨List.append_ne_nil_of_right_ne_nil _ slice.present, ⟨_, List.append_assoc _ _ _⟩,
    ⟨(Lexeme.split first rest).1.written ++ (splitLayout (Lexeme.split first rest).2).1 ++ front, ?_⟩,
    ⟨gapThere, textThere, ?_, layoutThere, ?_⟩,
    fun solid back layout => ?_, fun {back} layout edge gap => ?_⟩
  · rw [List.map_cons, List.getLast_cons (List.cons_ne_nil _ _), List.append_assoc _ front, ← ends]
  · rw [List.append_assoc, List.append_assoc, ← split, splitLayout_append, written_split]
  · rw [place, byteSize_append, byteSize_append, size]
    simp only [Nat.add_assoc]
  · obtain ⟨letters, spelled, -⟩ := split_replaced (Or.inl (head back))
    rw [spelled, List.append_assoc, List.append_assoc, List.cons_append]
    exact isSolid_replaced solid spelled fun _ => head back
  · obtain ⟨letters, spelled, cut⟩ := split_replaced (Or.inl (head back))
    have kept := precedes_of_kept nonempty (slice.solid (isSolid_splitLayout _) layout)
    obtain ⟨others, alike, again⟩ := slice.slices layout
      (edge + byteSize gap + (Lexeme.split first rest).1.size)
      (splitLayout (Lexeme.split first rest).2).1
    refine ⟨⟨edge + byteSize gap + (Lexeme.split first rest).1.size, _, next⟩ :: others,
      .cons ⟨rfl, rfl⟩ alike, ?_⟩
    rw [byteSize_append, byteSize_append, size, spelled, List.append_assoc, List.append_assoc,
      List.cons_append, tokensBehind_cons, cut, tokensAfter, kept, again]
    simp only [Nat.add_assoc, List.cons_append]

/-- **Tokens that follow one another are written in one stretch of the text**, which is cut into them
again: by induction on the tokens. -/
theorem exists_slice {edge : Nat} {gap text : List Char} {token : Token} {tail there : List Token}
    (cut : tokensBehind edge gap text = token :: (tail ++ there)) (present : there ≠ [])
    (noSlash : ∀ last ∈ (token :: tail).getLast?, last.lexeme ≠ .mark '/') :
    ∃ written, IsSlice edge gap text token.lexeme tail there written := by
  induction tail generalizing edge gap text token with
  | nil =>
    cases text with
    | nil => exact absurd (List.cons.inj cut).2.symm present
    | cons first rest =>
      rw [tokensBehind_cons] at cut
      obtain ⟨rfl, rfl⟩ := List.cons.inj cut
      exact ⟨_, isSlice_first edge gap (noSlash _ rfl)⟩
  | cons next tail hypothesis =>
    cases text with
    | nil => exact absurd (List.cons.inj cut).2 (List.cons_ne_nil _ _).symm
    | cons first rest =>
      rw [tokensBehind_cons] at cut
      obtain ⟨rfl, further⟩ := List.cons.inj cut
      rw [List.getLast?_cons_cons] at noSlash
      obtain ⟨written, slice⟩ := hypothesis further noSlash
      obtain ⟨lexeme, rest, start⟩ := exists_tokensBehind
        (edge + byteSize gap + (Lexeme.split first rest).1.size)
        (splitLayout (Lexeme.split first rest).2).1 (splitLayout (Lexeme.split first rest).2).2
      obtain ⟨rfl, -⟩ := List.cons.inj (start.symm.trans further)
      exact ⟨_, slice.cons⟩

/-- **The stretch that tokens of a text are written in**, with or without the layout behind them. -/
theorem exists_stretch {gap text : List Char} {token : Token} {tail there : List Token}
    (within : token :: (tail ++ there) <:+ tokensBehind 0 gap text) (present : there ≠ [])
    (noSlash : ∀ last ∈ (token :: tail).getLast?, last.lexeme ≠ .mark '/') :
    ∃ written gapThere, IsAllLayout gapThere ∧ (∃ more, written = token.lexeme.written ++ more) ∧
      (∃ front, written = front ++
        ((token.lexeme :: tail.map Token.lexeme).getLast (List.cons_ne_nil _ _)).written) ∧
      IsStretch (gap ++ text) { start := token.start, stop := edgeOf there } written ∧
      IsStretch (gap ++ text) { start := token.start, stop := startOf there } (written ++ gapThere) ∧
      ∀ {back}, IsAllLayout back → SlicesInto written back token.lexeme tail := by
  obtain ⟨front, gapHere, textHere, whole, place⟩ := exists_place within (List.cons_ne_nil _ _)
  obtain ⟨written, slice⟩ := exists_slice place.symm present noSlash
  obtain ⟨gapThere, textThere, split, layout, placeThere⟩ := slice.split
  have starts : token.start = byteSize (front ++ gapHere) := by
    have start := congrArg startOf place
    rw [startOf_tokensBehind, Nat.zero_add] at start
    rw [byteSize_append]
    exact start
  rw [split] at whole
  refine ⟨written, gapThere, layout, slice.starts, slice.ends, ⟨front ++ gapHere, gapThere ++ textThere, ?_,
    starts.symm, ?_⟩, ⟨front ++ gapHere, textThere, ?_, starts.symm, ?_⟩, slice.slices⟩
  · rw [whole, List.append_assoc]
  · rw [placeThere, edgeOf_tokensBehind, byteSize_append, Nat.zero_add]
  · rw [whole, List.append_assoc, List.append_assoc]
  · rw [placeThere, startOf_tokensBehind, byteSize_append, byteSize_append, Nat.zero_add,
      Nat.add_assoc _ (byteSize written)]

theorem sameTokens_of_areAlike {tail others : List Token} (alike : AreAlike tail others)
    (last : Token) {last? : Option Lexeme} : SameTokens last? (tail ++ [last]) (others ++ [last]) := by
  induction alike generalizing last? with
  | nil => exact .cons rfl (.of_joined fun _ => rfl) .nil
  | cons same _ hypothesis => exact .cons same.1 (.of_joined fun _ => same.2) hypothesis

theorem map_lexeme_of_areAlike {tail others : List Token} (alike : AreAlike tail others) :
    tail.map Token.lexeme = others.map Token.lexeme := by
  induction alike with
  | nil => rfl
  | cons same _ hypothesis => rw [List.map_cons, List.map_cons, same.1, hypothesis]

/-- A stretch by itself has the same lexemes. -/
theorem SlicesInto.map_lexeme {written back : List Char} {lexeme : Lexeme} {tail : List Token}
    (slices : SlicesInto written back lexeme tail) :
    (tokensFrom (written ++ back)).map Token.lexeme =
      lexeme :: tail.map Token.lexeme ++ [.finish] := by
  obtain ⟨others, alike, cut⟩ := slices 0 []
  rw [show tokensFrom (written ++ back) = _ from cut, List.map_cons, List.map_append,
    map_lexeme_of_areAlike alike]
  rfl

/-- A stretch by itself has the same tokens, with nothing but the finish behind them. -/
theorem SlicesInto.sameTokens {written back : List Char} {token : Token} {tail : List Token}
    (slices : SlicesInto written back token.lexeme tail) (apart : token.lexeme.continues = false) :
    ∃ front last, tokensFrom (written ++ back) = front ++ [last] ∧
      last = { edge := byteSize written, layout := back, lexeme := .finish } ∧
      SameTokens none (token :: (tail ++ [last])) (tokensFrom (written ++ back)) := by
  obtain ⟨others, alike, cut⟩ := slices 0 []
  have whole : tokensFrom (written ++ back) = _ := cut
  simp only [byteSize, Nat.zero_add] at whole
  rw [whole]
  refine ⟨_ :: others, _, rfl, rfl, .cons rfl (.of_joined fun joined => ?_) (sameTokens_of_areAlike alike _)⟩
  simp [areJoined, isInName, isInBrackets, apart] at joined

end ExternBindings.Listing
