/-
**The ranks of arrays.**

The rank of an array is meant to be told by the run of commas between its brackets, but commas in
comments count as well.

* `exists_last`, `readTypeReference_of_last` — texts that are a reference up to their ends;
* `Rebracketed` — other layouts between the brackets, with as many commas;
* `ranks_iff` — the ranks count the commas of the runs exactly if no other comma is in the brackets, as
  long as the commas can be counted in a word; `exists_rank_of_comment` — a comma may be in a comment.
-/

import ExternBindings.Proofs.Listing.Brackets
import ExternBindings.Proofs.Listing.StandAlone

namespace ExternBindings.Listing

open Reading

/-! ### Texts up to their ends -/

/-- A text that is a reference is read up to its end, without a layout behind a suffix. -/
theorem exists_last {text : String} {reference : TypeReference}
    (read : readTypeReference text = .ok reference) :
    ∃ use last, Reads typeUse (tokensFrom (Text.trim text.toList)) use [last] ∧
      use.type = reference ∧ last.lexeme = .finish ∧
      (reference.isSuffixed = true → last.layout = []) := by
  obtain ⟨rest, reads⟩ := readTypeReference_eq_ok.mp read
  have within := (yields_typeUse isLawful_of_mem_tokensBehind reads).2
  have present : rest ≠ [] := by
    obtain ⟨taken, split, visible, ⟨token, tail, rfl, -⟩, -⟩ := portable_typeUseWithin _ 0 reads
    have whole : token :: tail ++ rest <:+ tokensBehind 0 [] (Text.trim text.toList) :=
      split ▸ List.suffix_refl _
    exact ne_nil_of_isVisible whole (List.cons_ne_nil token tail) visible
  have stop : byteSize (Text.trim text.toList) = _ := stop_of_reads isLawful_of_mem_tokensBehind reads
  have atEnd : byteSize ([] ++ Text.trim text.toList) ≤ startOf rest := by
    rw [List.nil_append, stop]
    split
    · exact edgeOf_le_startOf rest
    · exact Nat.le_refl _
  obtain ⟨edge, layout, rfl⟩ := exists_finish_of_startOf within present atEnd
  refine ⟨_, _, reads, rfl, rfl, fun suffixed => ?_⟩
  have start : edge + byteSize layout = byteSize (Text.trim text.toList) := startOf_of_singleton within
  have edgeAtEnd : byteSize (Text.trim text.toList) = edge := stop.trans (if_pos suffixed)
  by_contra visible
  have positive : 0 < byteSize layout := byteSize_pos visible
  omega

/-- What is read up to the end of a text, without a layout behind a suffix, is what the text is. -/
theorem readTypeReference_of_last {text : String} {use : TypeUse} {last : Token}
    (reads : Reads typeUse (tokensFrom (Text.trim text.toList)) use [last])
    (ends : use.type.isSuffixed = true → last.layout = []) :
    readTypeReference text = .ok use.type := by
  have within := (yields_typeUse isLawful_of_mem_tokensBehind reads).2
  have start : last.start = byteSize (Text.trim text.toList) := startOf_of_singleton within
  have stop := stop_of_reads isLawful_of_mem_tokensBehind reads
  have whole : use.stop = byteSize (Text.trim text.toList) := by
    rw [stop, ← start]
    split
    · next suffixed =>
      unfold Token.start
      rw [ends suffixed]
      rfl
    · rfl
  obtain ⟨type, stopToo⟩ := use
  cases whole
  exact readTypeReference_eq_ok.mpr ⟨_, reads⟩

/-! ### Other layouts between brackets -/

/-- The same tokens, apart from the layouts at the ends of brackets, which hold as many commas. -/
inductive Rebracketed : Option Lexeme → List Token → List Token → Prop
  | nil {last? : Option Lexeme} : Rebracketed last? [] []
  | cons {last? : Option Lexeme} {token other : Token} {tokens others : List Token} :
      token.lexeme = other.lexeme →
        (token.layout = other.layout ∨
          isInBrackets last? token.lexeme = true ∧ mayTouch last? token.lexeme = false ∧
            commasIn token.layout = commasIn other.layout) →
          Rebracketed (some token.lexeme) tokens others →
            Rebracketed last? (token :: tokens) (other :: others)

namespace Rebracketed

variable {last? : Option Lexeme} {tokens others : List Token}

theorem sameTokens (rebracketed : Rebracketed last? tokens others) :
    SameTokens last? tokens others := by
  induction rebracketed with
  | nil => exact .nil
  | cons lexeme layouts _ hypothesis =>
    refine .cons lexeme ?_ hypothesis
    rcases layouts with same | ⟨-, apart, counts⟩
    · exact .of_joined fun _ => same
    · refine ⟨fun touch => ?_, fun _ => counts⟩
      rw [apart] at touch
      cases touch

/-- The layout in front of the finish stays. -/
theorem finish (rebracketed : Rebracketed last? tokens others) {token : Token}
    (last : tokens.getLast? = some token) (finished : token.lexeme = .finish) :
    ∃ other, others.getLast? = some other ∧ token.layout = other.layout := by
  induction rebracketed with
  | nil => cases last
  | @cons last? head other tokens others lexeme layouts further hypothesis =>
    cases further with
    | nil =>
      obtain rfl : head = token := Option.some.inj last
      refine ⟨other, rfl, layouts.resolve_right fun inside => ?_⟩
      have inBrackets := inside.1
      rw [finished] at inBrackets
      simp [isInBrackets] at inBrackets
    | cons => exact hypothesis last

end Rebracketed

theorem getLast?_of_suffix {tokens : List Token} {last : Token} (within : [last] <:+ tokens) :
    tokens.getLast? = some last := by
  obtain ⟨front, rfl⟩ := within
  exact List.getLast?_concat

/-- **A reference does not change with the layouts between brackets**, as long as these hold as many
commas. -/
theorem readTypeReference_rebracketed {text other : String} {reference : TypeReference}
    (read : readTypeReference text = .ok reference)
    (rebracketed : Rebracketed none (tokensFrom (Text.trim text.toList))
      (tokensFrom (Text.trim other.toList))) :
    readTypeReference other = .ok reference := by
  obtain ⟨use, last, reads, rfl, finished, ends⟩ := exists_last read
  have agree := agrees_typeUse (rfl : Closed none) rebracketed.sameTokens
  rw [show (typeUse (tokensFrom (Text.trim text.toList))).value? = _ from reads] at agree
  generalize answered : (typeUse (tokensFrom (Text.trim other.toList))).value? = answer at agree
  cases agree with
  | @taken _ useToo _ left _ alike _ _ same =>
    have readsToo : Reads typeUse (tokensFrom (Text.trim other.toList)) useToo left := answered
    obtain ⟨lastToo, rfl⟩ := List.length_eq_one_iff.mp same.length_eq.symm
    have isLast := getLast?_of_suffix (yields_typeUse isLawful_of_mem_tokensBehind reads).2
    have isLastToo := getLast?_of_suffix (yields_typeUse isLawful_of_mem_tokensBehind readsToo).2
    obtain ⟨final, isFinal, layouts⟩ := rebracketed.finish isLast finished
    obtain rfl : lastToo = final := Option.some.inj (isLastToo.symm.trans isFinal)
    rw [show use.type = useToo.type from alike] at ends ⊢
    exact readTypeReference_of_last readsToo fun suffixed => layouts ▸ ends suffixed

/-! ### Ranks of references -/

/-- The rank is one more than the number of commas in the run if that fits into a word and the other
commas go round all words, none of them included. -/
theorem Brackets.toNat_rank_eq_iff {brackets : Brackets} :
    brackets.rank.toNat = brackets.commas + 1 ↔ brackets.commas + 1 < UInt32.size ∧
      UInt32.size ∣ commasIn brackets.before + commasIn brackets.after := by
  unfold Brackets.rank Brackets.count
  rw [Rank.toNat_ofCommas]
  unfold UInt32.size
  omega

/-- Commas that do not fill a word are none if they go round all words. -/
theorem Brackets.counts_iff {brackets : Brackets} (few : brackets.count + 1 < UInt32.size) :
    (brackets.commas + 1 < UInt32.size ∧
        UInt32.size ∣ commasIn brackets.before + commasIn brackets.after) ↔
      ',' ∉ brackets.before ∧ ',' ∉ brackets.after := by
  rw [← List.count_eq_zero, ← List.count_eq_zero]
  unfold Brackets.count commasIn UInt32.size at *
  omega

/-- The ranks of a reference are those of all brackets in its text. -/
theorem ranks_eq_of_readTypeReference {text : String} {reference : TypeReference}
    (read : readTypeReference text = .ok reference) :
    reference.ranks = (bracketsOf text).map Brackets.rank := by
  obtain ⟨use, last, reads, rfl, finished, -⟩ := exists_last read
  obtain ⟨⟨_, rfl, along⟩, -⟩ := ranks_typeUse isLawful_of_mem_tokensBehind reads
  have none : ranksAt [last] = [] := by
    rw [ranksAt, bracketsIn, if_neg (by rw [finished]; decide)]
    rfl
  have whole : ranksAt (tokensFrom (Text.trim text.toList)) = use.type.ranks ++ ranksAt [last] :=
    along
  rw [none, List.append_nil] at whole
  exact whole.symm

/-- **The ranks of a reference count the commas of its array suffixes** exactly if no other comma is
between the brackets of one. In any case a rank counts all commas between its brackets, those in
comments included, in a word; and the reference does not change with comments that hold as many
commas. -/
theorem ranks_iff {text : String} {reference : TypeReference}
    (read : readTypeReference text = .ok reference) :
    reference.ranks = (bracketsOf text).map Brackets.rank ∧
    (reference.ranks.map UInt32.toNat =
        (bracketsOf text).map (fun brackets => brackets.commas + 1) ↔
      ∀ brackets ∈ bracketsOf text, brackets.commas + 1 < UInt32.size ∧
        UInt32.size ∣ commasIn brackets.before + commasIn brackets.after) ∧
    (commasIn text.toList + 1 < UInt32.size →
      (reference.ranks.map UInt32.toNat =
          (bracketsOf text).map (fun brackets => brackets.commas + 1) ↔
        ∀ brackets ∈ bracketsOf text, ',' ∉ brackets.before ∧ ',' ∉ brackets.after)) ∧
    ∀ other, Rebracketed none (tokensFrom (Text.trim text.toList))
        (tokensFrom (Text.trim other.toList)) → readTypeReference other = .ok reference := by
  have counted := ranks_eq_of_readTypeReference read
  have exactly : reference.ranks.map UInt32.toNat =
      (bracketsOf text).map (fun brackets => brackets.commas + 1) ↔
        ∀ brackets ∈ bracketsOf text, brackets.commas + 1 < UInt32.size ∧
          UInt32.size ∣ commasIn brackets.before + commasIn brackets.after := by
    rw [counted, List.map_map, List.map_inj_left]
    exact forall₂_congr fun brackets _ => Brackets.toNat_rank_eq_iff
  refine ⟨counted, exactly, fun few => exactly.trans ?_,
    fun other => readTypeReference_rebracketed read⟩
  refine forall₂_congr fun brackets member => Brackets.counts_iff ?_
  have held : brackets.count ≤ commasIn text.toList := count_le_of_mem_bracketsOf member
  omega

/-- An array of two dimensions with a comment, as argument of an array of one. -/
def rankedText : String :=
  "A<B[,//c\n]>[]"

/-- The same reference with another comment in another place. -/
def rerankedText : String :=
  "A<B[ //d\n,]>[]"

theorem rebracketed_rankedText :
    Rebracketed none (tokensFrom (Text.trim rankedText.toList))
      (tokensFrom (Text.trim rerankedText.toList)) := by
  have tokens : tokensFrom (Text.trim rankedText.toList) =
      [⟨0, [], .word "A"⟩, ⟨1, [], .mark '<'⟩, ⟨2, [], .word "B"⟩, ⟨3, [], .mark '['⟩,
        ⟨4, [], .mark ','⟩, ⟨5, ['/', '/', 'c', '\n'], .mark ']'⟩, ⟨10, [], .mark '>'⟩,
        ⟨11, [], .mark '['⟩, ⟨12, [], .mark ']'⟩, ⟨13, [], .finish⟩] := by
    decide +kernel
  have others : tokensFrom (Text.trim rerankedText.toList) =
      [⟨0, [], .word "A"⟩, ⟨1, [], .mark '<'⟩, ⟨2, [], .word "B"⟩, ⟨3, [], .mark '['⟩,
        ⟨4, [' ', '/', '/', 'd', '\n'], .mark ','⟩, ⟨10, [], .mark ']'⟩, ⟨11, [], .mark '>'⟩,
        ⟨12, [], .mark '['⟩, ⟨13, [], .mark ']'⟩, ⟨14, [], .finish⟩] := by
    decide +kernel
  rw [tokens, others]
  refine .cons rfl (.inl rfl) (.cons rfl (.inl rfl) (.cons rfl (.inl rfl) (.cons rfl (.inl rfl) ?_)))
  refine .cons rfl (.inr ⟨rfl, rfl, rfl⟩) (.cons rfl (.inr ⟨rfl, rfl, rfl⟩) (.cons rfl (.inl rfl) ?_))
  exact .cons rfl (.inl rfl) (.cons rfl (.inl rfl) (.cons rfl (.inl rfl) .nil))

/-- With comments that hold no comma, the ranks count the commas, wherever the comments are. -/
theorem ranks_iff_nested :
    ∃ reference, readTypeReference rankedText = .ok reference ∧
      reference.ranks.map UInt32.toNat = [2, 1] ∧
      (bracketsOf rankedText).map (fun brackets => brackets.commas + 1) = [2, 1] ∧
      readTypeReference rerankedText = .ok reference := by
  have read : readTypeReference rankedText = .ok (.array (.instantiation { space := "", name := "A" }
      [.array (.named { space := "", name := "B" }) 2]) 1) := by
    unfold readTypeReference rankedText
    rw [String.toList_ofList]
    rfl
  have counts : (bracketsOf rankedText).map (fun brackets => brackets.commas + 1) = [2, 1] := by
    decide +kernel
  have plain : ∀ brackets ∈ bracketsOf rankedText, ',' ∉ brackets.before ∧ ',' ∉ brackets.after := by
    decide +kernel
  have few : commasIn rankedText.toList + 1 < UInt32.size := by
    decide +kernel
  obtain ⟨-, -, counted, stays⟩ := ranks_iff read
  exact ⟨_, read, ((counted few).mpr plain).trans counts, counts, stays _ rebracketed_rankedText⟩

/-- **A comma in a comment counts as a dimension.** The array in the text has no comma between its
brackets but one in a comment, and two dimensions; without the comma in the comment it has one. -/
theorem exists_rank_of_comment :
    ∃ reference other, readTypeReference "X[//,\n]" = .ok reference ∧ reference.ranks = [2] ∧
      (bracketsOf "X[//,\n]").map (fun brackets => brackets.commas + 1) = [1] ∧
      readTypeReference "X[//\n]" = .ok other ∧ other.ranks = [1] := by
  refine ⟨.array (.named { space := "", name := "X" }) 2,
    .array (.named { space := "", name := "X" }) 1, ?_, rfl, by decide +kernel, ?_, rfl⟩
  · unfold readTypeReference
    rw [String.toList_ofList]
    rfl
  · unfold readTypeReference
    rw [String.toList_ofList]
    rfl

end ExternBindings.Listing
