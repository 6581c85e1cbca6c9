/-
**Texts with another layout.**

The tokens of a text and the layouts in front of them make up the text (`respaced_layouts`). Where
two neighbouring tokens are not *joined*, any other layout may stand between them; one must stay
where there was one, since two words that touch are one word.

* `areJoined` — the two tokens belong to one name or stand between the brackets of an array;
* `Relaid` — layouts that may stand in front of the tokens of a text in place of their own;
* `SameTokens` — two token lists with the same lexemes and with the same layout in names, and with
  layouts that count alike between the brackets of an array;
* `sameTokens_respaced` — a text whose layouts are replaced has the same tokens.
-/

import ExternBindings.Listing.TypeUse
import ExternBindings.Proofs.Listing.Lexing

namespace ExternBindings.Listing

/-! ### Lexemes as written -/

/-- The characters of a lexeme. -/
def Lexeme.written : Lexeme → List Char
  | word text => text.toList
  | arity digits => arityMark :: digits.toList
  | mark char => [char]
  | finish => []

theorem written_split (first : Char) (rest : List Char) :
    (Lexeme.split first rest).1.written ++ (Lexeme.split first rest).2 = first :: rest := by
  unfold Lexeme.split
  split
  · simp only [Lexeme.written, String.toList_ofList, List.cons_append,
      List.takeWhile_append_dropWhile]
  · split
    · next marked =>
      simp only [Lexeme.written, String.toList_ofList, List.cons_append,
        List.takeWhile_append_dropWhile, marked.1]
      rfl
    · rfl

/-- The text of the tokens, each behind the layout that is given for it. -/
def respaced : List (List Char) → List Token → List Char
  | gap :: gaps, token :: tokens => gap ++ (token.lexeme.written ++ respaced gaps tokens)
  | _, _ => []

theorem respaced_tokensBehind (edge : Nat) (gap text : List Char) :
    respaced ((tokensBehind edge gap text).map Token.layout) (tokensBehind edge gap text) =
      gap ++ text := by
  induction bound : text.length using Nat.strong_induction_on generalizing edge gap text with
  | _ length hypothesis =>
    cases text with
    | nil => simp [tokensBehind_nil, respaced, Lexeme.written]
    | cons first rest =>
      subst bound
      have shorter := Nat.le_trans (length_splitLayout_le (Lexeme.split first rest).2)
        (length_split_le first rest)
      rw [tokensBehind_cons, List.map_cons, respaced, tokensAfter,
        hypothesis _ (Nat.lt_succ_of_le shorter) _ _ _ rfl, splitLayout_append, written_split]

/-- White space and comments, each comment with the end of its line. -/
inductive IsLayout : List Char → Prop
  | nil : IsLayout []
  | space {char : Char} {rest : List Char} :
      isSpace char = true → IsLayout rest → IsLayout (char :: rest)
  | comment {body rest : List Char} {stop : Char} :
      (∀ char ∈ body, isNewline char = false) → isNewline stop = true → IsLayout rest →
        IsLayout ('/' :: '/' :: (body ++ stop :: rest))

/-- The text starts with a token, or is empty. -/
def IsSolid (text : List Char) : Prop :=
  splitLayout text = ([], text)

/-- The layout in front of the text is all the layout there is. -/
def Precedes (gap text : List Char) : Prop :=
  splitLayout (gap ++ text) = (gap, text)

theorem splitLayoutFrom_comment {body : List Char}
    (oneLine : ∀ char ∈ body, isNewline char = false) {stop : Char}
    (newline : isNewline stop = true) (rest : List Char) :
    splitLayoutFrom true (body ++ stop :: rest) =
      (body ++ stop :: (splitLayout rest).1, (splitLayout rest).2) := by
  induction body with
  | nil => simp [splitLayoutFrom, newline, splitLayout]
  | cons char body hypothesis =>
    rw [List.forall_mem_cons] at oneLine
    rw [List.cons_append, splitLayoutFrom, if_pos rfl, oneLine.1]
    simp only [Bool.not_false, hypothesis oneLine.2, List.cons_append]

theorem precedes_of_isLayout {gap text : List Char} (layout : IsLayout gap) (solid : IsSolid text) :
    Precedes gap text := by
  unfold IsSolid at solid
  unfold Precedes
  induction layout with
  | nil => exact solid
  | space blank _ hypothesis =>
    rw [List.cons_append, splitLayout, splitLayoutFrom, if_neg Bool.false_ne_true, if_pos blank]
    simp only [show splitLayoutFrom false _ = _ from hypothesis]
  | comment oneLine newline _ hypothesis =>
    simp only [List.cons_append, List.append_assoc]
    rw [splitLayout, splitLayoutFrom, if_neg Bool.false_ne_true, if_neg (by decide),
      if_pos ⟨rfl, rfl⟩, splitLayoutFrom, if_pos rfl]
    simp only [show (!isNewline '/') = true by decide,
      splitLayoutFrom_comment oneLine newline, hypothesis]

/-- The layout at the head of a text is one in front of any other text too, unless the text is
nothing but layout. -/
theorem splitLayoutFrom_replaced {commented : Bool} {text other : List Char}
    (present : (splitLayoutFrom commented text).2 ≠ []) (solid : IsSolid other) :
    splitLayoutFrom commented ((splitLayoutFrom commented text).1 ++ other) =
      ((splitLayoutFrom commented text).1, other) := by
  induction text generalizing commented with
  | nil => exact absurd rfl present
  | cons char rest hypothesis =>
    rw [splitLayoutFrom] at present ⊢
    split
    · next inside =>
      rw [if_pos inside] at present
      simp only [List.cons_append, splitLayoutFrom, inside, if_true, hypothesis present]
    · next outside =>
      rw [if_neg outside] at present
      split
      · next blank =>
        rw [if_pos blank] at present
        simp only [List.cons_append, splitLayoutFrom, if_neg outside, if_pos blank,
          hypothesis present]
      · next notBlank =>
        rw [if_neg notBlank] at present
        split
        · next slashes =>
          rw [if_pos slashes] at present
          have heads : ((splitLayoutFrom true rest).1 ++ other).head? = some '/' := by
            cases rest with
            | nil => cases slashes.2
            | cons second rest =>
              rw [splitLayoutFrom, if_pos rfl]
              exact slashes.2
          simp only [List.cons_append]
          rw [splitLayoutFrom, if_neg outside, if_neg notBlank, if_pos ⟨slashes.1, heads⟩]
          simp only [hypothesis present]
        · rw [Bool.not_eq_true] at outside
          subst outside
          exact solid

theorem precedes_of_kept {text other : List Char} (present : (splitLayout text).2 ≠ [])
    (solid : IsSolid other) : Precedes (splitLayout text).1 other :=
  splitLayoutFrom_replaced present solid

theorem isSolid_splitLayoutFrom (commented : Bool) (text : List Char) :
    IsSolid (splitLayoutFrom commented text).2 := by
  induction text generalizing commented with
  | nil => rfl
  | cons char rest hypothesis =>
    rw [splitLayoutFrom]
    split
    · exact hypothesis _
    · next outside =>
      split
      · exact hypothesis _
      · next notBlank =>
        split
        · exact hypothesis _
        · next notSlashes =>
          unfold IsSolid splitLayout
          rw [splitLayoutFrom, if_neg Bool.false_ne_true, if_neg notBlank, if_neg notSlashes]

theorem isSolid_splitLayout (text : List Char) : IsSolid (splitLayout text).2 :=
  isSolid_splitLayoutFrom false text

/-! ### Joined tokens -/

/-- A name goes on behind the lexeme. -/
def Lexeme.opens : Lexeme → Bool
  | mark char => char = '.' || char = '/' || char = '!'
  | _ => false

/-- A name goes on with the lexeme. -/
def Lexeme.continues : Lexeme → Bool
  | arity _ => true
  | mark char => char = '.' || char = '/'
  | _ => false

/-- The lexeme is in the same name as the one before it. -/
def isInName (last? : Option Lexeme) (lexeme : Lexeme) : Bool :=
  last?.any Lexeme.opens || lexeme.continues

/-- The lexeme is a comma or closing bracket right behind an opening bracket or comma, as it is only
between the brackets of an array. -/
def isInBrackets (last? : Option Lexeme) (lexeme : Lexeme) : Bool :=
  (last? = some (.mark '[') || last? = some (.mark ',')) &&
    (lexeme = .mark ',' || lexeme = .mark ']')

/-- The layout in front of the lexeme is part of what the text says; `last?` is the lexeme before
it. -/
def areJoined (last? : Option Lexeme) (lexeme : Lexeme) : Bool :=
  isInName last? lexeme || isInBrackets last? lexeme

theorem areJoined_of_opens {last lexeme : Lexeme} (opens : last.opens = true) :
    areJoined (some last) lexeme = true := by
  simp [areJoined, isInName, opens]

/-- It matters whether there is a layout in front of the lexeme. -/
def mayTouch (last? : Option Lexeme) (lexeme : Lexeme) : Bool :=
  isInName last? lexeme || (last? = some (.mark ',') && lexeme = .mark ',')

theorem mayTouch_of_continues {last? : Option Lexeme} {lexeme : Lexeme}
    (continues : lexeme.continues = true) : mayTouch last? lexeme = true := by
  simp [mayTouch, isInName, continues]

theorem areJoined_of_mayTouch {last? : Option Lexeme} {lexeme : Lexeme}
    (touch : mayTouch last? lexeme = true) : areJoined last? lexeme = true := by
  unfold mayTouch at touch
  rcases Bool.or_eq_true_iff.mp touch with inName | commas
  · rw [areJoined, inName, Bool.true_or]
  · simp only [Bool.and_eq_true, decide_eq_true_eq] at commas
    rw [areJoined, commas.1, commas.2]
    rfl

/-- The layout may stand in front of the token in place of its own. -/
def Token.MayFollow (last? : Option Lexeme) (gap : List Char) (token : Token) : Prop :=
  gap = token.layout ∨
    areJoined last? token.lexeme = false ∧ IsLayout gap ∧ (token.layout ≠ [] → gap ≠ [])

/-- The layouts may stand in front of the tokens in place of their own. -/
inductive Relaid : Option Lexeme → List Token → List (List Char) → Prop
  | nil {last? : Option Lexeme} : Relaid last? [] []
  | cons {last? : Option Lexeme} {token : Token} {tokens : List Token} {gap : List Char}
      {gaps : List (List Char)} :
      token.MayFollow last? gap → Relaid (some token.lexeme) tokens gaps →
        Relaid last? (token :: tokens) (gap :: gaps)

/-- The layouts in front of the two tokens say the same: both or none if that matters, and between
brackets as many commas. -/
structure Token.SaysSame (last? : Option Lexeme) (token other : Token) : Prop where
  touch : mayTouch last? token.lexeme = true → token.isGlued = other.isGlued
  count : isInBrackets last? token.lexeme = true → commasIn token.layout = commasIn other.layout

theorem Token.SaysSame.of_joined {last? : Option Lexeme} {token other : Token}
    (same : areJoined last? token.lexeme = true → token.layout = other.layout) :
    token.SaysSame last? other where
  touch touch := congrArg List.isEmpty (same (areJoined_of_mayTouch touch))
  count inBrackets := congrArg commasIn (same (by rw [areJoined, inBrackets, Bool.or_true]))

/-- The same lexemes, with layouts that say the same. -/
inductive SameTokens : Option Lexeme → List Token → List Token → Prop
  | nil {last? : Option Lexeme} : SameTokens last? [] []
  | cons {last? : Option Lexeme} {token other : Token} {tokens others : List Token} :
      token.lexeme = other.lexeme →
        token.SaysSame last? other →
          SameTokens (some token.lexeme) tokens others →
            SameTokens last? (token :: tokens) (other :: others)

theorem SameTokens.length_eq {last? : Option Lexeme} {tokens others : List Token}
    (same : SameTokens last? tokens others) : tokens.length = others.length := by
  induction same with
  | nil => rfl
  | cons _ _ _ hypothesis => rw [List.length_cons, List.length_cons, hypothesis]

/-! ### Cutting a text with other layouts -/

theorem Token.MayFollow.precedes {last? : Option Lexeme} {text other gap : List Char}
    {token : Token} (follows : token.MayFollow last? gap)
    (own : token.layout = (splitLayout text).1) (solid : IsSolid other)
    (empty : (splitLayout text).2 = [] → other = []) : Precedes gap other := by
  rcases follows with rfl | ⟨_, layout, _⟩
  · rw [own]
    by_cases present : (splitLayout text).2 = []
    · have whole := splitLayout_append text
      rw [present, List.append_nil] at whole
      unfold Precedes
      rw [empty present, List.append_nil, whole]
      exact Prod.ext whole present
    · exact precedes_of_kept present solid
  · exact precedes_of_isLayout layout solid

theorem head?_layout {gap : List Char} (layout : IsLayout gap) :
    ∀ char ∈ gap.head?, isSpace char = true ∨ char = '/' := by
  intro char member
  cases layout with
  | nil => exact absurd member (Option.not_mem_none char)
  | space blank => exact Or.inl (Option.mem_some.mp member ▸ blank)
  | comment => exact Or.inr (Option.mem_some.mp member).symm

/-- With another layout in front, a text starts as before or with a character of a layout. -/
theorem Token.MayFollow.head? {last? : Option Lexeme} {text other gap : List Char} {token : Token}
    (follows : token.MayFollow last? gap) (own : token.layout = (splitLayout text).1)
    (sameHead : other.head? = (splitLayout text).2.head?) :
    (gap ++ other).head? = text.head? ∨
      areJoined last? token.lexeme = false ∧
        ∀ char ∈ (gap ++ other).head?, isSpace char = true ∨ char = '/' := by
  have whole := congrArg List.head? (splitLayout_append text)
  rw [List.head?_append, ← own] at whole
  rw [List.head?_append, sameHead]
  rcases follows with rfl | ⟨apart, layout, kept⟩
  · exact Or.inl whole
  · cases gap with
    | nil =>
      have touching : token.layout = [] := by
        by_contra present
        exact kept present rfl
      rw [touching] at whole
      exact Or.inl whole
    | cons char rest => exact Or.inr ⟨apart, head?_layout layout⟩

theorem HeadAvoids.of_head? {accepts : Char → Bool} {text other : List Char}
    (avoids : HeadAvoids accepts text) (refused : ∀ char, accepts char = true → isSolid char = true)
    (heads : other.head? = text.head? ∨
      ∀ char ∈ other.head?, isSpace char = true ∨ char = '/') :
    HeadAvoids accepts other := by
  intro char member
  rcases heads with same | blank
  · exact avoids char (same ▸ member)
  · by_contra accepted
    rw [Bool.not_eq_false] at accepted
    have solid := refused char accepted
    simp only [isSolid, Bool.and_eq_true, Bool.not_eq_true', decide_eq_true_eq] at solid
    rcases blank char member with blank | blank
    · rw [solid.1] at blank
      cases blank
    · exact solid.2 blank

theorem isSolid_of_isDigit {char : Char} (digit : char.isDigit = true) : isSolid char = true := by
  apply isSolid_of_isWordChar
  simp [isWordChar, Char.isAlphanum, digit]

theorem headAvoids_dropWhile (accepts : Char → Bool) (text : List Char) :
    HeadAvoids accepts (text.dropWhile accepts) := by
  intro char member
  have refused := List.head?_dropWhile_not accepts text
  rw [Option.mem_def.mp member] at refused
  simpa using refused

theorem takeWhile_eq_nil_iff {accepts : Char → Bool} {text : List Char} :
    text.takeWhile accepts = [] ↔ HeadAvoids accepts text := by
  cases text with
  | nil => exact iff_of_true rfl (headAvoids_nil accepts)
  | cons char rest => simp [HeadAvoids, List.takeWhile_cons]

/-- The first lexeme ends where it ended before if what follows starts with the same character or,
if it is not empty, with one of a layout. -/
theorem split_replaced {first : Char} {rest other : List Char}
    (heads : other.head? = (Lexeme.split first rest).2.head? ∨
      ∀ char ∈ other.head?, isSpace char = true ∨ char = '/') :
    ∃ tail, (Lexeme.split first rest).1.written = first :: tail ∧
      Lexeme.split first (tail ++ other) = ((Lexeme.split first rest).1, other) := by
  have taken : ∀ accepts : Char → Bool, ∀ char ∈ rest.takeWhile accepts, accepts char = true :=
    fun accepts char member => List.mem_takeWhile_imp member
  unfold Lexeme.split at heads ⊢
  split
  · next starts =>
    rw [if_pos starts] at heads
    have cut := takeWhile_append_avoids (taken isWordChar)
      ((headAvoids_dropWhile isWordChar rest).of_head? (fun _ => isSolid_of_isWordChar) heads)
    refine ⟨_, by rw [Lexeme.written, String.toList_ofList], ?_⟩
    rw [cut.1, cut.2]
  · next notStart =>
    rw [if_neg notStart] at heads
    split
    · next marked =>
      rw [if_pos marked] at heads
      have cut := takeWhile_append_avoids (taken Char.isDigit)
        ((headAvoids_dropWhile Char.isDigit rest).of_head? (fun _ => isSolid_of_isDigit) heads)
      refine ⟨_, by rw [Lexeme.written, String.toList_ofList, marked.1]; rfl, ?_⟩
      rw [cut.1, cut.2, if_pos marked]
    · next notMarked =>
      rw [if_neg notMarked] at heads
      refine ⟨[], rfl, ?_⟩
      rw [List.nil_append, if_neg]
      rintro ⟨marked, digits⟩
      refine notMarked ⟨marked, ?_⟩
      -- Without digits behind it before, the back quote has none now.
      by_contra none
      rw [Bool.not_eq_false, List.isEmpty_iff, takeWhile_eq_nil_iff] at none
      rw [takeWhile_eq_nil_iff.mpr (none.of_head? (fun _ => isSolid_of_isDigit) heads)] at digits
      cases digits

/-- A text that starts with a token still does so when its first lexeme is followed by something
else, if what follows a slash starts as before. -/
theorem isSolid_replaced {first : Char} {rest tail other : List Char}
    (solid : IsSolid (first :: rest))
    (written : (Lexeme.split first rest).1.written = first :: tail)
    (heads : first = '/' → other.head? = (Lexeme.split first rest).2.head?) :
    IsSolid (first :: (tail ++ other)) := by
  unfold IsSolid splitLayout at solid ⊢
  rw [splitLayoutFrom, if_neg Bool.false_ne_true] at solid ⊢
  by_cases blank : isSpace first = true
  · rw [if_pos blank] at solid
    cases congrArg Prod.fst solid
  · rw [if_neg blank] at solid ⊢
    by_cases slash : first = '/'
    · subst slash
      have split : Lexeme.split '/' rest = (.mark '/', rest) := rfl
      rw [split] at written heads
      cases written
      rw [List.nil_append, heads rfl]
      by_cases double : rest.head? = some '/'
      · rw [if_pos ⟨rfl, double⟩] at solid
        cases congrArg Prod.fst solid
      · rw [if_neg fun both => double both.2]
    · rw [if_neg fun both => slash both.1]

/-- A text whose first token is `lexeme` and whose other tokens are `tail`, against `other`, which is
the same text with other layouts behind its first token. -/
structure Recut (lexeme : Lexeme) (tail : List Token) (text other : List Char) : Prop where
  solid : IsSolid other
  head : other.head? = text.head?
  same : ∀ edge gap, ∃ others,
    tokensBehind edge gap other = { edge, layout := gap, lexeme } :: others ∧
      SameTokens (some lexeme) tail others

/-- Cutting a text behind a layout that was replaced. -/
theorem Recut.behind {last? : Option Lexeme} {gap : List Char} {token : Token}
    {tail : List Token} {text other : List Char} (recut : Recut token.lexeme tail (splitLayout text).2 other)
    (own : token.layout = (splitLayout text).1) (follows : token.MayFollow last? gap)
    (edge : Nat) : SameTokens last? (token :: tail) (tokensAfter edge (gap ++ other)) := by
  have precedes : Precedes gap other := by
    refine follows.precedes own recut.solid fun absent => ?_
    have head := recut.head
    rwa [absent, List.head?_nil, List.head?_eq_none_iff] at head
  obtain ⟨others, cut, same⟩ := recut.same edge gap
  rw [tokensAfter, precedes, cut]
  refine SameTokens.cons rfl (.of_joined fun joined => ?_) same
  rcases follows with kept | ⟨apart, _⟩
  · exact kept.symm
  · rw [apart] at joined
    cases joined

/-- **Replacing layouts keeps the tokens**, for a text without layout at its head: by induction on
the text, token by token. -/
theorem recut_of_relaid {edge : Nat} {gap text : List Char} {gaps : List (List Char)}
    {token : Token} {tail : List Token} (cut : tokensBehind edge gap text = token :: tail)
    (solid : IsSolid text) (relaid : Relaid (some token.lexeme) tail gaps) :
    Recut token.lexeme tail text (token.lexeme.written ++ respaced gaps tail) := by
  induction bound : text.length using Nat.strong_induction_on
    generalizing edge gap text gaps token tail with
  | _ length hypothesis =>
    cases text with
    | nil =>
      cases cut
      cases relaid
      exact ⟨rfl, rfl, fun edge gap => ⟨[], rfl, SameTokens.nil⟩⟩
    | cons first rest =>
      subst bound
      rw [tokensBehind_cons] at cut
      cases cut
      have shorter := Nat.le_trans (length_splitLayout_le (Lexeme.split first rest).2)
        (length_split_le first rest)
      obtain ⟨next, further, cut⟩ := exists_tokensBehind
        (edge + byteSize gap + (Lexeme.split first rest).1.size)
        (splitLayout (Lexeme.split first rest).2).1 (splitLayout (Lexeme.split first rest).2).2
      have behind := cut
      rw [← tokensAfter] at behind
      rw [behind] at relaid ⊢
      cases relaid with
      | cons follows relaid =>
        rename_i newGap newGaps
        have recut := hypothesis _ (Nat.lt_succ_of_le shorter) cut (isSolid_splitLayout _) relaid rfl
        have heads := follows.head? rfl recut.head
        obtain ⟨letters, written, split⟩ :=
          split_replaced (heads.imp_right fun blank => blank.2)
        rw [respaced, written, List.cons_append]
        refine ⟨isSolid_replaced solid written fun slash => ?_, rfl, fun edge gap => ?_⟩
        · rcases heads with same | ⟨apart, _⟩
          · exact same
          · subst slash
            rw [areJoined_of_opens rfl] at apart
            cases apart
        · rw [tokensBehind_cons, split]
          exact ⟨_, rfl, recut.behind rfl follows _⟩

/-- **A text whose layouts are replaced has the same tokens.** -/
theorem sameTokens_respaced {text : List Char} {gaps : List (List Char)}
    (relaid : Relaid none (tokensOf text) gaps) :
    SameTokens none (tokensOf text) (tokensOf (respaced gaps (tokensOf text))) := by
  obtain ⟨lexeme, tail, cut⟩ := exists_tokensBehind 0 (splitLayout text).1 (splitLayout text).2
  have whole : tokensOf text = _ := cut
  rw [whole] at relaid ⊢
  cases relaid with
  | cons follows relaid =>
    exact (recut_of_relaid cut (isSolid_splitLayout text) relaid).behind rfl follows 0

end ExternBindings.Listing
