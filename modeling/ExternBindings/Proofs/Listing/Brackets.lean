/-
**The brackets of arrays.**

The rank of an array is meant to be told by the commas between its brackets. It is counted in the text
of the suffix, so that a comma in a comment there counts as well.

* `Brackets`, `bracketsIn` — the brackets in a text, each with its run of commas and the layouts around
  it;
* `ranks_suffix`, …, `ranks_typeUse` — each suffix gives the rank of its brackets, and nothing else
  passes any;
* `count_le_of_mem_bracketsIn` — brackets hold no more commas than the text, so that it takes very many
  of them for a rank to be zero (`le_commasAt_of_zero_mem`, `le_commasIn_of_readTypeReference`).
-/

import ExternBindings.Proofs.Listing.NoteScheme
import ExternBindings.Proofs.Listing.Respaced

namespace ExternBindings.Listing

open Reading

/-- The rank that a suffix gives, if it is that of an array. -/
def Suffix.ranks : Suffix → List Rank
  | array rank => [rank]
  | indirect _ => []

/-! ### Brackets -/

/-- What stands between the brackets of an array: a run of commas between two layouts, or one
layout. -/
structure Brackets where
  before : List Char
  commas : Nat
  after : List Char

/-- The number of all commas between the brackets. -/
def Brackets.count (brackets : Brackets) : Nat :=
  commasIn brackets.before + brackets.commas + commasIn brackets.after

/-- All commas between the brackets count, and one more. -/
def Brackets.rank (brackets : Brackets) : Rank :=
  .ofCommas brackets.count

/-- The token is a comma. -/
def Token.isComma (token : Token) : Bool :=
  token.lexeme = .mark ','

/-- What stands behind an opening bracket. -/
def bracketsBehind (tokens : List Token) : Brackets :=
  { before := (tokens.takeWhile Token.isComma).head?.elim [] Token.layout
    commas := (tokens.takeWhile Token.isComma).length
    after := (tokens.dropWhile Token.isComma).head?.elim [] Token.layout }

/-- All brackets among the tokens, in their order. -/
def bracketsIn : List Token → List Brackets
  | [] => []
  | token :: rest =>
    if token.lexeme = .mark '[' then bracketsBehind rest :: bracketsIn rest else bracketsIn rest

theorem bracketsIn_append {taken rest : List Token}
    (none : ∀ token ∈ taken, token.lexeme ≠ .mark '[') :
    bracketsIn (taken ++ rest) = bracketsIn rest := by
  induction taken with
  | nil => rfl
  | cons token taken hypothesis =>
    rw [List.forall_mem_cons] at none
    rw [List.cons_append, bracketsIn, if_neg none.1, hypothesis none.2]

/-- The ranks of all brackets among the tokens. -/
def ranksAt (tokens : List Token) : List Rank :=
  (bracketsIn tokens).map Brackets.rank

/-- The trace of the brackets that are passed. -/
def Trace.ofBrackets : Trace Rank where
  along tokens notes rest := ranksAt tokens = notes ++ ranksAt rest
  refl _ := rfl
  trans first second := by rw [first, second, List.append_assoc]

/-- The reading passes brackets of these ranks. -/
abbrev PassesRanks {α : Type} (reading : Reading α) (ranks : α → List Rank) : Prop :=
  Notes Trace.ofBrackets reading fun value notes => ranks value = notes

/-! ### Constructs without brackets -/

theorem notesOnly_ofBrackets : Trace.ofBrackets.NotesOnly ['['] := by
  intro token rest apart
  show ranksAt (token :: rest) = ranksAt rest
  rw [ranksAt, bracketsIn, if_neg (apart '[' List.mem_cons_self), ranksAt]

/-! ### Suffixes -/

/-- The trace of single commas. -/
def Trace.ofCommas : Trace Unit where
  along tokens notes rest := ∃ run, tokens = run ++ rest ∧ run.length = notes.length ∧
    ∀ token ∈ run, token.lexeme = .mark ','
  refl _ := ⟨[], rfl, rfl, fun _ member => (nomatch member)⟩
  trans := by
    rintro _ _ rest _ _ ⟨run, rfl, length, commas⟩ ⟨more, rfl, lengthToo, commasToo⟩
    refine ⟨run ++ more, (List.append_assoc _ _ _).symm, ?_, ?_⟩
    · rw [List.length_append, List.length_append, length, lengthToo]
    · exact List.forall_mem_append.mpr ⟨commas, commasToo⟩

/-- Commas that touch each other. -/
theorem exists_run {tokens rest : List Token} {values : List Unit}
    (lawful : ∀ token ∈ tokens, token.lexeme.IsLawful)
    (reads : Reads (many do glued; mark ',') tokens values rest) :
    ∃ run, tokens = run ++ rest ∧ run.length = values.length ∧
      ∀ token ∈ run, token.lexeme = .mark ',' := by
  have comma : Notes Trace.ofCommas (do glued; mark ',') fun _ notes => [()] = notes := by
    intro tokens _ rest _ passed
    obtain ⟨_, _, touch, sign⟩ := reads_bind.mp passed
    obtain ⟨rfl, -⟩ := reads_glued.mp touch
    obtain ⟨token, rfl, found⟩ := reads_mark.mp sign
    exact ⟨⟨_, rfl, [token], rfl, rfl, List.forall_mem_singleton.mpr found⟩,
      List.suffix_cons token rest⟩
  obtain ⟨⟨_, rfl, run, split, length, commas⟩, -⟩ := comma.many lawful reads
  exact ⟨run, split, by simpa using length, commas⟩

/-- The commas up to the end of their run. -/
theorem exists_commas {tokens rest : List Token} {commas : Nat}
    (lawful : ∀ token ∈ tokens, token.lexeme.IsLawful) (reads : Reads commaRun tokens commas rest) :
    ∃ taken, tokens = taken ++ rest ∧ (∀ token ∈ taken, token.lexeme = .mark ',') ∧
      commas = commasIn (taken.head?.elim [] Token.layout) + taken.length := by
  rcases reads_orElse.mp reads with reads | ⟨-, reads⟩
  · obtain ⟨before, _, gap, reads⟩ := reads_bind.mp reads
    obtain ⟨rfl, rfl⟩ := reads_layout.mp gap
    obtain ⟨_, behind, first, reads⟩ := reads_bind.mp reads
    obtain ⟨token, rfl, found⟩ := reads_mark.mp first
    obtain ⟨more, _, further, reads⟩ := reads_bind.mp reads
    obtain ⟨run, rfl, length, others⟩ := exists_run (List.forall_mem_cons.mp lawful).2 further
    obtain ⟨rfl, rfl⟩ := reads_pure.mp reads
    refine ⟨token :: run, rfl, List.forall_mem_cons.mpr ⟨found, others⟩, ?_⟩
    rw [List.length_cons, length, Nat.add_assoc, Nat.add_comm 1]
    rfl
  · obtain ⟨rfl, rfl⟩ := reads_pure.mp reads
    exact ⟨[], rfl, fun _ member => (nomatch member), rfl⟩

theorem bracketsBehind_append {taken rest : List Token} {closer : Token}
    (commas : ∀ token ∈ taken, token.lexeme = .mark ',') (closed : closer.lexeme ≠ .mark ',') :
    bracketsBehind (taken ++ closer :: rest) =
      { before := taken.head?.elim [] Token.layout, commas := taken.length
        after := closer.layout } := by
  have all : ∀ token ∈ taken, token.isComma = true :=
    fun token member => decide_eq_true (commas token member)
  have stops : closer.isComma = false := decide_eq_false closed
  unfold bracketsBehind
  rw [List.takeWhile_append_of_pos all, List.dropWhile_append_of_pos all,
    List.takeWhile_cons_of_neg (by rw [stops]; exact Bool.false_ne_true),
    List.dropWhile_cons_of_neg (by rw [stops]; exact Bool.false_ne_true), List.append_nil]
  rfl

/-- **The rank of an array counts all commas between its brackets.** -/
theorem ranks_arraySuffix : PassesRanks arraySuffix Suffix.ranks := by
  intro tokens value _ lawful passed
  obtain ⟨_, behind, opening, inside⟩ := reads_bind.mp (reads_attempt.mp passed)
  obtain ⟨commas, middle, run, ends⟩ := reads_bind.mp inside
  obtain ⟨after, _, gap, closes⟩ := reads_bind.mp ends
  obtain ⟨_, rest, closing, answer⟩ := reads_bind.mp closes
  obtain ⟨rfl, rfl⟩ := reads_pure.mp answer
  obtain ⟨rfl, rfl⟩ := reads_layout.mp gap
  obtain ⟨closer, rfl, closed⟩ := reads_mark.mp closing
  obtain ⟨opener, rfl, opened⟩ := reads_mark.mp opening
  obtain ⟨taken, rfl, found, rfl⟩ := exists_commas (List.forall_mem_cons.mp lawful).2 run
  have noBracket : ∀ token ∈ taken ++ [closer], token.lexeme ≠ .mark '[' := by
    refine List.forall_mem_append.mpr ⟨fun token member => ?_, List.forall_mem_singleton.mpr ?_⟩
    · rw [found token member]
      decide
    · rw [closed]
      decide
  have own := @bracketsBehind_append taken rest closer found (by rw [closed]; decide)
  have further := @bracketsIn_append _ rest noBracket
  rw [List.append_assoc, List.singleton_append] at further
  refine ⟨⟨_, rfl, ?_⟩, ⟨opener :: (taken ++ [closer]), by simp⟩⟩
  show ranksAt (opener :: (taken ++ closer :: rest)) = _ ++ ranksAt rest
  rw [ranksAt, bracketsIn, if_pos opened, own, further, List.map_cons]
  rfl

theorem ranks_suffix : PassesRanks suffix Suffix.ranks := by
  refine ranks_arraySuffix.orElse (Notes.orElse ?_ ?_)
  · exact Notes.attempt ((notesOnly_ofBrackets.mark (by decide)).bindSilent fun _ => Notes.pure rfl)
  · exact Notes.attempt ((notesOnly_ofBrackets.mark (by decide)).bindSilent fun _ => Notes.pure rfl)

/-! ### References -/

theorem referenceScheme_ranks :
    ReferenceScheme Trace.ofBrackets TypeReference.ranks TypeReference.ranks Suffix.ranks where
  mark char member := notesOnly_ofBrackets.mark
    ((by simp : ∀ char ∈ ['!', '<', ',', '>'], char ∉ ['[']) char member)
  glued := silent_glued _
  start := silent_start _
  edge := silent_edge _
  identifier := silent_parameterIdentifier notesOnly_ofBrackets
  path := silent_typePath notesOnly_ofBrackets (by decide) (by decide)
  takesSuffix := ranks_suffix
  parameter _ _ := rfl
  ofName := TypeReference.ranks_ofName
  instantiation _ arguments := TypeReference.ranksIn_eq_flatMap arguments
  apply element suffix := by
    cases suffix with
    | array rank => rfl
    | indirect kind => exact (List.append_nil _).symm

/-- **A reference has the ranks of the brackets that it is read from**: by induction on the limit of
the nesting. -/
theorem ranks_typeUseWithin (limit : Nat) :
    PassesRanks (typeUseWithin limit) fun use => use.type.ranks := by
  induction limit with
  | zero => exact Notes.fail
  | succ limit hypothesis => exact referenceScheme_ranks.step hypothesis

theorem ranks_typeUse : PassesRanks typeUse fun use => use.type.ranks :=
  fun tokens _ _ lawful reads => ranks_typeUseWithin tokens.length lawful reads

/-! ### Commas in a text -/

theorem commasIn_append (front back : List Char) :
    commasIn (front ++ back) = commasIn front + commasIn back :=
  List.count_append

/-- The number of commas in the text of some tokens. -/
def commasAt (tokens : List Token) : Nat :=
  commasIn (respaced (tokens.map Token.layout) tokens)

theorem commasAt_cons (token : Token) (rest : List Token) :
    commasAt (token :: rest) =
      commasIn token.layout + (commasIn token.lexeme.written + commasAt rest) := by
  unfold commasAt
  rw [List.map_cons, respaced, commasIn_append, commasIn_append]

theorem count_bracketsBehind_le (tokens : List Token) :
    (bracketsBehind tokens).count ≤ commasAt tokens := by
  induction tokens with
  | nil => exact Nat.zero_le _
  | cons token rest hypothesis =>
    rw [commasAt_cons]
    unfold bracketsBehind Brackets.count at hypothesis ⊢
    dsimp only at hypothesis ⊢
    by_cases comma : token.isComma = true
    · have single : commasIn token.lexeme.written = 1 := by
        rw [of_decide_eq_true comma]
        rfl
      rw [List.takeWhile_cons_of_pos comma, List.dropWhile_cons_of_pos comma, List.length_cons,
        List.head?_cons, Option.elim_some]
      omega
    · rw [List.takeWhile_cons_of_neg comma, List.dropWhile_cons_of_neg comma, List.head?_cons,
        Option.elim_some]
      exact Nat.le_trans (Nat.le_of_eq (Nat.zero_add _)) (Nat.le_add_right _ _)

/-- **Brackets hold no more commas than the text.** -/
theorem count_le_of_mem_bracketsIn {tokens : List Token} {brackets : Brackets}
    (member : brackets ∈ bracketsIn tokens) : brackets.count ≤ commasAt tokens := by
  induction tokens with
  | nil => cases member
  | cons token rest hypothesis =>
    have behind : commasAt rest ≤ commasAt (token :: rest) := by
      rw [commasAt_cons]
      omega
    rw [bracketsIn] at member
    split at member
    · rcases List.mem_cons.mp member with rfl | member
      · exact (count_bracketsBehind_le rest).trans behind
      · exact (hypothesis member).trans behind
    · exact (hypothesis member).trans behind

theorem commasAt_tokensFrom (text : List Char) : commasAt (tokensFrom text) = commasIn text :=
  congrArg commasIn (respaced_tokensBehind 0 [] text)

/-- The brackets in a text that holds a reference. -/
def bracketsOf (text : String) : List Brackets :=
  bracketsIn (tokensFrom (Text.trim text.toList))

theorem commasAt_trim_le (text : String) :
    commasAt (tokensFrom (Text.trim text.toList)) ≤ commasIn text.toList := by
  rw [commasAt_tokensFrom]
  exact (Text.trim_sublist text.toList).count_le ','

theorem count_le_of_mem_bracketsOf {text : String} {brackets : Brackets}
    (member : brackets ∈ bracketsOf text) : brackets.count ≤ commasIn text.toList :=
  (count_le_of_mem_bracketsIn member).trans (commasAt_trim_le text)

end ExternBindings.Listing
