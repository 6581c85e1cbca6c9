/-
**Readings that do not see the layout.**

Two readings agree when, on two token lists that differ only in their layouts, both refuse or both
take the same tokens and answer alike.

* `Agrees before same after` — agreement of two readings, where `same` relates their answers and
  `before` and `after` tell which lexeme comes before the tokens, at the start and at the end;
* `Passes` — what stands between two places of a token list, no layout being inside of a name;
* one lemma for each combinator. A reading that looks at the layout is always followed by one that
  takes the token behind it, and agrees with itself because that token is joined to the one before
  (`Agrees.gluedAccept`, `Agrees.layoutMark`).
-/

import ExternBindings.Proofs.Listing.Answers
import ExternBindings.Proofs.Listing.Respaced
import Mathlib.Data.List.Forall2

namespace ExternBindings.Listing

/-! ### Passing tokens -/

/-- No name goes on behind the lexeme. -/
def Closed (last? : Option Lexeme) : Prop :=
  last?.any Lexeme.opens = false

/-- From the tokens behind `last?` to `rest` behind `next?`, with every token touching the one before
it if both are in one name. -/
inductive Passes : Option Lexeme → List Token → Option Lexeme → List Token → Prop
  | done {last? : Option Lexeme} {tokens : List Token} : Passes last? tokens last? tokens
  | step {last? next? : Option Lexeme} {token : Token} {tokens rest : List Token} :
      (isInName last? token.lexeme = true → token.isGlued = true) →
        Passes (some token.lexeme) tokens next? rest → Passes last? (token :: tokens) next? rest

theorem Passes.trans {last? middle? next? : Option Lexeme} {tokens middle rest : List Token}
    (passes : Passes last? tokens middle? middle) (further : Passes middle? middle next? rest) :
    Passes last? tokens next? rest := by
  induction passes with
  | done => exact further
  | step touching _ hypothesis => exact Passes.step touching (hypothesis further)

theorem isInName_eq_false {last? : Option Lexeme} {lexeme : Lexeme} (closed : Closed last?)
    (apart : lexeme.continues = false) : isInName last? lexeme = false := by
  unfold isInName
  rw [show last?.any Lexeme.opens = false from closed, apart]
  rfl

namespace Reading

variable {α β : Type}

/-! ### Answers -/

theorem value?_bind (first : Reading α) (next : α → Reading β) (tokens : List Token) :
    ((first >>= next) tokens).value? =
      (first tokens).value?.bind fun answer => (next answer.1 answer.2).value? := by
  show (Reading.bind first next tokens).value? = _
  unfold Reading.bind
  rcases first tokens with ⟨_ | answer, record⟩ <;> rfl

theorem value?_orElse (first second : Reading α) (tokens : List Token) :
    ((first <|> second) tokens).value? = (first tokens).value?.or (second tokens).value? := by
  show (Reading.orElse first (fun _ => second) tokens).value? = _
  unfold Reading.orElse
  rcases first tokens with ⟨_ | answer, record⟩ <;> rfl

theorem value?_attemptAt (placeOf : List Token → Nat) (construct : Construct) (reading : Reading α)
    (tokens : List Token) :
    (attemptAt placeOf construct reading tokens).value? = (reading tokens).value? := by
  unfold attemptAt
  rcases reading tokens with ⟨_ | answer, record⟩ <;> rfl

theorem value?_accept_cons (choose : Lexeme → Option α) (token : Token) (rest : List Token) :
    (accept choose (token :: rest)).value? = (choose token.lexeme).map fun value => (value, rest) :=
  rfl

theorem value?_glued_cons (token : Token) (rest : List Token) :
    (glued (token :: rest)).value? = if token.isGlued = true then some ((), token :: rest) else none :=
  rfl

/-- Two answers agree, given behind `last?` with the first one taken from `tokens`. -/
inductive Agree (same : α → α → Prop) (after : Option Lexeme → Prop) (last? : Option Lexeme)
    (tokens : List Token) : Option (α × List Token) → Option (α × List Token) → Prop
  | refused : Agree same after last? tokens none none
  | taken {value other : α} {rest left : List Token} {next? : Option Lexeme} :
      same value other → after next? → Passes last? tokens next? rest →
        SameTokens next? rest left →
          Agree same after last? tokens (some (value, rest)) (some (other, left))

namespace Agree

variable {same : α → α → Prop} {middle after : Option Lexeme → Prop} {sameAfter : β → β → Prop}
  {last? : Option Lexeme} {tokens : List Token} {answer otherAnswer : Option (α × List Token)}

theorem mono {later : Option Lexeme → Prop} {weaker : α → α → Prop}
    (agree : Agree same after last? tokens answer otherAnswer)
    (implied : ∀ value other, same value other → weaker value other)
    (late : ∀ next?, after next? → later next?) :
    Agree weaker later last? tokens answer otherAnswer := by
  cases agree with
  | refused => exact .refused
  | taken alike stands passes left => exact .taken (implied _ _ alike) (late _ stands) passes left

theorem bind {next further : α × List Token → Option (β × List Token)}
    (agree : Agree same middle last? tokens answer otherAnswer)
    (onwards : ∀ value other rest left next?, same value other → middle next? →
      SameTokens next? rest left →
        Agree sameAfter after next? rest (next (value, rest)) (further (other, left))) :
    Agree sameAfter after last? tokens (answer.bind next) (otherAnswer.bind further) := by
  cases agree with
  | refused => exact .refused
  | @taken value other rest left next? alike stands passes tail =>
    rw [Option.bind_some, Option.bind_some]
    have agree := onwards value other rest left next? alike stands tail
    generalize next (value, rest) = answer at agree
    generalize further (other, left) = otherAnswer at agree
    cases agree with
    | refused => exact .refused
    | taken alike stands passesOn left => exact .taken alike stands (passes.trans passesOn) left

theorem or {answerElse otherElse : Option (α × List Token)}
    (agree : Agree same after last? tokens answer otherAnswer)
    (otherwise : Agree same after last? tokens answerElse otherElse) :
    Agree same after last? tokens (answer.or answerElse) (otherAnswer.or otherElse) := by
  cases agree with
  | refused => exact otherwise
  | taken alike stands passes left => exact .taken alike stands passes left

end Agree

/-- Behind every lexeme that is accepted by `before`, the two readings take the same tokens, up to
layout, and answer alike; and the last lexeme they take is accepted by `after`. -/
def Agrees (before : Option Lexeme → Prop) (same : α → α → Prop) (after : Option Lexeme → Prop)
    (first second : Reading α) : Prop :=
  ∀ ⦃last? tokens others⦄, before last? → SameTokens last? tokens others →
    Agree same after last? tokens (first tokens).value? (second others).value?

namespace Agrees

variable {before middle after : Option Lexeme → Prop} {same : α → α → Prop}
  {sameAfter : β → β → Prop}

theorem mono {earlier later : Option Lexeme → Prop} {weaker : α → α → Prop}
    {first second : Reading α} (agrees : Agrees before same after first second)
    (early : ∀ last?, earlier last? → before last?)
    (implied : ∀ value other, same value other → weaker value other)
    (late : ∀ last?, after last? → later last?) : Agrees earlier weaker later first second :=
  fun _ _ _ holds alike => (agrees (early _ holds) alike).mono implied late

theorem pure {value other : α} (alike : same value other) :
    Agrees before same before (Pure.pure value) (Pure.pure other) := by
  intro last? tokens others holds sameTokens
  exact .taken alike holds .done sameTokens

theorem fail : Agrees before same after (fail : Reading α) Reading.fail :=
  fun _ _ _ _ _ => .refused

theorem bind {first second : Reading α} {next further : α → Reading β}
    (agrees : Agrees before same middle first second)
    (onwards : ∀ value other, same value other →
      Agrees middle sameAfter after (next value) (further other)) :
    Agrees before sameAfter after (first >>= next) (second >>= further) := by
  intro last? tokens others holds alike
  rw [value?_bind, value?_bind]
  exact (agrees holds alike).bind fun _ _ _ _ _ answers stands left => onwards _ _ answers stands left

theorem orElse {first second firstElse secondElse : Reading α}
    (agrees : Agrees before same after first second)
    (otherwise : Agrees before same after firstElse secondElse) :
    Agrees before same after (first <|> firstElse) (second <|> secondElse) := by
  intro last? tokens others holds alike
  rw [value?_orElse, value?_orElse]
  exact (agrees holds alike).or (otherwise holds alike)

theorem attemptAt {placeOf : List Token → Nat} {construct : Construct} {first second : Reading α}
    (agrees : Agrees before same after first second) :
    Agrees before same after (attemptAt placeOf construct first)
      (Reading.attemptAt placeOf construct second) := by
  intro last? tokens others holds alike
  rw [value?_attemptAt, value?_attemptAt]
  exact agrees holds alike

theorem attempt {construct : Construct} {first second : Reading α}
    (agrees : Agrees before same after first second) :
    Agrees before same after (attempt construct first) (Reading.attempt construct second) :=
  agrees.attemptAt

/-- Readings that are limited by the number of tokens agree if they do for every limit. -/
theorem ofLength {first second : Nat → Reading α}
    (agrees : ∀ limit, Agrees before same after (first limit) (second limit)) :
    Agrees before same after (fun tokens => first tokens.length tokens)
      fun tokens => second tokens.length tokens := by
  intro last? tokens others holds alike
  have agree := agrees tokens.length holds alike
  show Agree same after last? tokens (first tokens.length tokens).value?
    (second others.length others).value?
  rwa [← alike.length_eq]

theorem assoc {γ : Type} {first second : Reading α} {next further : α → Reading β}
    {last lastToo : β → Reading γ} {sameLast : γ → γ → Prop}
    (agrees : Agrees before sameLast after (first >>= next >>= last)
      (second >>= further >>= lastToo)) :
    Agrees before sameLast after (first >>= fun value => next value >>= last)
      (second >>= fun value => further value >>= lastToo) := by
  intro last? tokens others holds alike
  have agree := agrees holds alike
  simp only [value?_bind, Option.bind_assoc] at agree ⊢
  exact agree

/-! ### Repetitions -/

theorem maybe {first second : Reading α} (agrees : Agrees before same before first second) :
    Agrees before (Option.Rel same) before (maybe first) (Reading.maybe second) :=
  (agrees.bind fun _ _ alike => pure (.some alike)).orElse (pure .none)

theorem manyWithin {first second : Reading α} (agrees : Agrees before same before first second)
    (limit : Nat) :
    Agrees before (List.Forall₂ same) before (manyWithin first limit)
      (Reading.manyWithin second limit) := by
  induction limit with
  | zero => exact pure .nil
  | succ limit hypothesis =>
    refine orElse (agrees.bind fun _ _ alike => ?_) (pure .nil)
    exact hypothesis.bind fun _ _ tails => pure (.cons alike tails)

theorem many {first second : Reading α} (agrees : Agrees before same before first second) :
    Agrees before (List.Forall₂ same) before (many first) (Reading.many second) :=
  ofLength fun limit => agrees.manyWithin limit

/-! ### Single tokens -/

theorem accept {choose : Lexeme → Option α}
    (fits : ∀ lexeme value, choose lexeme = some value →
      lexeme.continues = false ∧ after (some lexeme)) :
    Agrees Closed Eq after (accept choose) (accept choose) := by
  intro last? tokens others closed alike
  cases alike with
  | nil => exact .refused
  | @cons _ token other tokens others lexeme _ rest =>
    rw [value?_accept_cons, value?_accept_cons, ← lexeme]
    cases chosen : choose token.lexeme with
    | none => exact .refused
    | some value =>
      obtain ⟨apart, stands⟩ := fits _ _ chosen
      refine .taken rfl stands (.step (fun inside => ?_) .done) rest
      rw [isInName_eq_false closed apart] at inside
      cases inside

/-- A token that must touch the one before is taken alike if it is always joined to it. -/
theorem gluedAccept {choose : Lexeme → Option α}
    (joined : ∀ last? lexeme value, before last? → choose lexeme = some value →
      mayTouch last? lexeme = true ∧ after (some lexeme)) :
    Agrees before Eq after (do glued; Reading.accept choose) (do glued; Reading.accept choose) := by
  intro last? tokens others holds alike
  rw [value?_bind, value?_bind]
  cases alike with
  | nil => exact .refused
  | @cons _ token other tokens others lexeme layouts rest =>
    rw [value?_glued_cons, value?_glued_cons]
    cases chosen : choose token.lexeme with
    | none =>
      have otherChosen := lexeme ▸ chosen
      split <;> split <;>
        simp only [Option.bind_some, Option.bind_none, value?_accept_cons, chosen, otherChosen,
          Option.map_none] <;> exact .refused
    | some value =>
      obtain ⟨together, stands⟩ := joined _ _ _ holds chosen
      have otherChosen := lexeme ▸ chosen
      rw [← layouts.touch together]
      split
      · next touching =>
        simp only [Option.bind_some, value?_accept_cons, chosen, otherChosen, Option.map_some]
        exact .taken rfl stands (.step (fun _ => touching) .done) rest
      · exact .refused

/-- The commas of a layout may be read if it stands between brackets. -/
theorem layoutMark {char : Char} {next further : List Char → Reading β}
    (inBrackets : ∀ last?, before last? → Closed last? ∧ isInBrackets last? (.mark char) = true)
    (apart : (Lexeme.mark char).continues = false)
    (onwards : ∀ gap other, commasIn gap = commasIn other →
      Agrees (fun last? => last? = some (.mark char)) sameAfter after (next gap) (further other)) :
    Agrees before sameAfter after (do let gap ← layout; mark char; next gap)
      (do let gap ← layout; mark char; further gap) := by
  intro last? tokens others holds alike
  obtain ⟨closed, together⟩ := inBrackets _ holds
  cases alike with
  | nil => exact .refused
  | @cons _ token other tokens others lexeme layouts rest =>
    simp only [value?_bind]
    show Agree sameAfter after last? (token :: tokens)
      ((Reading.mark char (token :: tokens)).value?.bind fun answer =>
        (next token.layout answer.2).value?)
      ((Reading.mark char (other :: others)).value?.bind fun answer =>
        (further other.layout answer.2).value?)
    unfold Reading.mark
    rw [value?_accept_cons, value?_accept_cons, ← lexeme]
    split
    · next found =>
      have counts := layouts.count (found ▸ together)
      have step : Passes last? (token :: tokens) (some token.lexeme) tokens := by
        refine .step (fun inside => ?_) .done
        rw [found, isInName_eq_false closed apart] at inside
        cases inside
      have head : Agree Eq (fun next? => next? = some (.mark char)) last? (token :: tokens)
          (some ((), tokens)) (some ((), others)) :=
        .taken rfl (congrArg some found) step rest
      exact head.bind fun _ _ _ _ _ _ stands left => onwards _ _ counts stands left
    · exact .refused

theorem start : Agrees before (fun _ _ => True) before start Reading.start :=
  fun _ _ _ holds alike => .taken trivial holds .done alike

theorem edge : Agrees before (fun _ _ => True) before edge Reading.edge :=
  fun _ _ _ holds alike => .taken trivial holds .done alike

theorem finish : Agrees before Eq before finish Reading.finish := by
  intro last? tokens others holds alike
  cases alike with
  | nil => exact .taken rfl holds .done .nil
  | @cons _ token other tokens others lexeme layouts rest =>
    unfold Reading.finish
    simp only [← lexeme]
    split
    · exact .taken rfl holds .done (.cons lexeme layouts rest)
    · exact .refused

theorem markThen {char : Char} (apart : (Lexeme.mark char).continues = false)
    (stands : after (some (.mark char))) : Agrees Closed Eq after (mark char) (Reading.mark char) := by
  refine accept fun lexeme value chosen => ?_
  split at chosen
  · next found =>
    subst found
    exact ⟨apart, stands⟩
  · cases chosen

/-- A single character that no name goes on with or behind. -/
theorem mark {char : Char} (apart : (Lexeme.mark char).continues = false)
    (closes : (Lexeme.mark char).opens = false) :
    Agrees Closed Eq Closed (mark char) (Reading.mark char) :=
  markThen apart closes

theorem keyword (text : String) : Agrees Closed Eq Closed (keyword text) (Reading.keyword text) := by
  refine accept fun lexeme value chosen => ?_
  split at chosen
  · next found =>
    subst found
    exact ⟨rfl, rfl⟩
  · cases chosen

theorem oneOf (words : List (String × α)) :
    Agrees Closed Eq Closed (oneOf words) (Reading.oneOf words) := by
  refine accept fun lexeme value chosen => ?_
  obtain ⟨entry, found, -⟩ := Option.map_eq_some_iff.mp chosen
  have written : lexeme = .word entry.1 := by simpa using List.find?_some found
  subst written
  exact ⟨rfl, rfl⟩

theorem separated {separator : Char} {first second : Reading α}
    (apart : (Lexeme.mark separator).continues = false)
    (closes : (Lexeme.mark separator).opens = false)
    (agrees : Agrees Closed same Closed first second) :
    Agrees Closed (List.Forall₂ same) Closed (separated separator first)
      (Reading.separated separator second) := by
  refine agrees.bind fun _ _ alike => ?_
  refine (many ((mark apart closes).bind fun _ _ _ => agrees)).bind fun _ _ tails => ?_
  exact pure (.cons alike tails)

/-! ### Equal answers -/

theorem maybeEq {first second : Reading α} (agrees : Agrees before Eq before first second) :
    Agrees before Eq before (Reading.maybe first) (Reading.maybe second) := by
  refine agrees.maybe.mono (fun _ => id) (fun value? other? alike => ?_) fun _ => id
  cases alike with
  | some same => rw [same]
  | none => rfl

theorem manyEq {first second : Reading α} (agrees : Agrees before Eq before first second) :
    Agrees before Eq before (Reading.many first) (Reading.many second) := by
  refine agrees.many.mono (fun _ => id) (fun values others alike => ?_) fun _ => id
  rwa [List.forall₂_eq_eq_eq] at alike

theorem separatedEq {separator : Char} {first second : Reading α}
    (apart : (Lexeme.mark separator).continues = false)
    (closes : (Lexeme.mark separator).opens = false)
    (agrees : Agrees Closed Eq Closed first second) :
    Agrees Closed Eq Closed (Reading.separated separator first)
      (Reading.separated separator second) := by
  refine (separated apart closes agrees).mono (fun _ => id) (fun values others alike => ?_)
    fun _ => id
  rwa [List.forall₂_eq_eq_eq] at alike

end Agrees

end Reading

end ExternBindings.Listing
