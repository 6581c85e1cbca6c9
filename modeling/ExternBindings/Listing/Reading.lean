/-
**Readings of tokens.**

A `Reading` takes what it wants from the head of a token list. It answers with a value and the
tokens that are left, or with nothing; beside that it tells how the record of the furthest failed
attempts changes. The record never influences an answer: it is a separate part of the result, and
only `explain` looks at it.

* `orElse` tries a second reading at the same place when the first one fails, and never later;
* `many` repeats a reading until it fails;
* `attempt` gives a reading the name of a construct, under which its failure is recorded.
-/

import ExternBindings.Listing.Construct
import ExternBindings.Listing.Token

namespace ExternBindings.Listing

/-- What a reading answers, and how it changes the record of failed attempts. -/
structure Outcome (α : Type) where
  value? : Option (α × List Token)
  record : Furthest → Furthest

/-- A way to read a value from the head of a token list. -/
def Reading (α : Type) : Type :=
  List Token → Outcome α

namespace Reading

variable {α β : Type}

/-- The value that is read without taking a token. -/
protected def pure (value : α) : Reading α := fun tokens =>
  { value? := some (value, tokens), record := id }

/-- Reads on with what was read first. -/
protected def bind (first : Reading α) (next : α → Reading β) : Reading β := fun tokens =>
  match first tokens with
  | { value? := none, record } => { value? := none, record }
  | { value? := some (value, rest), record } =>
    let answer := next value rest
    { value? := answer.value?, record := fun before => answer.record (record before) }

instance : Monad Reading where
  pure := Reading.pure
  bind := Reading.bind

/-- Reads nothing. -/
def fail : Reading α := fun _ =>
  { value? := none, record := id }

/-- Tries `second` at the same place when `first` fails. -/
protected def orElse (first : Reading α) (second : Unit → Reading α) : Reading α := fun tokens =>
  match first tokens with
  | { value? := none, record } =>
    let answer := second () tokens
    { value? := answer.value?, record := fun before => answer.record (record before) }
  | answer => answer

instance : OrElse (Reading α) where
  orElse := Reading.orElse

/-- Reads a value if it can. -/
def maybe (item : Reading α) : Reading (Option α) :=
  (do return some (← item)) <|> return none

/-- Reads values until one fails, `limit` at most. -/
def manyWithin (item : Reading α) : Nat → Reading (List α)
  | 0 => return []
  | limit + 1 =>
    (do
      let head ← item
      let tail ← manyWithin item limit
      return head :: tail)
    <|> return []

/-- Reads values until one fails. No list of tokens holds more values than tokens. -/
def many (item : Reading α) : Reading (List α) := fun tokens =>
  manyWithin item tokens.length tokens

/-! ### Places -/

/-- Where the next token starts. -/
def startOf : List Token → Nat
  | [] => 0
  | token :: _ => token.start

/-- Where the last token ended. -/
def edgeOf : List Token → Nat
  | [] => 0
  | token :: _ => token.edge

/-- Where the next token starts. -/
def start : Reading Nat := fun tokens =>
  { value? := some (startOf tokens, tokens), record := id }

/-- Where the last token ended. -/
def edge : Reading Nat := fun tokens =>
  { value? := some (edgeOf tokens, tokens), record := id }

/-- The layout in front of the next token. -/
def layout : Reading (List Char) := fun tokens =>
  { value? := some (tokens.head?.elim [] Token.layout, tokens), record := id }

/-- Gives a reading the name of a construct, at the place that `placeOf` finds. -/
def attemptAt (placeOf : List Token → Nat) (construct : Construct) (reading : Reading α) :
    Reading α := fun tokens =>
  match reading tokens with
  | { value? := none, record } =>
    { value? := none,
      record := fun before =>
        Furthest.conclude construct (placeOf tokens) before (record before) }
  | answer => answer

/-- Gives a reading that starts at a token the name of a construct. -/
def attempt (construct : Construct) (reading : Reading α) : Reading α :=
  attemptAt startOf construct reading

/-! ### Single tokens -/

/-- Takes the next token if it is accepted. -/
def accept (choose : Lexeme → Option α) : Reading α := fun tokens =>
  match tokens with
  | [] => { value? := none, record := id }
  | token :: rest =>
    { value? := (choose token.lexeme).map fun value => (value, rest), record := id }

/-- Goes on only if the next token touches the one before it. -/
def glued : Reading Unit := fun tokens =>
  match tokens with
  | [] => { value? := none, record := id }
  | token :: _ => { value? := if token.isGlued then some ((), tokens) else none, record := id }

/-- A single character. -/
def mark (char : Char) : Reading Unit :=
  accept fun lexeme => if lexeme = .mark char then some () else none

/-- One particular word. -/
def keyword (text : String) : Reading Unit :=
  accept fun lexeme => if lexeme = .word text then some () else none

/-- One of several words, each with its meaning. -/
def oneOf (words : List (String × α)) : Reading α :=
  accept fun lexeme => (words.find? fun entry => lexeme = .word entry.1).map Prod.snd

/-- The finish, which stays where it is. -/
def finish : Reading Unit := fun tokens =>
  match tokens with
  | [] => { value? := some ((), tokens), record := id }
  | token :: _ =>
    { value? := if token.lexeme = .finish then some ((), tokens) else none, record := id }

/-- One or more values with a separator between them. -/
def separated (separator : Char) (item : Reading α) : Reading (List α) := do
  let head ← item
  let tail ← many do
    mark separator
    item
  return head :: tail

/-- The record of failed attempts that a reading leaves. -/
def explain (reading : Reading α) (tokens : List Token) : Furthest :=
  (reading tokens).record {}

end Reading

end ExternBindings.Listing
