/-
**The tokens of a listing.**

A listing is cut into words, arity markers and single other characters. The blanks and comments
between them are the *layout*; each token keeps the layout in front of it, so that two tokens which
touch can be told from two that do not.

* `splitLayout_append`: layout and rest together are the text;
* `tokensOf` reads a text that may start with layout, `tokensFrom` one whose first character always
  starts a token;
* the last token is always the finish, and it keeps the layout at the end of the text.
-/

namespace ExternBindings.Listing

/-- The end of a line. -/
def isNewline (char : Char) : Bool :=
  char = '\n' || char = '\r'

/-- White space within a listing. -/
def isSpace (char : Char) : Bool :=
  char = ' ' || char = '\t' || isNewline char

/-- A character that a word may start with. -/
def isWordStart (char : Char) : Bool :=
  char.isAlpha || char = '_'

/-- A character that a word may go on with. -/
def isWordChar (char : Char) : Bool :=
  char.isAlphanum || char = '_'

/-- The number of bytes that a stretch of text takes. -/
def byteSize : List Char → Nat
  | [] => 0
  | char :: rest => char.utf8Size + byteSize rest

/-! ### Layout -/

/-- The layout at the head of a text, and the rest. A comment starts with two slashes and ends
before the next line; `commented` says that the text starts inside of one. -/
def splitLayoutFrom (commented : Bool) : List Char → List Char × List Char
  | [] => ([], [])
  | char :: rest =>
    if commented then
      let (layout, solid) := splitLayoutFrom (!isNewline char) rest
      (char :: layout, solid)
    else if isSpace char then
      let (layout, solid) := splitLayoutFrom false rest
      (char :: layout, solid)
    else if char = '/' ∧ rest.head? = some '/' then
      let (layout, solid) := splitLayoutFrom true rest
      (char :: layout, solid)
    else ([], char :: rest)

/-- The layout at the head of a text, and the rest. -/
def splitLayout (text : List Char) : List Char × List Char :=
  splitLayoutFrom false text

theorem splitLayoutFrom_append (commented : Bool) (text : List Char) :
    (splitLayoutFrom commented text).1 ++ (splitLayoutFrom commented text).2 = text := by
  induction text generalizing commented with
  | nil => rfl
  | cons char rest hypothesis =>
    rw [splitLayoutFrom]
    split
    · simp [hypothesis]
    · split
      · simp [hypothesis]
      · split
        · simp [hypothesis]
        · rfl

/-- **Layout and rest together are the text.** -/
theorem splitLayout_append (text : List Char) :
    (splitLayout text).1 ++ (splitLayout text).2 = text :=
  splitLayoutFrom_append false text

/-! ### Tokens -/

/-- What a token stands for. -/
inductive Lexeme where
  /-- a letter or underscore with the letters, digits and underscores after it -/
  | word (text : String)
  /-- a back quote with the digits after it, of which there is at least one -/
  | arity (digits : String)
  /-- any other single character -/
  | mark (char : Char)
  /-- the end of the text -/
  | finish
  deriving DecidableEq

/-- A token at the place where its layout starts. -/
structure Token where
  /-- where the token before this one ends -/
  edge : Nat
  /-- the layout between the token before and this one -/
  layout : List Char
  lexeme : Lexeme
  deriving DecidableEq

/-- Where the token itself starts. -/
def Token.start (token : Token) : Nat :=
  token.edge + byteSize token.layout

/-- Whether the token touches the one before it. -/
def Token.isGlued (token : Token) : Bool :=
  token.layout.isEmpty

/-- The lexeme that starts with `first`, and the text after it. -/
def Lexeme.split (first : Char) (rest : List Char) : Lexeme × List Char :=
  if isWordStart first then
    (.word (String.ofList (first :: rest.takeWhile isWordChar)), rest.dropWhile isWordChar)
  else if first = '\x60' ∧ (rest.takeWhile Char.isDigit).isEmpty = false then
    (.arity (String.ofList (rest.takeWhile Char.isDigit)), rest.dropWhile Char.isDigit)
  else (.mark first, rest)

/-- The number of bytes of a lexeme. -/
def Lexeme.size : Lexeme → Nat
  | word text => byteSize text.toList
  | arity digits => 1 + byteSize digits.toList
  | mark char => char.utf8Size
  | finish => 0

/-- The tokens of a text after the layout `layout`, which starts at `edge`; at most `limit` tokens
are cut off before the finish. -/
def tokensWithin : Nat → Nat → List Char → List Char → List Token
  | 0, edge, layout, _ => [{ edge, layout, lexeme := .finish }]
  | _, edge, layout, [] => [{ edge, layout, lexeme := .finish }]
  | limit + 1, edge, layout, first :: rest =>
    let (lexeme, afterLexeme) := Lexeme.split first rest
    let (gap, solid) := splitLayout afterLexeme
    { edge, layout, lexeme } ::
      tokensWithin limit (edge + byteSize layout + lexeme.size) gap solid

/-- The tokens of a text whose first character, if any, starts a token. -/
def tokensFrom (text : List Char) : List Token :=
  tokensWithin text.length 0 [] text

/-- The tokens of a text that may start with layout. -/
def tokensOf (text : List Char) : List Token :=
  let (layout, solid) := splitLayout text
  tokensWithin solid.length 0 layout solid

end ExternBindings.Listing
