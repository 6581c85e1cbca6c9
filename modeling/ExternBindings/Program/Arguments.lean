/-
**Command line arguments.**

Arguments are options, words, or values of the option before them. A single dash is a word; behind
two dashes everything is one. Short options may share a dash, long ones may have their value behind
an equals sign.

* `scan` turns arguments into what they say (`Said`), up to the first one that says nothing;
* the value of an option may not look like an option itself, unless it is written in one argument
  with it.
-/

import ExternBindings.Text.Segments

namespace ExternBindings.Program

/-- Options without a value. -/
inductive Switch where
  | verbose
  | skipFirst
  | summary
  | help
  | version
  deriving DecidableEq

/-- Options with a value. -/
inductive Setting where
  | output
  | input
  | package
  | rootPackage
  deriving DecidableEq

/-- The options that a command knows, by their short and long names. -/
structure OptionNames where
  shortSwitches : List (Char × Switch) := []
  longSwitches : List (String × Switch) := []
  shortSettings : List (Char × Setting) := []
  longSettings : List (String × Setting) := []

/-- What arguments say. -/
inductive Said where
  | switch (switch : Switch)
  | setting (setting : Setting) (value : String)
  /-- a word, with the arguments behind it -/
  | word (text : String) (behind : List String)
  /-- a word behind two dashes -/
  | trailing (text : String)
  /-- nothing that the command understands -/
  | misuse

/-- Whether an argument looks like an option. -/
def looksLikeOption (argument : String) : Bool :=
  argument.toList.head? = some '-' && argument ≠ "-"

/-- The name of a long option, and the value behind its equals sign. -/
def splitLong (chars : List Char) : String × Option String :=
  let name := chars.takeWhile (· ≠ '=')
  match chars.drop name.length with
  | [] => (String.ofList name, none)
  | _ :: value => (String.ofList name, some (String.ofList value))

/-- What short options behind one dash say, and the one that still needs a value. -/
def scanShort (names : OptionNames) : List Char → List Said × Option Setting
  | [] => ([], none)
  | char :: rest =>
    match names.shortSwitches.lookup char, names.shortSettings.lookup char with
    | some switch, _ =>
      let (said, pending?) := scanShort names rest
      (.switch switch :: said, pending?)
    | none, some setting =>
      match rest with
      | [] => ([], some setting)
      | '=' :: value => ([.setting setting (String.ofList value)], none)
      | value => ([.setting setting (String.ofList value)], none)
    | none, none => ([.misuse], none)

/-- What arguments say when the option `pending?` still needs its value. -/
def scan (names : OptionNames) : Option Setting → List String → List Said
  | none, [] => []
  | some _, [] => [.misuse]
  | some setting, value :: rest =>
    if looksLikeOption value then [.misuse] else .setting setting value :: scan names none rest
  | none, argument :: rest =>
    match argument.toList with
    | ['-', '-'] => rest.map .trailing
    | '-' :: '-' :: long =>
      let (name, value?) := splitLong long
      match names.longSwitches.lookup name, names.longSettings.lookup name, value? with
      | some switch, _, none => .switch switch :: scan names none rest
      | none, some setting, some value => .setting setting value :: scan names none rest
      | none, some setting, none => scan names (some setting) rest
      | some _, _, some _ | none, none, _ => [.misuse]
    | '-' :: char :: short =>
      let (said, pending?) := scanShort names (char :: short)
      said ++ scan names pending? rest
    | _ => .word argument rest :: scan names none rest

end ExternBindings.Program
