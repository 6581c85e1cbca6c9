/-
**The command line of the program.**

The program has two commands: one generates declarations, the other checks that listings can be
read. Without a command it explains itself.

* `Invocation.ofArguments` is what arguments ask for; every misuse is the same misuse;
* `Invocation.run` does it, and answers with what is printed and with the status to exit with:
  0 after success, 1 after a reported error, 2 after misuse.
-/

import ExternBindings.Program.Arguments
import ExternBindings.Program.Run
import ExternBindings.Program.HelpText

namespace ExternBindings.Program

open Files

/-- What the program is asked to do. -/
inductive Invocation where
  | misuse
  | help (topic : HelpTopic)
  | version
  | generate (options : RunOptions)
  | check (files : List String)

/-- The options in front of a command. -/
def programOptions : OptionNames where
  shortSwitches := [('v', .verbose), ('h', .summary), ('V', .version)]
  longSwitches := [("verbose", .verbose), ("help", .help), ("version", .version)]

/-- The options of the command that generates declarations. -/
def generateOptions : OptionNames where
  shortSwitches := [('v', .verbose), ('s', .skipFirst), ('h', .help)]
  longSwitches := [("verbose", .verbose), ("skip-prefix", .skipFirst), ("help", .help)]
  shortSettings := [('o', .output), ('i', .input), ('p', .package), ('r', .rootPackage)]
  longSettings := [("output", .output), ("input", .input), ("package", .package),
    ("root-package", .rootPackage)]

/-- The options of the command that checks listings. -/
def checkOptions : OptionNames where
  shortSwitches := [('v', .verbose), ('h', .help)]
  longSwitches := [("verbose", .verbose), ("help", .help)]

/-! ### What arguments ask for -/

/-- The options of a run with one more value, unless the value is missing or there is one
already. -/
def addSetting (options : RunOptions) (setting : Setting) (value : String) :
    Option RunOptions :=
  let packages := options.packages
  match setting with
  | .output =>
    if value.isEmpty || options.output?.isSome then none
    else some { options with output? := some value }
  | .input =>
    if value.isEmpty then none
    else some { options with searchDirectories := options.searchDirectories ++ [value] }
  | .package =>
    if packages.replacement?.isSome then none
    else some { options with packages := { packages with replacement? := some value } }
  | .rootPackage =>
    some { options with
      packages := { packages with rootPackages := packages.rootPackages ++ [value] } }

/-- What is asked for behind the command that generates declarations; `seen` are the switches so
far. -/
def askGenerate (seen : List Switch) (options : RunOptions) : List Said → Invocation
  | [] => .generate options
  | .switch switch :: rest =>
    if switch = .help then .help .generate
    else if switch ∈ seen then .misuse
    else if switch = .skipFirst then
      askGenerate (switch :: seen)
        { options with packages := { options.packages with skipsFirst := true } } rest
    else askGenerate (switch :: seen) options rest
  | .setting setting value :: rest =>
    match addSetting options setting value with
    | none => .misuse
    | some changed => askGenerate seen changed rest
  | .word text _ :: rest | .trailing text :: rest =>
    askGenerate seen { options with assemblies := options.assemblies ++ [text] } rest
  | .misuse :: _ => .misuse

/-- What is asked for behind the command that checks listings; `seen` are the switches so far. -/
def askCheck (seen : List Switch) (files : List String) : List Said → Invocation
  | [] => if files.isEmpty then .misuse else .check files
  | .switch switch :: rest =>
    if switch = .help then .help .check
    else if switch ∈ seen then .misuse
    else askCheck (switch :: seen) files rest
  | .word text _ :: rest | .trailing text :: rest =>
    if text.isEmpty then .misuse else askCheck seen (files ++ [text]) rest
  | .setting _ _ :: _ | .misuse :: _ => .misuse

/-- What is asked for behind the command that explains commands. -/
def askHelp (commands : List String) : Invocation :=
  match commands with
  | [] => .help .program
  | ["generate"] => .help .generate
  | ["check"] => .help .check
  | ["help"] => .help .help
  | _ => .misuse

/-- What is asked for before a command is named; `seen` are the switches so far. -/
def askProgram (seen : List Switch) : List Said → Invocation
  | [] => .help .program
  | .switch switch :: rest =>
    if switch = .help then .help .program
    else if switch = .summary then .help .summary
    else if switch = .version then .version
    else if switch ∈ seen then .misuse
    else askProgram (switch :: seen) rest
  | .word "generate" behind :: _ => askGenerate [] {} (scan generateOptions none behind)
  | .word "check" behind :: _ => askCheck [] [] (scan checkOptions none behind)
  | .word "help" behind :: _ => askHelp behind
  | .word _ _ :: _ | .trailing _ :: _ | .setting _ _ :: _ | .misuse :: _ => .misuse

/-- What arguments ask for. -/
def Invocation.ofArguments (arguments : List String) : Invocation :=
  askProgram [] (scan programOptions none arguments)

/-! ### Doing it -/

/-- How the program ends. -/
structure Ending where
  status : Nat
  output : String
  complaints : List Report := []

/-- The line printed after a run. -/
def summaryLine (summary : Summary) : String :=
  linesText [Text.join "" ["Generated ", toString summary.files.length, " modules (",
    toString summary.companions, " static companions) from ", toString summary.assemblies,
    " assemblies"]]

/-- The line printed for a listing that can be read. -/
def checkedLine (file : String) (types : Nat) : String :=
  linesText [Text.join "" ["✅ ", file, ": ", toString types, " types"]]

section Run

variable {m : Type → Type} [Monad m] [FileAccess m]

/-- The number of types of a listing, or what is wrong with it. -/
def checkFile (file : String) : ExceptT Report m Nat := do
  if ← (FileAccess.pathExists file : m Bool) then
    match ← (FileAccess.readText file : m (Except FileFault String)) with
    | .error fault => throw { message := "Failed to read " ++ file, causes := [.file fault] }
    | .ok text =>
      match Listing.readAssembly text (some file) with
      | .error error => throw error.report
      | .ok assembly => return assembly.types.length
  else throw { message := "File not found: " ++ file }

/-- Checks listings one after the other, whatever is wrong with some of them. -/
def checkFiles : List String → m Ending
  | [] => return { status := 0, output := "" }
  | file :: rest => do
    let result ← (checkFile file : ExceptT Report m Nat).run
    let others ← checkFiles rest
    match result with
    | .ok types => return { others with output := checkedLine file types ++ others.output }
    | .error report =>
      return { others with status := 1, complaints := report :: others.complaints }

/-- Does what is asked for. -/
def Invocation.run : Invocation → m Ending
  | misuse =>
    return {
      status := 2
      output := ""
      complaints := [{ message := "Unknown or repeated argument; see `--help`" }] }
  | help topic => return { status := 0, output := topic.text }
  | version => return { status := 0, output := versionText }
  | generate options => do
    match ← (options.execute : ExceptT RunFailure m Summary).run with
    | .ok summary => return { status := 0, output := summaryLine summary }
    | .error error => return { status := 1, output := "", complaints := [error.report] }
  | check files => checkFiles files

end Run

end ExternBindings.Program
