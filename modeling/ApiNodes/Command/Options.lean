import ApiNodes.Command.Similar
import ApiNodes.Document.Shown
import ApiNodes.Text.Pieces
import ApiNodes.Text.Quoted

namespace ApiNodes

/-!
# Options

The words of a command line are options, values of options and other words.  A long option
may carry its value behind an equals sign, and a short one right behind its letter; of an
option that is given twice the last value counts.
-/

/-! ### Commands and their options -/

/-- The commands. -/
inductive Command
  | generate
  | webhooks
  | info
  deriving DecidableEq, Repr

namespace Command

/-- The meaning of an option. -/
inductive Key
  | verbose
  | help
  | product
  | openapiPath
  | includeTags
  | output
  | excludeResources
  | getOnly
  | noDefaults
  | versionFile
  | timeout
  deriving DecidableEq, Repr

/-- An option: its names, and whether a value follows it. -/
structure Spec where
  key : Key
  names : List String
  hasValue : Bool
  deriving Repr

/-- The name of a command. -/
def name : Command → String
  | generate => "generate"
  | webhooks => "webhooks"
  | info => "info"

/-- All commands. -/
def commands : List Command := [.generate, .info, .webhooks]

/-- The option that asks for help. -/
def helpSpec : Spec := ⟨.help, ["--help"], false⟩

/-- The options in front of a command. -/
def groupSpecs : List Spec := [⟨.verbose, ["-v", "--verbose"], false⟩, helpSpec]

/-- The options of a command. -/
def specs : Command → List Spec
  | generate =>
    [⟨.product, ["--product"], true⟩, ⟨.openapiPath, ["--openapi-path"], true⟩,
     ⟨.includeTags, ["--include-tags"], true⟩, ⟨.output, ["-o", "--output"], true⟩,
     ⟨.excludeResources, ["--exclude-resources"], true⟩, ⟨.getOnly, ["--get-only"], false⟩,
     ⟨.noDefaults, ["--no-defaults"], false⟩, ⟨.versionFile, ["--version-file"], true⟩,
     ⟨.timeout, ["--timeout"], true⟩, helpSpec]
  | webhooks =>
    [⟨.product, ["--product"], true⟩, ⟨.openapiPath, ["--openapi-path"], true⟩,
     ⟨.output, ["-o", "--output"], true⟩, ⟨.versionFile, ["--version-file"], true⟩,
     ⟨.timeout, ["--timeout"], true⟩, helpSpec]
  | info => [⟨.versionFile, ["--version-file"], true⟩, helpSpec]

/-! ### Misuse -/

/-- Why a command line is refused. -/
inductive Misuse
  | noSuchOption (name : String) (similar : List String)
  | noSuchCommand (name : String) (similar : List String)
  | missingCommand
  | extraArguments (words : List String)
  | invalidValue (option problem : String)
  | missingValue (option : String)
  | unexpectedValue (option : String)
  deriving DecidableEq, Repr

/-- What is offered in place of an unknown word. -/
def offer : List String → String
  | [] => ""
  | [s] => " Did you mean " ++ Text.quoted s ++ "?"
  | ss => " (Did you mean one of: " ++ commaJoined (ss.map Text.quoted) ++ "?)"

/-- The wording of a misuse. -/
def Misuse.message : Misuse → String
  | noSuchOption n ss => "No such option " ++ Text.quoted n ++ "." ++ offer ss
  | noSuchCommand n ss => "No such command " ++ Text.quoted n ++ "." ++ offer ss
  | missingCommand => "Missing command."
  | extraArguments ws =>
    "Got unexpected extra argument" ++ (if ws.length = 1 then "" else "s") ++ " (" ++
      String.intercalate " " ws ++ ")"
  | invalidValue option problem => "Invalid value for " ++ Text.quoted option ++ ": " ++ problem
  | missingValue n => "Option " ++ Text.quoted n ++ " requires an argument."
  | unexpectedValue n => "Option " ++ Text.quoted n ++ " does not take a value."

/-- The misuse is told with the usage of the command. -/
def Misuse.showsUsage : Misuse → Bool
  | missingValue _ | unexpectedValue _ => false
  | _ => true

/-! ### Reading words -/

/-- The options that were given, in order, each with its value, and the other words. -/
structure Given where
  options : List (Key × String) := []
  words : List String := []
  deriving Repr

/-- A name with more than one hyphen or letter. -/
def isLong (name : String) : Bool := Text.startsWith "--" name.toList || name.length != 2

/-- The option of a name. -/
def specOf? (specs : List Spec) (name : String) : Option Spec :=
  specs.find? fun s => name ∈ s.names

/-- The long names of options. -/
def longNames (specs : List Spec) : List String := (specs.flatMap (·.names)).filter isLong

/-- What an option word gives: options with values, and how many of the words behind it are
    values. -/
abbrev Taken := List (Key × String) × Nat

/-- The value of an option: the one attached to it, else the next word. -/
def valueFor (name : String) (attached : Option String) (rest : List String) :
    Except Misuse (String × Nat) :=
  match attached, rest with
  | some v, _ => .ok (v, 0)
  | none, v :: _ => .ok (v, 1)
  | none, [] => .error (.missingValue name)

/-- The options of letters behind one hyphen.  The rest of the letters is the value of the
    first of them that takes one. -/
def letters (specs : List Spec) (rest : List String) : List Char → Except Misuse Taken
  | [] => .ok ([], 0)
  | c :: cs =>
    let name := String.ofList ['-', c]
    match specOf? specs name with
    | none => .error (.noSuchOption name [])
    | some s =>
      if s.hasValue then do
        let attached := if cs.isEmpty then none else some (String.ofList cs)
        let (v, n) ← valueFor name attached rest
        return ([(s.key, v)], n)
      else do
        let (more, n) ← letters specs rest cs
        return ((s.key, "") :: more, n)

/-- The name of an option word, and the value behind its equals sign. -/
def splitValue (word : String) : String × Option String :=
  let name := word.toList.takeWhile (· != '=')
  match word.toList.drop name.length with
  | [] => (word, none)
  | _ :: value => (.ofList name, some (.ofList value))

/-- What an option word gives. -/
def optionWord (specs : List Spec) (word : String) (rest : List String) : Except Misuse Taken :=
  let (name, attached) := splitValue word
  match if isLong name then specOf? specs name else none with
  | some s =>
    if s.hasValue then do
      let (v, n) ← valueFor name attached rest
      return ([(s.key, v)], n)
    else if attached.isSome then .error (.unexpectedValue name)
    else .ok ([(s.key, "")], 0)
  | none =>
    if Text.startsWith "--" word.toList then
      .error (.noSuchOption name (similar name (longNames specs)))
    else letters specs rest (word.toList.drop 1)

/-- A word that is an option: a hyphen and more. -/
def isOptionWord (word : String) : Bool :=
  Text.startsWith "-" word.toList && 1 < word.length

/-- Read the words of a command line.  Two hyphens end the options; so does the first other
    word, unless options may follow it. -/
def readWords (specs : List Spec) (interspersed : Bool) : List String → Except Misuse Given
  | [] => .ok {}
  | word :: rest =>
    if word = "--" then .ok { words := rest }
    else if isOptionWord word then do
      let (options, used) ← optionWord specs word rest
      let given ← readWords specs interspersed (rest.drop used)
      return { given with options := options ++ given.options }
    else if interspersed then do
      let given ← readWords specs interspersed rest
      return { given with words := word :: given.words }
    else .ok { words := word :: rest }
termination_by words => words.length
decreasing_by all_goals (simp only [List.length_drop, List.length_cons]; omega)

/-- The last value of an option. -/
def Given.value? (g : Given) (key : Key) : Option String := g.options.reverse.lookup key

/-- The option was given. -/
def Given.has (g : Given) (key : Key) : Bool := (g.value? key).isSome

end Command

end ApiNodes
