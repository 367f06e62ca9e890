import ApiNodes.Command.Options
import ApiNodes.Number.Numeral
import ApiNodes.Run.Webhooks

namespace ApiNodes.Command

open Files (Path)
open Run (RunError World)

/-!
# The command line

A command line is read, the run that it asks for is made, and the outcome is told: what goes
to the output, what goes to the error output behind the log, and the exit code.
-/

/-! ### Outcomes -/

/-- How a command ends. -/
structure Outcome where
  exitCode : Nat := 0
  stdout : String := ""
  stderr : String := ""
  /-- The failure of a run that the command does not report itself. -/
  failure : Option RunError := none

/-! ### Misuse -/

/-- The first line of the usage: of a command, or of the group of commands. -/
def usageLine : Option Command → String
  | none => "Usage: main [OPTIONS] COMMAND [ARGS]...\n"
  | some c => "Usage: main " ++ c.name ++ " [OPTIONS]\n"

/-- Where help is to be had. -/
def helpHint (c : Option Command) : String :=
  "Try 'main" ++ (match c with | none => "" | some c => " " ++ c.name) ++ " --help' for help.\n"

/-- The outcome of a misuse. -/
def misused (c : Option Command) (m : Misuse) : Outcome :=
  { exitCode := 2
    stderr := (if m.showsUsage then usageLine c ++ helpHint c ++ "\n" else "") ++
      "Error: " ++ m.message ++ "\n" }

/-- What each command does. -/
def summary : Command → String
  | generate => "Generate resource handlers, properties and registry files."
  | webhooks => "Generate the trigger node's webhook event files."
  | info => "Show the recorded API version for each generated component."

/-- The name of a command, filled up to the longest one. -/
def padded (c : Command) : String :=
  c.name ++ .ofList (List.replicate (8 - c.name.length) ' ')

/-- The help of the group of commands. -/
def groupHelp : String :=
  usageLine none ++ "\n" ++
    "  Zentitle code generator: build n8n node sources from the OpenAPI spec.\n\n" ++
    "Options:\n" ++
    "  -v, --verbose  Show debug logging.\n" ++
    "  --help         Show this message and exit.\n\n" ++
    "Commands:\n" ++ String.join (commands.map fun c => "  " ++ c.padded ++ "  " ++ c.summary ++ "\n")

/-- The help of a command. -/
def help (c : Command) : String := usageLine (some c) ++ "\n  " ++ c.summary ++ "\n"

/-! ### Values -/

/-- The problem with the value of an option, if there is one. -/
def valueProblem? (key : Key) (value : String) : Option (String × String) :=
  match key with
  | .product =>
    if (Api.products.lookup value).isSome then none
    else
      let names := (Api.products.map Prod.fst).mergeSort fun a b => decide (a ≤ b)
      some ("--product",
        Text.quoted value ++ " is not one of " ++ commaJoined (names.map Text.quoted) ++ ".")
  | .timeout =>
    if (Numeral.float? value.toList).isSome then none
    else some ("--timeout", Text.quoted value ++ " is not a valid float.")
  | _ => none

/-- The first option, in the order in which they were given, whose last value is a
    problem. -/
def firstProblem? (g : Given) : Option Misuse :=
  g.options.findSome? fun (key, _) =>
    ((g.value? key).bind (valueProblem? key)).map fun (option, problem) =>
      .invalidValue option problem

/-- The time limit. -/
def Given.timeout (g : Given) : Value :=
  (((g.value? .timeout).bind fun s => Numeral.float? s.toList).map Value.float).getD .null

/-- The file of the versions. -/
def Given.versionFile (g : Given) : Path :=
  ((g.value? .versionFile).map Path.ofString).getD Run.defaultVersionFile

/-- The product. -/
def Given.product (g : Given) : Option Api.Product :=
  (g.value? .product).bind fun name => Api.products.lookup name

/-- The folder of a node without a product. -/
def defaultOutput : String := "nodes/Nalpeiron/Zentitle2"

/-- The folder of the node. -/
def Given.output (g : Given) : Path :=
  match g.value? .output with
  | some s => .ofString s
  | none => .ofString ((g.product.map (·.outputDir)).getD defaultOutput)

/-- The source of the document, which the environment gives where no option does. -/
def Given.source (g : Given) (environment : Option String) : Option String :=
  match g.value? .openapiPath with
  | some s => some s
  | none => environment.filter (· != "")

/-- The component of the product. -/
def Given.component (g : Given) : String :=
  (g.product.map (·.componentName)).getD Run.defaultComponent

/-! ### Runs -/

/-- The failures that a command reports itself, by their wording. -/
def reported? : RunError → Option String
  | .download status reason => some (Run.downloadMessage status reason)
  | .notWritten path cause => some (Run.notWrittenMessage path cause)
  | .rejected faults =>
    some (Run.rejectedMessage (faults.map fun (name, fault) => (name, fault.message)))
  | .render (.undefined what) => some what.message
  | .render .noTemplate => some ""
  | _ => none

/-- The outcome of a run: what it prints, or its failure. -/
def finished {α : Type} (prelude failed : String) (print : α → String) :
    Except RunError α → Outcome
  | .ok a => { stdout := prelude ++ print a }
  | .error e =>
    match reported? e with
    | some message =>
      { exitCode := 1, stdout := prelude, stderr := "Error: " ++ failed ++ ": " ++ message ++ "\n" }
    | none => { exitCode := 1, stdout := prelude, failure := some e }

/-- The line of a list of names; none for an empty list. -/
def listLine (start : String) (names : Option (List String)) (rest : String) : String :=
  match names with
  | none | some [] => ""
  | some ns => start ++ commaJoined ns ++ rest ++ "\n"

/-- The filters of a generation. -/
def Given.filters (g : Given) : Api.Filters :=
  { product := g.product
    includeTags := Api.splitList ((g.value? .includeTags).getD "")
    excludeResources := Api.splitList ((g.value? .excludeResources).getD "")
    getOnly := g.has .getOnly
    noDefaults := g.has .noDefaults }

/-- Generate a node. -/
def runGenerate (g : Given) (environment : Option String) (w : World) : Outcome × World :=
  let config := g.filters.config
  let prelude := listLine "Filtering to " config.allowedMethods " methods only" ++
    listLine "Including tags: " config.includedTags "" ++
    listLine "Excluding resources: " config.excludedResources ""
  let (result, w) := Run.generate
    { output := g.output, source := g.source environment, config, versionFile := g.versionFile
      component := g.component
      nodeLabel := match g.product with | some p => "Nalpeiron " ++ p.displayName | none => "Nalpeiron"
      timeout := g.timeout } w
  (finished prelude "Generation failed"
    (fun o => "Generated " ++ toString o.resources.length ++ " resources (" ++
      toString o.files.length ++ " files) from API version " ++ o.apiVersion ++ "\n") result, w)

/-- Generate the webhook files of a trigger node. -/
def runWebhooks (g : Given) (environment : Option String) (w : World) : Outcome × World :=
  let (result, w) := Run.generateWebhooks
    { output := g.output, source := g.source environment, versionFile := g.versionFile
      component := g.component ++ "Trigger"
      excluded := (g.product.map (·.excludedWebhooks)).getD []
      timeout := g.timeout } w
  (finished "" "Webhook generation failed"
    (fun events => "Generated " ++ toString events.length ++ " webhook events\n") result, w)

/-- Show the versions. -/
def runInfo (g : Given) (w : World) : Outcome × World :=
  match Run.readVersions g.versionFile w with
  | (.ok (some versions), w) =>
    match Run.versionsText versions with
    | .ok content => ({ stdout := content }, w)
    | .error fault => ({ exitCode := 1, failure := some (.unwritable fault) }, w)
  | (.ok none, w) =>
    ({ exitCode := 1
       stderr := "Error: No version information found at " ++ g.versionFile.text ++ "\n" }, w)
  | (.error e, w) => ({ exitCode := 1, failure := some e }, w)

/-- A line of the log on the error output. -/
def logLine (verbose : Bool) (r : Run.LogRecord) : String :=
  if verbose then r.level.name ++ " " ++ r.origin.name ++ ": " ++ r.message ++ "\n"
  else if r.level = .debug then ""
  else r.message ++ "\n"

/-- Run a command, and put its log in front of what it tells on the error output. -/
def runCommand (verbose : Bool) (c : Command) (g : Given) (environment : Option String)
    (w : World) : Outcome × World :=
  let (outcome, after) :=
    match c with
    | .generate => runGenerate g environment w
    | .webhooks => runWebhooks g environment w
    | .info => runInfo g w
  let lines := (after.log.drop w.log.length).map (logLine verbose)
  ({ outcome with stderr := String.join lines ++ outcome.stderr }, after)

/-- The command of a name. -/
def command? (name : String) : Option Command := commands.find? (·.name == name)

/-- What is wrong with a word that is no command: it may be an option out of place. -/
def unknownCommand (words : List String) (name : String) : Misuse :=
  match readWords groupSpecs false words with
  | .error m => m
  | .ok _ => .noSuchCommand name (similar name (commands.map Command.name))

/-- Run a command line.  The environment may give the source of the document. -/
def run (arguments : List String) (environment : Option String) (w : World) : Outcome × World :=
  if arguments.isEmpty then ({ exitCode := 2, stderr := groupHelp }, w)
  else
    match readWords groupSpecs false arguments with
    | .error m => (misused none m, w)
    | .ok group =>
      if group.has .help then ({ stdout := groupHelp }, w)
      else
        match group.words with
        | [] => (misused none .missingCommand, w)
        | name :: words =>
          match command? name with
          | none => (misused none (unknownCommand (name :: words) name), w)
          | some c =>
            match readWords c.specs true words with
            | .error m => (misused (some c) m, w)
            | .ok given =>
              if given.has .help then ({ stdout := c.help }, w)
              else
                match firstProblem? given, given.words with
                | some m, _ => (misused (some c) m, w)
                | none, [] => runCommand (group.has .verbose) c given environment w
                | none, words => (misused (some c) (.extraArguments words), w)

end ApiNodes.Command
