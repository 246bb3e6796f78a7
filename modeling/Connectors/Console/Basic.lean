import Connectors.Console.Arguments
import Connectors.Rehearsal.Deployment
import Connectors.Text.Blank

/-!
# The command

The command runs a Kinesis consumer, configured by a file and the environment, against a stream
whose shards are given by an argument. It says what it runs and then waits to be stopped. It can
also print the catalog of what it knows.

`Run` is everything that is seen of the command: the lines it says and how it ends.
-/

set_option autoImplicit false
set_option relaxedAutoImplicit false

namespace Connectors.Console

/-- How the command goes on after its last line. -/
inductive Ending where
  /-- Its arguments are not understood. -/
  | refused
  /-- It prints help. -/
  | help
  /-- It prints a catalog. -/
  | catalog (catalog : Catalog)
  /-- It fails, with an account of why. -/
  | failed (account : String)
  /-- It runs until it is stopped. -/
  | running

/-- What is seen of the command. -/
structure Run where
  /-- The lines it says. -/
  said : List String
  /-- How it goes on. -/
  ending : Ending

/-! ### Accounts of errors -/

/-- The lines of one cause, each indented, the first one with its number if there are several. -/
def causeText (number : Option Nat) (cause : String) : String :=
  let (first, later) :=
    match number with
    | none => ("    ", "    ")
    | some number => (padded (Integer.write number) ++ ": ", "       ")
  first ++ Text.join ("\n" ++ later) (Text.split '\n' cause)
where
  /-- A number in five columns. -/
  padded (number : String) : String :=
    String.ofList (List.replicate (5 - number.length) ' ') ++ number

/-- An error and the errors behind it. -/
def account (message : String) (causes : List String) : String :=
  let behind :=
    match causes with
    | [] => ""
    | [cause] => "\n\nCaused by:\n" ++ causeText none cause
    | causes => "\n\nCaused by:\n" ++
      Text.join "\n" (causes.zipIdx.map fun (cause, number) ↦ causeText (some number) cause)
  "Error: " ++ message ++ behind

/-- The account of why an application is not built or not started. -/
def accountOf (error : ApplicationError) : String :=
  account error.message error.causes

/-- The help that the command prints. -/
def helpText : String :=
  "Kinesis consumer configured through Conflux

Usage: kinesis-consumer [OPTIONS]

Options:
  -c, --config <CONFIG>    Configuration file
  -p, --profile <PROFILE>  Configuration profile (development, production, ...)
      --shards <SHARDS>    Shards of the in-process stream " ++
  "[default: shardId-000000000000,shardId-000000000001]
      --catalog            Print the component catalog as JSON and exit
  -h, --help               Print help"

/-! ### Work -/

/-- The connectors that the command knows. -/
def known : List (Draft × Factory) := [(Kinesis.draft, .kinesis)]

/-- The name of the stream's client. -/
def clientName : String := "kinesis"

/-- The loader that arguments ask for. -/
def loader (around : Surroundings) (arguments : Arguments) : Loader :=
  let loader := (Loader.start around).withSearchPath ""
  let loader := arguments.config.elim loader loader.withFile
  arguments.profile.elim loader loader.withProfile

/-- The line about a consumer. -/
def consuming (consumer : Kinesis.Consumer) : String :=
  "Consuming stream=" ++ consumer.settings.streamName ++ " iterator="
    ++ consumer.settings.iteratorType.constant ++ " shards="
    ++ Text.quotedList consumer.watch.shards

/-- The lines about a deployment that runs. -/
def lines (deployment : Rehearsal.Deployment) : List String :=
  deployment.stats.text ::
    match (deployment.running? Kinesis.componentId).bind deployment.endpoint? with
    | some ⟨_, .kinesis consumer⟩ => [consuming consumer]
    | _ => []

/-- An application beside a stream. -/
def besideStream (application : Application) (shards : List String) : Rehearsal.Deployment :=
  ({ application : Rehearsal.Deployment }).addPlayer clientName
    (.ofType 0 Kinesis.clientConcreteType) { shards }

/-- The command at work. -/
def work (around : Surroundings) (arguments : Arguments) : Run :=
  if arguments.catalog then
    match Registry.registerAll {} known with
    | .ok registry => ⟨[], .catalog registry.catalog⟩
    | .error error => ⟨[], .failed (account error.message [])⟩
  else
    match (Application.load around (loader around arguments) none true known).value with
    | .error error => ⟨[], .failed (accountOf error)⟩
    | .ok application =>
      match (besideStream application arguments.stream).start with
      | (.error error, _) => ⟨[], .failed (accountOf error)⟩
      | (.ok (), deployment) => ⟨lines deployment, .running⟩

/-- The command. -/
def run (around : Surroundings) (words : List String) : Run :=
  match Reading.ofWords words with
  | .refused => ⟨[], .refused⟩
  | .help => ⟨[], .help⟩
  | .work arguments => work around arguments

end Connectors.Console
