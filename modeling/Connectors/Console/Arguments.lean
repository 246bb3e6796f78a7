import Connectors.Text.Split

/-!
# Arguments of the command

The command takes options only. An option with a value takes it from the rest of its word, after an
equals sign if the option is written in full, or from the next word, unless that word looks like an
option itself. Every option but `--shards` may be given once. Words are read in order, so a request
for help counts only if everything before it is in order.
-/

set_option autoImplicit false
set_option relaxedAutoImplicit false

namespace Connectors.Console

/-- What the command is asked to do. -/
structure Arguments where
  /-- The configuration file. -/
  config : Option String := none
  /-- The profile. -/
  profile : Option String := none
  /-- The shards of the stream, if any are given. -/
  shards : List String := []
  /-- Whether to print the catalog and do nothing else. -/
  catalog : Bool := false
deriving DecidableEq, Repr

/-- The shards of the stream when none are given. -/
def defaultShards : List String := ["shardId-000000000000", "shardId-000000000001"]

/-- The shards of the stream. -/
def Arguments.stream (arguments : Arguments) : List String :=
  if arguments.shards.isEmpty then defaultShards else arguments.shards

/-- What comes out of reading arguments. -/
inductive Reading where
  /-- The command is to do its work. -/
  | work (arguments : Arguments)
  /-- Help is asked for. -/
  | help
  /-- The arguments are not understood. -/
  | refused
deriving DecidableEq, Repr

/-- An option. -/
inductive Choice where
  /-- Names the configuration file. -/
  | config
  /-- Names the profile. -/
  | profile
  /-- Lists shards. -/
  | shards
  /-- Asks for the catalog. -/
  | catalog
  /-- Asks for help. -/
  | help
deriving DecidableEq, Repr

namespace Choice

/-- The option written in full. -/
def ofName? : String → Option Choice
  | "config" => some config
  | "profile" => some profile
  | "shards" => some shards
  | "catalog" => some catalog
  | "help" => some help
  | _ => none

/-- The option written as one letter. -/
def ofLetter? : Char → Option Choice
  | 'c' => some config
  | 'p' => some profile
  | 'h' => some help
  | _ => none

/-- Whether an option has a value. -/
def takesValue : Choice → Bool
  | config | profile | shards => true
  | catalog | help => false

end Choice

namespace Arguments

/-- The arguments with an option added, if it may be there. -/
def add? (arguments : Arguments) (choice : Choice) (value : String) : Option Arguments :=
  match choice with
  | .config =>
    if arguments.config.isSome ∨ value.isEmpty then none
    else some { arguments with config := some value }
  | .profile =>
    if arguments.profile.isSome then none else some { arguments with profile := some value }
  | .shards => some { arguments with shards := arguments.shards ++ Text.split ',' value }
  | .catalog => if arguments.catalog then none else some { arguments with catalog := true }
  | .help => none

/-- Whether a word looks like an option. A single dash does not. -/
def isOption (word : String) : Bool :=
  match word.toList with
  | '-' :: _ :: _ => true
  | _ => false

/-- What a word is. -/
inductive Word where
  /-- An option with the value that is part of the word. -/
  | choice (choice : Choice) (value : Option String)
  /-- The mark after which no option follows. -/
  | divider
  /-- Anything else. -/
  | other
deriving DecidableEq, Repr

/-- The option of a letter and what follows it. -/
def ofLetters (letter : Char) (rest : List Char) : Word :=
  match Choice.ofLetter? letter with
  | none => .other
  | some choice =>
    if choice.takesValue then
      .choice choice (match rest with
        | [] => none
        | '=' :: value => some (String.ofList value)
        | value => some (String.ofList value))
    else .choice choice none

/-- What a word is. -/
def word (text : String) : Word :=
  match text.toList with
  | ['-', '-'] => .divider
  | '-' :: '-' :: name =>
    let name := String.ofList name
    let (name, value) :=
      match Text.splitOnce '=' name with
      | some (name, value) => (name, some value)
      | none => (name, none)
    match Choice.ofName? name with
    | none => .other
    | some choice => if value.isSome ∧ !choice.takesValue then .other else .choice choice value
  | '-' :: letter :: rest => ofLetters letter rest
  | _ => .other

/-- Reads words, after `arguments` have been read. -/
def read (arguments : Arguments) : List String → Reading
  | [] => .work arguments
  | text :: rest =>
    match word text with
    | .other => .refused
    | .divider => if rest.isEmpty then .work arguments else .refused
    | .choice .help _ => .help
    | .choice choice (some value) =>
      match arguments.add? choice value with
      | none => .refused
      | some arguments => read arguments rest
    | .choice choice none =>
      if choice.takesValue then
        match rest with
        | [] => .refused
        | value :: rest =>
          if isOption value then .refused
          else match arguments.add? choice value with
            | none => .refused
            | some arguments => read arguments rest
      else
        match arguments.add? choice "" with
        | none => .refused
        | some arguments => read arguments rest

end Arguments

/-- Reads the arguments of the command. -/
def Reading.ofWords (words : List String) : Reading :=
  Arguments.read {} words

end Connectors.Console
