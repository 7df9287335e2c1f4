/-! The director's command line: `run` runs a campaign from a configuration over test inputs, and
`mutants` prints one machine's mutant schedule. Options take their value as the next argument
or after `=`, and a repeated, unknown or missing option is a usage error.
-/

namespace Campaign

namespace Cli

/-- What the command line asks to do. -/
inductive Request where
  | run (config : String) (outDir : Option String) (timeoutSecs : Option Nat)
      (statsFile logFile : Option String) (inputs : List String)
  | mutants (config machine : String)
  deriving DecidableEq, Repr

/-- A request with the log filter it runs under. -/
structure Invocation where
  logLevel : String
  request : Request
  deriving DecidableEq, Repr

/-- What a command line reads as: a request, a help text to print, or a usage error. -/
inductive Parsed where
  | invoke (i : Invocation)
  | help (text : String)
  | usage (message : String)
  deriving DecidableEq, Repr

/-- The name of the program. -/
def programName : String := "campaign-director"

/-- The help of the whole command. -/
def rootHelp : String :=
  "Multi-machine concurrency-testing campaign director\n\n" ++
  "Usage: campaign-director [OPTIONS] <COMMAND>\n\n" ++
  "Commands:\n" ++
  "  run      Run a campaign until its deadline or Ctrl-C\n" ++
  "  mutants  Print the mutant schedule of one machine\n" ++
  "  help     Print this message or the help of the given subcommand(s)\n\n" ++
  "Options:\n" ++
  "      --log-level <LOG_LEVEL>  Log filter used when RUST_LOG is unset [default: info]\n" ++
  "  -h, --help                   Print help\n"

/-- The help of `mutants`. -/
def mutantsHelp : String :=
  "Print the mutant schedule of one machine\n\n" ++
  "Usage: campaign-director mutants [OPTIONS] --config <CONFIG> --machine <MACHINE>\n\n" ++
  "Options:\n" ++
  "      --config <CONFIG>        Campaign configuration file\n" ++
  "      --machine <MACHINE>      Machine identifier\n" ++
  "      --log-level <LOG_LEVEL>  Log filter used when RUST_LOG is unset [default: info]\n" ++
  "  -h, --help                   Print help\n"

/-- The help of `run`. -/
def runHelp : String :=
  "Run a campaign until its deadline or Ctrl-C\n\n" ++
  "Usage: campaign-director run [OPTIONS] --config <CONFIG> <INPUTS>...\n\n" ++
  "Arguments:\n" ++
  "  <INPUTS>...  Test inputs\n\n" ++
  "Options:\n" ++
  "      --config <CONFIG>              Campaign configuration file\n" ++
  "      --out-dir <OUT_DIR>            Output root, overriding the configuration\n" ++
  "      --timeout-secs <TIMEOUT_SECS>  Campaign deadline in seconds, overriding the configuration\n" ++
  "      --stats-file <STATS_FILE>      Statistics file, rewritten after every cycle outcome\n" ++
  "      --log-file <LOG_FILE>          Append-only event log\n" ++
  "      --log-level <LOG_LEVEL>        Log filter used when RUST_LOG is unset [default: info]\n" ++
  "  -h, --help                         Print help\n"

/-- The help of a subcommand, when there is one of that name. -/
def subcommandHelp : String → Option String
  | "run" => some runHelp
  | "mutants" => some mutantsHelp
  | "help" => some rootHelp
  | _ => none

/-- Whether an argument reads as an option rather than a value. -/
def looksLikeOption (arg : String) : Bool := arg.startsWith "-" && arg != "-"

/-- The text of an option with its value name, as usage errors show it. -/
def optionText (name : String) : String :=
  "--" ++ name ++ " <" ++ (name.map fun c => if c == '-' then '_' else c.toUpper) ++ ">"

/-- Options read so far, by name, and the other arguments. -/
structure Gathered where
  options : List (String × String) := []
  arguments : List String := []
  help : Bool := false

/-- Read at most `fuel` arguments of a subcommand that knows the options `known`; after `--`
every argument is an argument. -/
def gatherFrom (known : List String) : Nat → List String → Bool → Gathered → Except String Gathered
  | 0, _, _, g => .ok g
  | _ + 1, [], _, g => .ok g
  | fuel + 1, arg :: rest, true, g =>
    gatherFrom known fuel rest true { g with arguments := g.arguments ++ [arg] }
  | fuel + 1, arg :: rest, false, g =>
    if arg == "--" then gatherFrom known fuel rest true g
    else if arg == "-h" || arg == "--help" then gatherFrom known fuel rest false { g with help := true }
    else if arg.startsWith "--" then
      let body := (arg.drop 2).toString
      let (name, inline) := match body.splitOn "=" with
        | n :: v :: more => (n, some ("=".intercalate (v :: more)))
        | _ => (body, none)
      if !known.contains name then .error ("unexpected argument '" ++ arg ++ "' found")
      else if g.options.any (·.1 == name) then
        .error ("the argument '" ++ optionText name ++ "' cannot be used multiple times")
      else match inline, rest with
        | some v, _ => gatherFrom known fuel rest false { g with options := g.options ++ [(name, v)] }
        | none, v :: more =>
          if looksLikeOption v then
            .error ("a value is required for '" ++ optionText name ++ "' but none was supplied")
          else gatherFrom known fuel more false { g with options := g.options ++ [(name, v)] }
        | none, [] =>
          .error ("a value is required for '" ++ optionText name ++ "' but none was supplied")
    else if looksLikeOption arg then .error ("unexpected argument '" ++ arg ++ "' found")
    else gatherFrom known fuel rest false { g with arguments := g.arguments ++ [arg] }

/-- Read the arguments of a subcommand that knows the options `known`. -/
def gather (known : List String) (args : List String) : Except String Gathered :=
  gatherFrom known (args.length + 1) args false {}

/-- The value of an option that was read. -/
def Gathered.get? (g : Gathered) (name : String) : Option String := g.options.lookup name

/-- A usage error naming the required arguments that are missing. -/
def missing (names : List String) : String :=
  "the following required arguments were not provided:\n" ++
    "\n".intercalate (names.map fun n => "  " ++ n)

/-- Read the arguments of `mutants`. -/
def mutantsRequest (level : String) (args : List String) : Parsed :=
  match gather ["config", "machine", "log-level"] args with
  | .error e => .usage e
  | .ok g =>
    if g.help then .help mutantsHelp
    else match g.arguments with
      | a :: _ => .usage ("unexpected argument '" ++ a ++ "' found")
      | [] =>
        match g.get? "config", g.get? "machine" with
        | some c, some m => .invoke ⟨(g.get? "log-level").getD level, .mutants c m⟩
        | c, m =>
          .usage (missing ((if c.isNone then [optionText "config"] else []) ++
            (if m.isNone then [optionText "machine"] else [])))

/-- Read the arguments of `run`. -/
def runRequest (level : String) (args : List String) : Parsed :=
  let known := ["config", "out-dir", "timeout-secs", "stats-file", "log-file", "log-level"]
  match gather known args with
  | .error e => .usage e
  | .ok g =>
    if g.help then .help runHelp
    else
      let absent := (if (g.get? "config").isNone then [optionText "config"] else []) ++
        (if g.arguments.isEmpty then ["<INPUTS>..."] else [])
      if !absent.isEmpty then .usage (missing absent)
      else
        let timeout := g.get? "timeout-secs"
        match timeout.map String.toNat? with
        | some none =>
          .usage ("invalid value '" ++ timeout.getD "" ++ "' for '" ++ optionText "timeout-secs" ++
            "': invalid digit found in string")
        | secs =>
          .invoke ⟨(g.get? "log-level").getD level,
            .run ((g.get? "config").getD "") (g.get? "out-dir") secs.join (g.get? "stats-file")
              (g.get? "log-file") g.arguments⟩

/-- Read a command line, the program's name left out; `level` is the log filter so far. -/
def parseFrom (level : Option String) : List String → Parsed
  | [] => .usage ("'" ++ programName ++ "' requires a subcommand but one was not provided")
  | arg :: rest =>
    if arg == "-h" || arg == "--help" then .help rootHelp
    else if arg == "--log-level" then
      match rest with
      | v :: more =>
        if looksLikeOption v then
          .usage ("a value is required for '" ++ optionText "log-level" ++ "' but none was supplied")
        else if level.isSome then
          .usage ("the argument '" ++ optionText "log-level" ++ "' cannot be used multiple times")
        else parseFrom (some v) more
      | [] =>
        .usage ("a value is required for '" ++ optionText "log-level" ++ "' but none was supplied")
    else if arg.startsWith "--log-level=" then
      if level.isSome then
        .usage ("the argument '" ++ optionText "log-level" ++ "' cannot be used multiple times")
      else parseFrom (some (arg.drop 12).toString) rest
    else if looksLikeOption arg then .usage ("unexpected argument '" ++ arg ++ "' found")
    else
      let lvl := level.getD "info"
      match arg with
      | "mutants" => mutantsRequest lvl rest
      | "run" => runRequest lvl rest
      | "help" =>
        match rest with
        | [] => .help rootHelp
        | name :: _ =>
          match subcommandHelp name with
          | some text => .help text
          | none => .usage ("unrecognized subcommand '" ++ name ++ "'")
      | _ => .usage ("unrecognized subcommand '" ++ arg ++ "'")

/-- Read a command line, the program's name left out. -/
def parse (args : List String) : Parsed := parseFrom none args

end Cli

end Campaign
