import Campaign.Cli.Args
import Campaign.Config.Basic
import Campaign.Mutation.Automator
import Campaign.Text.Quoted

/-! Carrying out the command line under its log filter: `mutants` prints a machine's schedule and
how it rotates, `run` loads and checks the configuration. A failure ends with code 1 and its
causes on standard error, a usage error with code 2, and help with code 0.
-/

namespace Campaign

namespace Cli

/-- What running the command line leaves: its exit code and what it printed. -/
structure Report where
  code : Nat
  stdout : String
  stderr : String
  deriving DecidableEq, Repr

/-- The report of a failure as printed: the failure, then its causes. -/
def errorText (c : Cause) : String :=
  "Error: " ++ c.text ++
    match c.sources with
    | [] => "\n"
    | [one] => "\n\nCaused by:\n    " ++ one ++ "\n"
    | many => "\n\nCaused by:\n" ++
        String.join (many.zipIdx.map fun (s, i) => "    " ++ toString i ++ ": " ++ s ++ "\n")

/-- A command that failed. -/
def failed (c : Cause) : Report := ⟨1, "", errorText c⟩

/-- The rank of a level: `0` shows nothing, `5` everything. -/
def levelRank? (s : String) : Option Nat :=
  match s.toLower with
  | "off" | "0" => some 0
  | "error" | "1" => some 1
  | "warn" | "2" => some 2
  | "info" | "3" => some 3
  | "debug" | "4" => some 4
  | "trace" | "5" => some 5
  | _ => none

/-- A directive of a log filter: the targets it is for (all when empty) and their level. -/
structure Directive where
  target : String
  rank : Nat
  deriving DecidableEq, Repr

/-- The failure of a level that is not one. -/
def levelFault : String :=
  "error parsing level filter: expected one of \"off\", \"error\", \"warn\", \"info\", " ++
    "\"debug\", \"trace\", or a number 0-5"

/-- Read one directive. -/
def directiveOf (d : String) : Except String Directive :=
  match d.splitOn "=" with
  | [t] =>
    match levelRank? t with
    | some r => .ok ⟨"", r⟩
    | none => .ok ⟨t, 5⟩
  | [t, l] =>
    match levelRank? l with
    | some r => .ok ⟨t, r⟩
    | none => .error levelFault
  | _ => .error "invalid filter directive"

/-- Read a log filter. -/
def filterOf (level : String) : Except Cause (List Directive) :=
  ((level.splitOn ",").filter (!·.isEmpty)).mapM fun d =>
    (directiveOf d).mapError fun e =>
      Cause.causedBy ("invalid log level " ++ Text.quoted level) (Cause.causedBy e (.plain e))

/-- The target of the program's own log records. -/
def ownTarget : String := "campaign_director"

/-- Whether a filter shows the program's warnings: the directive with the longest target that
starts the program's target decides; with none, nothing shows. -/
def showsWarnings (directives : List Directive) : Bool :=
  let matching := directives.filter fun d => ownTarget.startsWith d.target
  let best := matching.foldl (fun (acc : Option Directive) d =>
    match acc with
    | some b => if d.target.length ≥ b.target.length then some d else some b
    | none => some d) none
  match best with
  | some d => d.rank ≥ 2
  | none => false

/-- The warning printed when the mutant never rotates. -/
def noRotationWarning : String :=
  " WARN " ++ ownTarget ++ ": no rotation configured; the first mutant stays selected\n"

/-- Load a configuration from the text of its file, or say why it cannot be. -/
def loadConfig (path : String) (contents : Except IoError String) :
    Except Cause CampaignConfig :=
  let loaded : Except ConfigError CampaignConfig := match contents with
    | .error e => .error (ConfigError.io e)
    | .ok text => CampaignConfig.ofText text
  loaded.mapError fun e => Cause.causedBy ("loading " ++ path) e.cause

/-- The output of `mutants` for a machine: the schedule and its rotation, and the warning
when there is none. -/
def mutants (config : CampaignConfig) (machine : String) (warnings : Bool) : Report :=
  match config.machines.get? ⟨machine⟩ with
  | none => failed (.plain ("no machine " ++ machine ++ " in configuration"))
  | some mc =>
    match mc.mutation with
    | some m =>
      if !m.enabled then failed (.plain ("mutation testing is not enabled for " ++ machine))
      else
        match Mutation.Automator.ofConfig m with
        | .error e => failed (.plain e.message)
        | .ok a =>
          let schedule := String.join (a.mutants.zipIdx.map fun (mu, slot) =>
            toString slot ++ "\t" ++ toString mu.id ++ "\n")
          match m.auto.changeAfter, m.auto.changeKill with
          | some period, kill =>
            ⟨0, schedule ++ "rotation: every " ++ toString period ++ "s" ++
              (if kill then " or on kill" else "") ++ "\n", ""⟩
          | none, true => ⟨0, schedule ++ "rotation: on kill\n", ""⟩
          | none, false => ⟨0, schedule, if warnings then noRotationWarning else ""⟩
    | none => failed (.plain ("mutation testing is not enabled for " ++ machine))

/-- The failure of running a campaign here. -/
def noClock : Cause := .plain "running a campaign needs the system clock"

/-- Carry out a request, given the contents of its configuration file. -/
def execute (inv : Invocation) (contents : Except IoError String) : Report :=
  match filterOf inv.logLevel with
  | .error c => failed c
  | .ok directives =>
    match inv.request with
    | .mutants path machine =>
      match loadConfig path contents with
      | .error c => failed c
      | .ok config => mutants config machine (showsWarnings directives)
    | .run path outDir timeoutSecs _ _ _ =>
      match loadConfig path contents with
      | .error c => failed c
      | .ok config =>
        let config := match outDir with
          | some d => { config with outDir := some ⟨d⟩ }
          | none => config
        let config := match timeoutSecs with
          | some s => { config with globalTimeoutSecs := some s }
          | none => config
        match config.validate with
        | .error e => failed e.cause
        | .ok () => failed noClock

/-- The configuration file a request reads. -/
def configPath : Request → String
  | .run path .. => path
  | .mutants path _ => path

/-- What a command line, as read, does, given the contents of the configuration file it
names, if any. -/
def reportOf (parsed : Parsed) (contents : Except IoError String) : Report :=
  match parsed with
  | .help text => ⟨0, text, ""⟩
  | .usage message =>
    ⟨2, "", "error: " ++ message ++ "\n\nFor more information, try '--help'.\n"⟩
  | .invoke inv => execute inv contents

/-- Run a command line, the program's name left out, reading files with `read`. -/
def runWith (args : List String) (read : String → Except IoError String) : Report :=
  let parsed := parse args
  reportOf parsed (match parsed with
    | .invoke inv => read (configPath inv.request)
    | _ => .ok "")

end Cli

end Campaign
