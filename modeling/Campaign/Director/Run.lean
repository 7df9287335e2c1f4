import Campaign.Instance.Run
import Campaign.Director.Error
import Campaign.Director.Options
import Campaign.Plan.Corpus

/-! Building a campaign checks its parts in order and builds one instance per machine; directing
it plans every machine and runs each instance as its own task under one group context. The
first failure that is not a cancellation, or else the first cancellation, is the campaign's.
-/

namespace Campaign

open Async

/-- What plans the machines of a campaign over its inputs. -/
structure Planner (ω : Type) where
  plan : Table MachineId MachineConfig → List Path →
    Proc ω Item (Except Cause (Table MachineId Plan))

/-- What builds the stage set of each machine; it may refuse a machine. -/
structure StageFactory (ω : Type) where
  forMachine : Machine → Except Cause (StageSet ω)

/-- The collaborators of a campaign; either may be missing. -/
structure Environment (ω : Type) where
  planner : Option (Planner ω) := none
  factory : Option (StageFactory ω) := none

/-- Something that sees what the campaign reports about itself. -/
structure DirectorObserver (ω : Type) where
  notify : DirectorMessage → ω → ω

/-- A campaign ready to run: its planner, machines and inputs, one instance per machine in
machine order, its observers, the campaign's quantities and its time limit in milliseconds. -/
structure Director (ω : Type) where
  planner : Planner ω
  machines : Table MachineId MachineConfig
  inputs : List Path
  instances : List (Instance ω)
  observers : List (DirectorObserver ω)
  quantities : QuantitySet
  timeLimit : Option Nat

variable {ω : Type}

/-- The planner and the stage factory, the planner checked first. -/
def Environment.resolve (env : Environment ω) : Except EnvError (Planner ω × StageFactory ω) :=
  match env.planner, env.factory with
  | none, _ => .error (.missing "planner")
  | some _, none => .error (.missing "stage factory")
  | some p, some f => .ok (p, f)

/-- Resolving fails exactly as checking which collaborators are present does. -/
theorem Environment.resolve_eq_error_iff (env : Environment ω) (e : EnvError) :
    env.resolve = .error e ↔ EnvError.check env.planner.isSome env.factory.isSome = .error e := by
  unfold resolve EnvError.check
  cases env.planner <;> cases env.factory <;> simp

/-- The corpus planner: it reads the clock and then the inputs, in one file operation, which
takes no time on the clock, and plans every machine over them, created at that time, with
`seed` or else with the time as the seed. -/
def Planner.corpus (files : Files ω) (seed : Option Int) : Planner ω :=
  ⟨fun machines inputs => do
    let now ← Proc.now
    Proc.file fun w =>
      (w, (planCorpus (files.get w) (seed.getD now) now machines (inputs.map (·.text))).mapError
        (·.cause))⟩

/-- Tell every observer, one after the other, all of `msgs` in order. -/
def DirectorObserver.tellAll (observers : List (DirectorObserver ω)) (msgs : List DirectorMessage)
    (w : ω) : ω :=
  observers.foldl (fun w o => msgs.foldl (fun w m => o.notify m w) w) w

namespace Director

/-- The time limit of the options in milliseconds. -/
def limitMs (opts : DirectorOptions) : Option Nat :=
  opts.globalTimeout.map (·.nanos / Duration.nanosPerMilli)

/-- The instance of machine number `index`, with the observers `mint` gives it. -/
def instanceOf (factory : StageFactory ω) (outDir : Path) (opts : DirectorOptions)
    (mint : Option (Nat → MachineId → List (Observer ω))) (entry : (MachineId × MachineConfig) × Nat) :
    Except DirectorError (Instance ω) := do
  let ((id, config), index) := entry
  let machine := Machine.create id config (Pathset.ofMachine outDir id) opts.quantities
  let stages ← (factory.forMachine machine).mapError (.stages id)
  let observers := match mint with
    | some f => f index id
    | none => []
  return { index, machine, stages, observers, fuzzer := opts.fuzzer, filters := opts.filters }

/-- Check a campaign and build its instances. -/
def create (env : Environment ω) (machines : Table MachineId MachineConfig) (inputs : List Path)
    (opts : DirectorOptions) (observers : List (DirectorObserver ω))
    (mint : Option (Nat → MachineId → List (Observer ω))) : Except DirectorError (Director ω) := do
  if machines.size = 0 then throw .noMachines
  if inputs.isEmpty then throw .noInputs
  let (planner, factory) ← env.resolve.mapError .env
  let some outDir := opts.outDir | throw .noOutDir
  if opts.globalTimeout.map (·.nanos) == some 0 then throw .zeroTimeout
  let instances ← machines.entries.zipIdx.mapM (instanceOf factory outDir opts mint)
  return ⟨planner, machines, inputs, instances, observers, opts.quantities, limitMs opts⟩

/-- What building a campaign announces: the machines one by one, then the number of
instances. -/
def announcements (d : Director ω) : List DirectorMessage :=
  [.machines (.start d.machines.size)] ++
    d.machines.entries.zipIdx.map (fun ((id, config), i) => .machines (.step i ⟨id, config⟩)) ++
    [.machines .done, .prepare (.instances d.instances.length)]

/-- What building a campaign tells its observers, as a change of the shared state: each
observer of a built campaign in turn hears its `announcements`, and a build that failed tells
nobody anything. -/
def announce : Except DirectorError (Director ω) → ω → ω
  | .ok d => DirectorObserver.tellAll d.observers d.announcements
  | .error _ => id

/-- What directing announces once every machine has its plan: the quantities, then where each
machine writes. -/
def preparations (d : Director ω) : List DirectorMessage :=
  .prepare (.quantities d.quantities) ::
    d.instances.map fun i => .prepare (.paths i.machine.id i.machine.pathset)

/-- Give each instance its plan; otherwise the first machine without one. -/
def assignPlans (plans : Table MachineId Plan) :
    List (Instance ω) → Except MachineId (List (Instance ω))
  | [] => .ok []
  | inst :: rest =>
    match plans.get? inst.machine.id with
    | none => .error inst.machine.id
    | some plan => do
      let rest ← assignPlans plans rest
      return { inst with machine := { inst.machine with initialPlan := plan } } :: rest

/-- Drop instances that never ran, letting go of their observers. -/
def dropAll (instances : List (Instance ω)) : Proc ω Item Unit :=
  instances.forM fun inst => inst.observers.forM (·.abandon)

/-- The failures that arrived so far: the first that is not a cancellation, and the first
cancellation. -/
structure Outcomes where
  fatal : Option DirectorError := none
  cancelled : Option DirectorError := none

/-- Note a failure that arrived. -/
def Outcomes.add (o : Outcomes) (e : DirectorError) : Outcomes :=
  if e.isCancellation then { o with cancelled := o.cancelled <|> some e }
  else { o with fatal := o.fatal <|> some e }

/-- How the campaign ends: a failure that is not a cancellation wins. -/
def Outcomes.result (o : Outcomes) : Except DirectorError Unit :=
  match o.fatal, o.cancelled with
  | some e, _ => .error e
  | none, some e => .error e
  | none, none => .ok ()

/-- The failure of an instance's task that ended as `joined`: the instance's own failure, none
when the instance ended well, and a panic when the task ended without the instance's result. -/
def taskFailure (m : MachineId) : Joined Item → Option DirectorError
  | .value (.ended _ (.error e)) => some (.instance m e)
  | .value (.ended _ (.ok ())) => none
  | _ => some (.panicked m)

/-- The failure a report brings, if any: how the task of an instance ended. -/
def failureOf : Item → Option DirectorError
  | .joined m o => taskFailure m o
  | _ => none

/-- Receive the reports of `left` instances on `results`, cancelling the group on every
failure. -/
def collect (results group : Nat) : Nat → Outcomes → Proc ω Item Outcomes
  | 0, o => return o
  | left + 1, o => do
    match ← Proc.recv results with
    | some it =>
      match failureOf it with
      | some e =>
        Proc.raise group
        collect results group left (o.add e)
      | none => collect results group left o
    | none => return o

/-- The task of one instance: run it under `cx`; it ends with how the instance ended. -/
def instanceTask (files : Files ω) (cx : Context) (inst : Instance ω) : Proc ω Item Item := do
  let (r, _) ← inst.run files cx
  return .ended inst.machine.id r

/-- Wait for the task of machine `m`'s instance to end, and report on `results` how it
ended. -/
def watch (results : Nat) (m : MachineId) (task : Nat) : Proc ω Item Item := do
  let joined ← Proc.join task
  let _ ← Proc.send results (.joined m joined)
  return .done

/-- Run every instance as its own task under `cx`, each watched by a task that reports how it
ended. -/
def runAll (files : Files ω) (cx : Context) (group : Nat) (instances : List (Instance ω)) :
    Proc ω Item (Except DirectorError Unit) := do
  let results ← Proc.channel instances.length
  instances.forM fun inst => do
    let task ← Proc.start (instanceTask files cx inst)
    let _ ← Proc.start (watch results inst.machine.id task)
  return (← collect results group instances.length {}).result

/-- Wait for the planning task unless `cx` ends first, which stops it: the plans, or why there
are none. A planner that panics takes the campaign down with it. -/
def awaitPlans (cx : Context) (planning : Nat) :
    Proc ω Item (Except DirectorError (Table MachineId Plan)) := do
  match ← Proc.select [.done cx, .join planning] with
  | (_, .done r) => do
      Proc.abort planning
      pure (.error (.cancelled r))
  | (_, .joined (.value (.planned r))) => pure (r.mapError .plan)
  | (_, .joined .panicked) => Proc.panic
  | _ => pure (.error (.plan (.plain "planner stopped")))

/-- The campaign's context from `now` on: `cx` under the time limit, if there is one. -/
def limitFrom (d : Director ω) (cx : Context) (now : Nat) : Context :=
  match d.timeLimit with
  | some t => cx.withDeadline (now + t)
  | none => cx

/-- Plan the machines, unless `cx` ends first, then run every instance until all have
stopped. -/
def direct (d : Director ω) (files : Files ω) (cx : Context) :
    Proc ω Item (Except DirectorError Unit) := do
  let planning ← Proc.start (Item.planned <$> d.planner.plan d.machines d.inputs)
  let planned ← awaitPlans cx planning
  match planned.bind fun plans => (assignPlans plans d.instances).mapError .missingPlan with
  | .error e =>
    dropAll d.instances
    return .error e
  | .ok instances =>
    Proc.modify (DirectorObserver.tellAll d.observers d.preparations)
    let now ← Proc.now
    let group ← Proc.signal
    runAll files ((d.limitFrom cx now).withSignal group) group instances

end Director

end Campaign
