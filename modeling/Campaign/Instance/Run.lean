import Campaign.Instance.Env
import Campaign.Mutation.Run
import Campaign.Async.Routine

/-! The control loop of one machine: at most one cycle in flight, a success followed at once by the
next iteration and a failure by `backoffMs`, a new mutant applied to the next launch, and an
outcome discarded once the context is done. However the loop ends, the instance reports itself
closed, closes its stages, lets go of its observers and stops its automator.
-/

namespace Campaign

open Async Mutation

/-- The cooldown after a failed cycle, in milliseconds. -/
def backoffMs : Nat := 5000

/-- An instance: one machine, its stage set, and those who observe it. -/
structure Instance (ω : Type) where
  index : Nat
  machine : Machine
  stages : StageSet ω
  observers : List (Observer ω) := []
  fuzzer : Option FuzzerConfig := none
  filters : FilterSet := {}

/-- The running automator of an instance: its task, the signal that stops it and its kill
input. -/
structure Automation where
  task : Nat
  cancel : Nat
  kills : Option Nat

/-- Where the loop stands: the machine, the mutant stream while it lasts, the cycle in flight
with its task, and the back-off timer. -/
structure LoopState where
  machine : Machine
  mutants : Option Nat
  running : Option (Cycle × Nat)
  backoff : Option Nat

/-- What one turn of the loop decides: go on from a new state, or stop with an outcome. -/
inductive Turn where
  | next (st : LoopState)
  | stop (r : Except InstanceError Unit) (st : LoopState)

namespace Instance

variable {ω : Type} (files : Files ω)

/-- The stamp of the machine's current iteration. -/
def stamp (inst : Instance ω) (m : Machine) : Cycle := ⟨inst.index, m.id, m.cycle⟩

/-- Show an event, stamped with `cycle`, to the observers. -/
def announce (observers : List (Observer ω)) (cycle : Cycle) (e : Event) :
    Routine (Outcall ω) ω Item Unit :=
  Routine.invoke (.emit observers ⟨cycle, e⟩)

/-- The kill observer: an analysis that kills a mutant signals the automator. It holds the
sender of the kill input. -/
def killObserver (kills : Nat) (cx : Context) : Observer ω where
  observe msg :=
    match msg.event with
    | .analysis a => if a.mutation.hasKills then signalKill kills cx Item.kill else pure ()
    | _ => pure ()
  holds := [kills]

/-- Start the automator when the plan is a mutation test: its handle and the mutant stream. -/
def startMutation (inst : Instance ω) (cx : Context) :
    Proc ω Item (Except InstanceError (Option (Automation × Nat))) :=
  let plan := inst.machine.initialPlan
  match plan.mutation with
  | some config =>
    if plan.isMutationTest then
      match Automator.ofConfig config with
      | .error e => return .error (.mutation e)
      | .ok a => do
        let out ← Proc.channel 1
        let kills ← if a.killInput then some <$> Proc.channel 1 else pure none
        let sig ← Proc.signal
        let task ← Proc.start (a.run ⟨out, kills, cx.withSignal sig⟩ Item.mutant .done)
        return .ok (some (⟨task, sig, kills⟩, out))
    else return .ok none
  | none => return .ok none

/-- The task of a cycle: prepare scratch, build the stages and run them over `plan`. -/
def cycleTask (inst : Instance ω) (cx : Context) (env : CycleEnv ω) (plan : Plan) :
    Proc ω Item Item := do
  match ← files.prepareScratch env.pathset with
  | .error e => return .cycle (.error (.scratch e))
  | .ok () =>
    match ← Proc.update (inst.stages.build env) with
    | .error c => return .cycle (.error (.build c))
    | .ok () => return .cycle (← runStages cx (inst.stages.stages env) plan)

/-- What the cycle of the machine's current iteration is built from. -/
def cycleEnv (inst : Instance ω) (observers : List (Observer ω)) (m : Machine) : CycleEnv ω :=
  ⟨inst.stamp m, m.quantities, m.pathset, observers, inst.fuzzer, inst.filters⟩

/-- Launch a cycle of the machine's current iteration: its environment takes a hold of the
observers, the cycle is reported started, and its task starts over a copy of the machine's
plan. -/
def launch (inst : Instance ω) (cx : Context) (observers : List (Observer ω)) (m : Machine) :
    Routine (Outcall ω) ω Item (Cycle × Nat) := do
  let cycle := inst.stamp m
  Routine.lift (retain observers)
  announce observers cycle (.cycle .started)
  let task ← Routine.lift
    (Proc.start (cycleTask files inst cx (inst.cycleEnv observers m) m.initialPlan))
  return (cycle, task)

/-- Apply a new mutant to the next cycles and report it. -/
def changeMutant (inst : Instance ω) (observers : List (Observer ω)) (m : Machine)
    (mutant : Mutant) : Routine (Outcall ω) ω Item Machine := do
  let m := m.setMutant mutant
  announce observers (inst.stamp m) (.inst (.mutantChanged mutant))
  return m

/-- The outcome of a cycle task as a cycle result. -/
def cycleResult : Joined Item → Except CycleError Plan
  | .value (.cycle r) => r
  | .value _ => .error .panicked
  | .aborted => .error (.cancelled .cancelled)
  | .panicked => .error .panicked

/-- The wait of the loop, in its order of preference. -/
def loopWaits (cx : Context) (st : LoopState) : List (Wait Item) :=
  [.done cx,
   (match st.mutants with
    | some ch => .recv ch
    | none => .never),
   (match st.running with
    | some (_, t) => .join t
    | none => .never),
   (match st.backoff with
    | some t => .timer t
    | none => .never)]

/-- Let go of the mutant stream, when it is still held. -/
def dropStream (mutants : Option Nat) : Proc ω Item Unit :=
  match mutants with
  | some ch => Proc.dropReceiver ch
  | none => pure ()

/-- Let go of the back-off timer, when one is set. -/
def dropBackoff (backoff : Option Nat) : Proc ω Item Unit :=
  match backoff with
  | some t => Proc.dropTimer t
  | none => pure ()

/-- Give up the cycle in flight, if any: stop its task, wait until it is gone, and let go of
its environment's hold of the observers. -/
def abandon (observers : List (Observer ω)) (running : Option (Cycle × Nat)) :
    Proc ω Item Unit :=
  match running with
  | some (_, t) => do
    Proc.abort t
    let _ ← Proc.join t
    release observers
  | none => pure ()

/-- Stop because the context ended for `reason`, giving up the cycle in flight. -/
def halt (observers : List (Observer ω)) (st : LoopState) (reason : Cancelled) :
    Routine (Outcall ω) ω Item (Except InstanceError Unit × LoopState) := do
  Routine.lift (abandon observers st.running)
  return (.error (.cancelled reason), { st with running := none })

/-- The stream branch: apply the mutant received, or let go of a stream that has ended. -/
def onMutant (inst : Instance ω) (observers : List (Observer ω)) (st : LoopState) :
    Woke Item → Routine (Outcall ω) ω Item Turn
  | .received (some (.mutant mu)) => do
    let m ← changeMutant inst observers st.machine mu
    return .next { st with machine := m }
  | _ => do
    Routine.lift (dropStream st.mutants)
    return .next { st with mutants := none }

/-- The stamp of the cycle in flight, or of the machine's iteration when none is. -/
def inFlight (inst : Instance ω) (st : LoopState) : Cycle :=
  match st.running with
  | some (c, _) => c
  | none => inst.stamp st.machine

/-- How the wait for a cycle ended, as the cycle's result. -/
def outcomeOf : Woke Item → Except CycleError Plan
  | .joined o => cycleResult o
  | _ => .error .panicked

/-- Why a cycle's result is discarded, if it is: the context has ended, or the cycle was
cancelled, reported with the context's reason when it has one. -/
def discardReason (result : Except CycleError Plan) (ended : Option Cancelled) :
    Option Cancelled :=
  match result with
  | .error (.cancelled c) => some (ended.getD c)
  | _ => ended

/-- Clean up after a cycle: a success stands only once its scratch is removed. -/
def settle (m : Machine) :
    Except CycleError Plan → Routine (Outcall ω) ω Item (Except CycleError Plan)
  | .ok plan => do
    match ← Routine.lift (files.cleanupScratch m.pathset) with
    | .ok () => pure (.ok plan)
    | .error e => pure (.error (.cleanup e))
  | .error e => pure (.error e)

/-- Report the result of `cycle` and go on: a success is followed by the next iteration at
once, a failure by the back-off. -/
def report (inst : Instance ω) (cx : Context) (observers : List (Observer ω)) (st : LoopState)
    (cycle : Cycle) : Except CycleError Plan → Routine (Outcall ω) ω Item Turn
  | .ok _ => do
    announce observers cycle (.cycle .finished)
    let m := st.machine.advanceCycle
    let running ← launch files inst cx observers m
    return .next { st with machine := m, running := some running }
  | .error e => do
    announce observers cycle (.cycle (.errored e))
    let now ← Routine.lift Proc.now
    let t ← Routine.lift (Proc.timer (now + backoffMs))
    return .next { st with backoff := some t }

/-- The cycle branch: the cycle's task has ended, and its environment's hold of the observers
with it; examine the outcome, discarding it once the context is done. -/
def onResult (inst : Instance ω) (cx : Context) (observers : List (Observer ω))
    (st : LoopState) (w : Woke Item) : Routine (Outcall ω) ω Item Turn := do
  Routine.lift (release observers)
  let cycle := inst.inFlight st
  let st := { st with running := none }
  let ended ← Routine.lift (Proc.err cx)
  match discardReason (outcomeOf w) ended with
  | some c => return .stop (.error (.cancelled c)) st
  | none => report files inst cx observers st cycle (← settle files st.machine (outcomeOf w))

/-- The back-off branch: the back-off is over, so launch the iteration again. -/
def onBackoff (inst : Instance ω) (cx : Context) (observers : List (Observer ω))
    (st : LoopState) : Routine (Outcall ω) ω Item Turn := do
  Routine.lift (dropBackoff st.backoff)
  let running ← launch files inst cx observers st.machine
  return .next { st with backoff := none, running := some running }

/-- One turn of the loop: wait for the first of the loop's waits and act on it. -/
def turn (inst : Instance ω) (cx : Context) (observers : List (Observer ω)) (st : LoopState) :
    Routine (Outcall ω) ω Item Turn := do
  let (j, w) ← Routine.lift (Proc.select (loopWaits cx st))
  match j with
  | 0 =>
    let reason := match w with
      | .done r => r
      | _ => .cancelled
    let (r, st) ← halt observers st reason
    return .stop r st
  | 1 => onMutant inst observers st w
  | 2 => onResult files inst cx observers st w
  | 3 => onBackoff files inst cx observers st
  | _ => return .next st

/-- How many turns the loop may take. -/
def loopFuel : Nat := 10000000

/-- The loop, until the context ends. With no fuel left it only waits for that. -/
def loop (inst : Instance ω) (cx : Context) (observers : List (Observer ω)) :
    Nat → LoopState → Routine (Outcall ω) ω Item (Except InstanceError Unit × LoopState)
  | 0, st => do
    let reason ← Routine.lift (Proc.done cx)
    halt observers st reason
  | fuel + 1, st => do
    match ← turn files inst cx observers st with
    | .next st => loop inst cx observers fuel st
    | .stop r st => return (r, st)

/-- Wait for the automator's first mutant, unless the context ends first: the machine and
the stream afterwards, or why the context ended. -/
def firstMutant (inst : Instance ω) (cx : Context) (observers : List (Observer ω))
    (m : Machine) : Option Nat →
    Routine (Outcall ω) ω Item (Except Cancelled (Machine × Option Nat))
  | some ch => do
    match ← Routine.lift (Proc.select [.done cx, .recv ch]) with
    | (0, w) => pure (.error (match w with
        | .done r => r
        | _ => .cancelled))
    | (_, .received (some (.mutant mu))) => do
      pure (.ok (← changeMutant inst observers m mu, some ch))
    | _ => do
      Routine.lift (Proc.dropReceiver ch)
      pure (.ok (m, none))
  | none => pure (.ok (m, none))

/-- Prepare, take the first mutant, launch cycle 0 and loop; the stream is let go at the end. -/
def runLoop (inst : Instance ω) (cx : Context) (observers : List (Observer ω)) (m : Machine)
    (mutants : Option Nat) :
    Routine (Outcall ω) ω Item (Except InstanceError Unit × Machine) := do
  match ← Routine.lift (files.prepareSaved m.pathset) with
  | .error e =>
    Routine.lift (dropStream mutants)
    return (.error (.prepare m.id e), m)
  | .ok () =>
    match ← firstMutant inst cx observers m mutants with
    | .error r =>
      Routine.lift (dropStream mutants)
      return (.error (.cancelled r), m)
    | .ok (m, mutants) =>
      let running ← launch files inst cx observers m
      let (r, st) ← loop files inst cx observers loopFuel ⟨m, mutants, some running, none⟩
      Routine.lift (dropBackoff st.backoff)
      Routine.lift (dropStream st.mutants)
      return (r, st.machine)

/-- Stop the automator, if one runs, and wait for it. -/
def stopAutomation : Option Automation → Proc ω Item (Except InstanceError Unit)
  | some a => do
    Proc.raise a.cancel
    match ← Proc.join a.task with
    | .value _ => pure (.ok ())
    | _ => pure (.error .automatorPanicked)
  | none => pure (.ok ())

/-- Report the instance closed, close the stages, let go of the instance's hold of the
observers and stop the automator. -/
def close (inst : Instance ω) (observers : List (Observer ω)) (m : Machine)
    (automation : Option Automation) : Routine (Outcall ω) ω Item (Except InstanceError Unit) := do
  announce observers (inst.stamp m) (.inst .closed)
  let closed ← Routine.invoke (.closeStages inst.stages)
  Routine.lift (release observers)
  let stopped ← Routine.lift (stopAutomation automation)
  return match closed with
    | .error c => .error (.close c)
    | .ok () => stopped

/-- The observers of a run: the instance's own, and the kill observer when the automator
takes kills. -/
def observersOf (inst : Instance ω) (cx : Context) :
    Option (Automation × Nat) → List (Observer ω)
  | some (⟨_, sig, some k⟩, _) => inst.observers ++ [killObserver k (cx.withSignal sig)]
  | _ => inst.observers

/-- The instance as a routine: run until its context ends or it cannot go on, then close. -/
def script (inst : Instance ω) (cx : Context) :
    Routine (Outcall ω) ω Item (Except InstanceError Unit × Machine) := do
  match ← Routine.lift (startMutation inst cx) with
  | .error e =>
    let _ ← close inst inst.observers inst.machine none
    return (.error e, inst.machine)
  | .ok started =>
    let observers := observersOf inst cx started
    let (result, m) ← runLoop files inst cx observers inst.machine (started.map (·.2))
    let closed ← close inst observers m (started.map (·.1))
    return (match result with
      | .error e => .error e
      | .ok () => closed, m)

/-- Run the instance until its context ends or it cannot go on: the outcome and the machine
as it was left. -/
def run (inst : Instance ω) (cx : Context) :
    Proc ω Item (Except InstanceError Unit × Machine) :=
  (script files inst cx).toProc Outcall.perform

end Instance

end Campaign
