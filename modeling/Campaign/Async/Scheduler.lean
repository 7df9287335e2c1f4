import Campaign.Async.Proc

/-! A single-threaded scheduler on a clock that moves only when every task waits, the model of a
current-thread executor whose clock starts paused. Its rules for turns, waits, parking,
channels and stopping tasks are those an observer of such an executor can rely on, and every
loop in it is bounded by fuel.
-/

namespace Campaign

namespace Async

/-- A bounded channel with one receiver. -/
structure Channel (ν : Type) where
  items : List ν := []
  /-- Room not yet taken by anyone. -/
  permits : Nat
  senders : Nat := 1
  receiving : Bool := true
  /-- Tasks waiting for room, first come first served. -/
  waiters : List Nat := []
  /-- Tasks that were handed room and have not sent yet. -/
  granted : List Nat := []
  /-- The task waiting for an item. -/
  reader : Option Nat := none

/-- A timer: its deadline, its place among armed timers while armed, whether it fired, and the
task it wakes. -/
structure Timer where
  deadline : Nat
  armedAs : Option Nat := none
  fired : Bool := false
  waker : Option Nat := none
  live : Bool := true
  deriving Repr

/-- The state of a task's file operation or yield. -/
inductive Errand where
  | idle
  | pending
  | complete
  deriving DecidableEq, Repr

/-- A task of the scheduler. -/
structure Fiber (ω ν : Type) where
  /-- What the task does next; while it waits, the wait itself. -/
  prog : Proc ω ν ν
  /-- The timers of the task's current wait, by branch. -/
  owned : List (Nat × Nat) := []
  outcome : Option (Joined ν) := none
  queued : Bool := false
  aborting : Bool := false
  /-- Woken during its own turn. -/
  notified : Bool := false
  joiners : List Nat := []
  file : Errand := .idle
  yielded : Errand := .idle

/-- The scheduler: the clock, the shared state, the tasks and what they wait on. A woken task
joins the back of the run queue, and the main task has a turn at the start of each round of up
to 61 turns. A task runs until it awaits something not ready, arming every branch; the first
ready branch wins. With the queue empty the scheduler parks: yielded tasks wake first, then
file operations complete, then the clock jumps to the earliest armed timer. -/
structure Scheduler (ω ν : Type) where
  now : Nat := 0
  world : ω
  fibers : Array (Fiber ω ν)
  queue : List Nat := []
  mainWoken : Bool := true
  running : Option Nat := none
  timers : Array Timer := #[]
  armed : Nat := 0
  channels : Array (Channel ν) := #[]
  signals : Array Bool := #[]
  listeners : Array (List Nat) := #[]
  deferred : List Nat := []
  inFlight : List Nat := []

namespace Scheduler

variable {ω ν : Type}

/-- A scheduler whose main task runs `main` over the shared state `world`. -/
def launch (world : ω) (main : Proc ω ν ν) : Scheduler ω ν :=
  { world, fibers := #[{ prog := main }] }

/-- Change a task. -/
def setFiber (s : Scheduler ω ν) (t : Nat) (f : Fiber ω ν → Fiber ω ν) : Scheduler ω ν :=
  { s with fibers := s.fibers.modify t f }

/-- Change a channel. -/
def setChannel (s : Scheduler ω ν) (ch : Nat) (f : Channel ν → Channel ν) : Scheduler ω ν :=
  { s with channels := s.channels.modify ch f }

/-- Change a timer. -/
def setTimer (s : Scheduler ω ν) (t : Nat) (f : Timer → Timer) : Scheduler ω ν :=
  { s with timers := s.timers.modify t f }

/-- Whether a signal is raised. -/
def isRaised (s : Scheduler ω ν) (sig : Nat) : Bool := s.signals.getD sig false

/-- Why a context is done now. -/
def errOf (s : Scheduler ω ν) (cx : Context) : Option Cancelled := cx.err s.isRaised s.now

/-- Wake a task: queue it, or mark it when it is the main task or it is having its turn. -/
def wake (s : Scheduler ω ν) (t : Nat) : Scheduler ω ν :=
  match s.fibers[t]? with
  | none => s
  | some f =>
    if f.outcome.isSome then s
    else if t = 0 then { s with mainWoken := true }
    else if s.running = some t then s.setFiber t ({ · with notified := true })
    else if f.queued then s
    else { s.setFiber t ({ · with queued := true }) with queue := s.queue ++ [t] }

/-- Wake tasks in order. -/
def wakeAll (s : Scheduler ω ν) (ts : List Nat) : Scheduler ω ν := ts.foldl wake s

/-- Wake the reader of a channel. -/
def wakeReader (s : Scheduler ω ν) (ch : Nat) : Scheduler ω ν :=
  match s.channels[ch]? with
  | some { reader := some r, .. } => (s.setChannel ch ({ · with reader := none })).wake r
  | _ => s

/-- Give a channel's permit back: to the first task waiting for room, or to the channel. -/
def release (s : Scheduler ω ν) (ch : Nat) : Scheduler ω ν :=
  match s.channels[ch]? with
  | some c =>
    match c.waiters with
    | w :: rest =>
      (s.setChannel ch ({ · with waiters := rest, granted := c.granted ++ [w] })).wake w
    | [] => s.setChannel ch ({ · with permits := c.permits + 1 })
  | none => s

/-- Put an item into a channel and wake its reader. -/
def push (s : Scheduler ω ν) (ch : Nat) (v : ν) : Scheduler ω ν :=
  (s.setChannel ch fun c => { c with items := c.items ++ [v] }).wakeReader ch

/-- Stop waiting for room in a channel, giving back room that was handed over. -/
def leaveLine (s : Scheduler ω ν) (t ch : Nat) : Scheduler ω ν :=
  match s.channels[ch]? with
  | some c =>
    let s := s.setChannel ch ({ · with waiters := c.waiters.erase t, granted := c.granted.erase t })
    if c.granted.contains t then s.release ch else s
  | none => s

/-- A new timer. -/
def newTimer (s : Scheduler ω ν) (deadline : Nat) : Scheduler ω ν × Nat :=
  ({ s with timers := s.timers.push { deadline } }, s.timers.size)

/-- Raise a signal and wake its listeners. -/
def raiseSignal (s : Scheduler ω ν) (sig : Nat) : Scheduler ω ν :=
  let ls := s.listeners.getD sig []
  let s := { s with signals := s.signals.modify sig fun _ => true, listeners := s.listeners.modify sig fun _ => [] }
  s.wakeAll ls

/-- Arm a timer for task `t`: give it its place among armed timers if it has none. -/
def armTimer (s : Scheduler ω ν) (t i : Nat) : Scheduler ω ν :=
  match s.timers[i]? with
  | some tm =>
    match tm.armedAs with
    | some _ => s.setTimer i ({ · with waker := some t })
    | none => { s.setTimer i ({ · with armedAs := some s.armed, waker := some t }) with
        armed := s.armed + 1 }
  | none => s

/-- End a task with an outcome and wake those joining it. -/
def finish (s : Scheduler ω ν) (t : Nat) (o : Joined ν) : Scheduler ω ν :=
  match s.fibers[t]? with
  | some f => (s.setFiber t ({ · with outcome := some o, joiners := [], owned := [] })).wakeAll
      f.joiners
  | none => s

/-- Answer an order of task `t`. -/
def answer (s : Scheduler ω ν) (t : Nat) : Order ν → Scheduler ω ν × Reply ν
  | .now => (s, .id s.now)
  | .advanceClock ms => ({ s with now := s.now + ms }, .unit)
  | .channel capacity =>
    ({ s with channels := s.channels.push { permits := capacity } }, .id s.channels.size)
  | .cloneSender ch => (s.setChannel ch fun c => { c with senders := c.senders + 1 }, .unit)
  | .dropSender ch =>
    match s.channels[ch]? with
    | some c =>
      let s := s.setChannel ch ({ · with senders := c.senders - 1 })
      (if c.senders ≤ 1 then s.wakeReader ch else s, .unit)
    | none => (s, .unit)
  | .dropReceiver ch =>
    match s.channels[ch]? with
    | some c =>
      let s := s.setChannel ch fun c =>
        { c with receiving := false, items := [], waiters := [], granted := [] }
      (s.wakeAll (c.waiters ++ c.granted), .unit)
    | none => (s, .unit)
  | .offer ch v =>
    match s.channels[ch]? with
    | some c =>
      if !c.receiving then (s, .offered .closed)
      else if c.waiters.isEmpty && c.permits > 0 then
        ((s.setChannel ch ({ · with permits := c.permits - 1 })).push ch v, .offered .sent)
      else (s, .offered .full)
    | none => (s, .offered .closed)
  | .take ch =>
    match s.channels[ch]? with
    | some c =>
      match c.items with
      | v :: rest => ((s.setChannel ch ({ · with items := rest })).release ch, .taken (.item v))
      | [] => (s, .taken (if c.senders = 0 then .closed else .empty))
    | none => (s, .taken .closed)
  | .signal =>
    ({ s with signals := s.signals.push false, listeners := s.listeners.push [] },
      .id s.signals.size)
  | .raise sig => (s.raiseSignal sig, .unit)
  | .isRaised sig => (s, .flag (s.isRaised sig))
  | .timer deadline => let (s, i) := s.newTimer deadline; (s, .id i)
  | .resetTimer i deadline arm =>
    let s := s.setTimer i fun tm =>
      { tm with deadline, armedAs := none, fired := false, waker := none }
    (if arm then s.armTimer t i else s, .unit)
  | .dropTimer i => (s.setTimer i ({ · with live := false }), .unit)
  | .abort task =>
    match s.fibers[task]? with
    | some f =>
      if f.outcome.isSome then (s, .unit)
      else
        let s := s.setFiber task ({ · with aborting := true })
        if f.queued || s.running = some task || task = 0 then (s, .unit)
        else ({ s.setFiber task ({ · with queued := true }) with queue := s.queue ++ [task] },
          .unit)
    | none => (s, .unit)
  | .err cx => (s, .ended (s.errOf cx))
  | .panic => (s.finish t .panicked, .unit)

/-- Whether branch `w` of task `t`'s wait is ready; if so, take it. -/
def probe (s : Scheduler ω ν) (t : Nat) : Wait ν → Option (Woke ν × Scheduler ω ν)
  | .recv ch =>
    match s.channels[ch]? with
    | some c =>
      match c.items with
      | v :: rest => some (.received (some v), (s.setChannel ch ({ · with items := rest })).release ch)
      | [] => if c.senders = 0 then some (.received none, s) else none
    | none => some (.received none, s)
  | .send ch v =>
    match s.channels[ch]? with
    | some c =>
      if !c.receiving then some (.sent false, s.leaveLine t ch)
      else if c.granted.contains t then
        some (.sent true, (s.setChannel ch ({ · with granted := c.granted.erase t })).push ch v)
      else if c.waiters.isEmpty && c.permits > 0 then
        some (.sent true, (s.setChannel ch ({ · with permits := c.permits - 1 })).push ch v)
      else none
    | none => some (.sent false, s)
  | .timer i =>
    match s.timers[i]? with
    | some tm =>
      if tm.fired || tm.deadline ≤ s.now then some (.elapsed, s.setTimer i ({ · with fired := true }))
      else none
    | none => none
  | .sleepUntil d => if d ≤ s.now then some (.elapsed, s) else none
  | .done cx => (s.errOf cx).map fun r => (.done r, s)
  | .join task =>
    match s.fibers[task]? with
    | some f => f.outcome.map fun o => (.joined o, s)
    | none => some (.joined .aborted, s)
  | .file =>
    match s.fibers[t]? with
    | some f =>
      if f.file = .complete then some (.ready, s.setFiber t ({ · with file := .idle })) else none
    | none => none
  | .yield =>
    match s.fibers[t]? with
    | some f =>
      if f.yielded = .complete then some (.ready, s.setFiber t ({ · with yielded := .idle }))
      else none
    | none => none
  | .never => none

/-- The first ready branch of a wait, from place `j` on. -/
def probeAll (s : Scheduler ω ν) (t : Nat) : Nat → List (Wait ν) →
    Option (Nat × Woke ν × Scheduler ω ν)
  | _, [] => none
  | j, w :: ws =>
    match s.probe t w with
    | some (r, s) => some (j, r, s)
    | none => s.probeAll t (j + 1) ws

/-- Add a task to a list once. -/
def enlist (ts : List Nat) (t : Nat) : List Nat := if ts.contains t then ts else ts ++ [t]

/-- Arm the timer of branch `j` due at `deadline`, making it on the first wait. -/
def armOwned (s : Scheduler ω ν) (t j deadline : Nat) (owned : List (Nat × Nat)) :
    Scheduler ω ν × List (Nat × Nat) :=
  match owned.lookup j with
  | some i => (s.armTimer t i, owned)
  | none =>
    let (s, i) := s.newTimer deadline
    (s.armTimer t i, owned ++ [(j, i)])

/-- Arm branch `j` of task `t`'s wait. -/
def arm (s : Scheduler ω ν) (t : Nat) (owned : List (Nat × Nat)) (j : Nat) :
    Wait ν → Scheduler ω ν × List (Nat × Nat)
  | .recv ch => (s.setChannel ch ({ · with reader := some t }), owned)
  | .send ch _ =>
    (s.setChannel ch fun c =>
      if c.granted.contains t then c else { c with waiters := enlist c.waiters t }, owned)
  | .timer i => (s.armTimer t i, owned)
  | .sleepUntil d => s.armOwned t j d owned
  | .done cx =>
    let s := cx.signals.foldl (fun s sig =>
      { s with listeners := s.listeners.modify sig (enlist · t) }) s
    match cx.deadline with
    | some d => s.armOwned t j d owned
    | none => (s, owned)
  | .join task => (s.setFiber task fun f => { f with joiners := enlist f.joiners t }, owned)
  | .file =>
    match s.fibers[t]? with
    | some f =>
      if f.file = .idle then
        ({ s.setFiber t ({ · with file := .pending }) with inFlight := s.inFlight ++ [t] }, owned)
      else (s, owned)
    | none => (s, owned)
  | .yield =>
    match s.fibers[t]? with
    | some f =>
      if f.yielded = .idle then
        ({ s.setFiber t ({ · with yielded := .pending }) with deferred := s.deferred ++ [t] },
          owned)
      else (s, owned)
    | none => (s, owned)
  | .never => (s, owned)

/-- Arm every branch of a wait, from place `j` on. -/
def armAll (s : Scheduler ω ν) (t : Nat) : List (Nat × Nat) → Nat → List (Wait ν) →
    Scheduler ω ν × List (Nat × Nat)
  | owned, _, [] => (s, owned)
  | owned, j, w :: ws =>
    let (s, owned) := s.arm t owned j w
    s.armAll t owned (j + 1) ws

/-- Disarm one branch of task `t`'s wait. -/
def disarm (s : Scheduler ω ν) (t : Nat) : Wait ν → Scheduler ω ν
  | .recv ch =>
    s.setChannel ch fun c => if c.reader = some t then { c with reader := none } else c
  | .send ch _ => s.leaveLine t ch
  | .done cx =>
    cx.signals.foldl (fun s sig => { s with listeners := s.listeners.modify sig (·.erase t) }) s
  | .join task => s.setFiber task fun f => { f with joiners := f.joiners.erase t }
  | _ => s

/-- Disarm every branch of a wait and drop the timers it owned. -/
def disarmAll (s : Scheduler ω ν) (t : Nat) (ws : List (Wait ν)) (owned : List (Nat × Nat)) :
    Scheduler ω ν :=
  let s := ws.foldl (fun s w => s.disarm t w) s
  owned.foldl (fun s (_, i) => s.setTimer i ({ · with live := false })) s

/-- Leave task `t` waiting on `ws`, woken again at once if it was woken during its turn. -/
def park1 (s : Scheduler ω ν) (t : Nat) (p : Proc ω ν ν) (ws : List (Wait ν))
    (owned : List (Nat × Nat)) : Scheduler ω ν :=
  let (s, owned) := s.armAll t owned 0 ws
  let s := s.setFiber t ({ · with prog := p, owned })
  match s.fibers[t]? with
  | some f =>
    if f.notified then
      let s := s.setFiber t ({ · with notified := false })
      if t = 0 then { s with mainWoken := true }
      else if f.queued then s
      else { s.setFiber t ({ · with queued := true }) with queue := s.queue ++ [t] }
    else s
  | none => s

/-- Run task `t` from `p` until it waits for something not ready or ends, performing at most
`fuel` effects; `owned` are the timers of the wait it resumes from. -/
def step (s : Scheduler ω ν) (t : Nat) : Nat → Proc ω ν ν → List (Nat × Nat) → Scheduler ω ν
  | 0, p, owned => s.setFiber t ({ · with prog := p, owned })
  | fuel + 1, p, owned =>
    match p with
    | .pure v => s.finish t (.value v)
    | .touch f k =>
      let (w, b) := f s.world
      step { s with world := w } t fuel (k b) owned
    | .order o k =>
      let (s, r) := s.answer t o
      step s t fuel (k r) owned
    | .spawn body k =>
      let i := s.fibers.size
      let fresh : Fiber ω ν := { prog := body, queued := true }
      let s := { s with fibers := s.fibers.push fresh, queue := s.queue ++ [i] }
      step s t fuel (k i) owned
    | .await ws k =>
      match s.probeAll t 0 ws with
      | some (j, r, s) => step (s.disarmAll t ws owned) t fuel (k j r) []
      | none => s.park1 t p ws owned

/-- The most effects one turn of a task may perform. -/
def turnFuel : Nat := 1000000

/-- Drop a task that was asked to stop. -/
def drop (s : Scheduler ω ν) (t : Nat) : Scheduler ω ν :=
  match s.fibers[t]? with
  | some f =>
    let s := match f.prog with
      | .await ws _ => s.disarmAll t ws f.owned
      | _ => s
    let s := { s with inFlight := s.inFlight.erase t, deferred := s.deferred.erase t }
    s.finish t .aborted
  | none => s

/-- Give task `t` its turn. -/
def turn (s : Scheduler ω ν) (t : Nat) : Scheduler ω ν :=
  match s.fibers[t]? with
  | none => s
  | some f =>
    let s := s.setFiber t ({ · with queued := false, notified := false })
    if f.outcome.isSome then s
    else if f.aborting then s.drop t
    else
      let s := step { s with running := some t } t turnFuel f.prog f.owned
      { s with running := none }

/-- Give turns to up to `n` queued tasks; `true` when the queue ran empty. -/
def drain (s : Scheduler ω ν) : Nat → Scheduler ω ν × Bool
  | 0 => (s, false)
  | n + 1 =>
    match s.queue with
    | [] => (s, true)
    | t :: rest => ({ s with queue := rest }.turn t).drain n

/-- Fire the armed timers that are due, by deadline and then by the order they were armed. -/
def fireDue (s : Scheduler ω ν) : Scheduler ω ν :=
  let due := (List.range s.timers.size).filterMap fun i =>
    match s.timers[i]? with
    | some tm =>
      match tm.armedAs with
      | some a => if tm.live && !tm.fired && tm.deadline ≤ s.now then some (tm.deadline, a, i)
        else none
      | none => none
    | none => none
  let sorted := due.mergeSort fun x y => x.1 < y.1 || (x.1 == y.1 && x.2.1 ≤ y.2.1)
  sorted.foldl (fun s (_, _, i) =>
    let s := s.setTimer i ({ · with fired := true })
    match s.timers[i]? with
    | some { waker := some w, .. } => s.wake w
    | _ => s) s

/-- The earliest deadline of an armed timer that has not fired. -/
def nextDeadline (s : Scheduler ω ν) : Option Nat :=
  s.timers.foldl (fun acc tm =>
    match tm.armedAs with
    | some _ =>
      if tm.live && !tm.fired then
        match acc with
        | some d => some (min d tm.deadline)
        | none => some tm.deadline
      else acc
    | none => acc) none

/-- Wake the tasks that yielded. -/
def wakeDeferred (s : Scheduler ω ν) : Scheduler ω ν :=
  let ts := s.deferred
  let s := ts.foldl (fun s t => s.setFiber t ({ · with yielded := .complete })) { s with deferred := [] }
  s.wakeAll ts

/-- Complete the file operations in flight. -/
def completeFiles (s : Scheduler ω ν) : Scheduler ω ν :=
  let ts := s.inFlight
  let s := ts.foldl (fun s t => s.setFiber t ({ · with file := .complete })) { s with inFlight := [] }
  s.wakeAll ts

/-- A short pause between rounds: due timers fire and tasks that yielded wake. -/
def pause (s : Scheduler ω ν) : Scheduler ω ν := s.fireDue.wakeDeferred

/-- Park with the queue empty; `none` when nothing can ever wake a task. -/
def park (s : Scheduler ω ν) : Option (Scheduler ω ν) :=
  if !s.deferred.isEmpty then some s.pause
  else if !s.inFlight.isEmpty then some s.completeFiles.pause
  else if s.mainWoken then some s.pause
  else
    match s.nextDeadline with
    | some d => some { s with now := max s.now d }.pause
    | none => none

/-- The main task's outcome, once it has ended. -/
def mainOutcome (s : Scheduler ω ν) : Option (Joined ν) := s.fibers[0]?.bind (·.outcome)

/-- Run rounds until the main task ends, nothing can happen any more, or `fuel` rounds have
passed. -/
def run : Nat → Scheduler ω ν → Scheduler ω ν
  | 0, s => s
  | fuel + 1, s =>
    if s.mainOutcome.isSome then s
    else
      let s := if s.mainWoken then { s with mainWoken := false }.turn 0 else s
      if s.mainOutcome.isSome then s
      else
        match s.drain 61 with
        | (s, true) =>
          match s.park with
          | some s => run fuel s
          | none => s
        | (s, false) => run fuel s.pause

/-- The most rounds of a run. -/
def roundFuel : Nat := 10000000

/-- Run `main` over `world` to its end: its result, if it ended, and the final scheduler. -/
def runMain (world : ω) (main : Proc ω ν ν) : Option ν × Scheduler ω ν :=
  let s := run roundFuel (launch world main)
  match s.mainOutcome with
  | some (.value v) => (some v, s)
  | _ => (none, s)

end Scheduler

end Async

end Campaign
